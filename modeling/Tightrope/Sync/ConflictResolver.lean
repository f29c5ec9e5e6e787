import Mathlib.Data.List.Nodup
import Tightrope.Library.Bytes
import Tightrope.Library.Delivery
import Tightrope.Sync.Hlc

namespace Tightrope.Sync

open Bytes Delivery MachineWords

inductive ConflictDecision where
  | keepLocal
  | applyRemote
  deriving DecidableEq

inductive ConflictStrategy where
  | raftLinearizable
  | lwwByHlc
  | crdtPnCounterMerge
  | crdtOrSetAddWins
  | localOnly
  deriving DecidableEq

structure TableRule where
  table : Bytes
  strategy : ConflictStrategy
  replicated : Bool

def kTableRules : List TableRule :=
  [⟨ofString "accounts", .raftLinearizable, true⟩,
    ⟨ofString "dashboard_settings", .raftLinearizable, true⟩,
    ⟨ofString "api_keys", .raftLinearizable, true⟩,
    ⟨ofString "api_key_limits", .raftLinearizable, true⟩,
    ⟨ofString "ip_allowlist", .crdtOrSetAddWins, true⟩,
    ⟨ofString "usage_history", .crdtPnCounterMerge, true⟩,
    ⟨ofString "sticky_sessions", .lwwByHlc, true⟩,
    ⟨ofString "request_logs", .localOnly, false⟩,
    ⟨ofString "_sync_journal", .localOnly, false⟩,
    ⟨ofString "_sync_meta", .localOnly, false⟩,
    ⟨ofString "_sync_last_seen", .localOnly, false⟩]

def localPrefixRule : TableRule := ⟨[], .localOnly, false⟩

def findRule (tableName : Bytes) : Option TableRule :=
  match kTableRules.find? (fun rule => rule.table = tableName) with
  | some rule => some rule
  | none =>
    if ofString "_sync_" <+: tableName ∨ ofString "_raft_" <+: tableName then some localPrefixRule else none

def conflictStrategyForTable (tableName : Bytes) : ConflictStrategy :=
  ((findRule tableName).map TableRule.strategy).getD .lwwByHlc

def isTableReplicated (tableName : Bytes) : Bool := ((findRule tableName).map TableRule.replicated).getD true

inductive RuntimeConflictResolution where
  | lww
  | sitePriority
  | fieldMerge
  deriving DecidableEq

def parseRuntimeConflictResolution (strategy : Bytes) : RuntimeConflictResolution :=
  if strategy = ofString "site_priority" then .sitePriority
  else if strategy = ofString "field_merge" then .fieldMerge
  else .lww

def runtimeConflictResolutionName : RuntimeConflictResolution → Bytes
  | .sitePriority => ofString "site_priority"
  | .fieldMerge => ofString "field_merge"
  | .lww => ofString "lww"

def replicatedTableNames : List Bytes := (kTableRules.filter TableRule.replicated).map TableRule.table

def tableRequiresRaft (tableName : Bytes) : Bool := conflictStrategyForTable tableName = .raftLinearizable

section Decisions

variable (mode : RuntimeConflictResolution)

def resolveLww (remote localHlc : Hlc) : ConflictDecision :=
  match mode with
  | .sitePriority =>
    if remote.siteId ≠ localHlc.siteId then if remote.siteId > localHlc.siteId then .applyRemote else .keepLocal
    else if compareHlc remote localHlc > 0 then .applyRemote else .keepLocal
  | .fieldMerge =>
    if remote.wall ≠ localHlc.wall then if remote.wall > localHlc.wall then .applyRemote else .keepLocal
    else if remote.counter ≠ localHlc.counter then
      if remote.counter > localHlc.counter then .applyRemote else .keepLocal
    else .keepLocal
  | .lww => if compareHlc remote localHlc > 0 then .applyRemote else .keepLocal

def resolveTableConflict (tableName : Bytes) (remote localHlc : Hlc) : ConflictDecision :=
  match conflictStrategyForTable tableName with
  | .localOnly => .keepLocal
  | .raftLinearizable => .keepLocal
  | .lwwByHlc => resolveLww mode remote localHlc
  | .crdtPnCounterMerge => resolveLww mode remote localHlc
  | .crdtOrSetAddWins => resolveLww mode remote localHlc

/-- What a mode compares: everything, the site before the rest, or everything but the site. -/
def RuntimeConflictResolution.key (h : Hlc) : ℕ ×ₗ ℕ ×ₗ ℕ :=
  match mode with
  | .lww => toLex (h.wall.toNat, toLex (h.counter.toNat, h.siteId.toNat))
  | .sitePriority => toLex (h.siteId.toNat, toLex (h.wall.toNat, h.counter.toNat))
  | .fieldMerge => toLex (h.wall.toNat, toLex (h.counter.toNat, 0))

end Decisions

theorem resolveLww_eq_applyRemote {mode : RuntimeConflictResolution} {remote localHlc : Hlc} :
    resolveLww mode remote localHlc = .applyRemote ↔ mode.key localHlc < mode.key remote := by
  have hcompare : compareHlc remote localHlc > 0 ↔ localHlc.key < remote.key := zero_lt_compareHlc remote localHlc
  rw [Hlc.key_lt_iff] at hcompare
  cases mode with
  | lww =>
    simp only [resolveLww, hcompare, RuntimeConflictResolution.key, Prod.Lex.toLex_lt_toLex, UInt64.lt_iff_toNat_lt,
      UInt32.lt_iff_toNat_lt, ← UInt64.toNat_inj, ← UInt32.toNat_inj]
    split_ifs with h
    · exact iff_of_true rfl h
    · exact iff_of_false (by decide) h
  | sitePriority =>
    simp only [resolveLww, hcompare, RuntimeConflictResolution.key, Prod.Lex.toLex_lt_toLex, UInt64.lt_iff_toNat_lt,
      UInt32.lt_iff_toNat_lt, ← UInt64.toNat_inj, ← UInt32.toNat_inj, gt_iff_lt, ne_eq]
    split_ifs <;> simp only [true_iff, false_iff] <;> omega
  | fieldMerge =>
    simp only [resolveLww, RuntimeConflictResolution.key, Prod.Lex.toLex_lt_toLex, UInt64.lt_iff_toNat_lt,
      UInt32.lt_iff_toNat_lt, ← UInt64.toNat_inj, ← UInt32.toNat_inj, gt_iff_lt, ne_eq]
    split_ifs <;> simp only [true_iff, false_iff] <;> omega

structure RowVersion (V : Type) where
  hlc : Hlc
  row : V
  deriving DecidableEq

section Convergence

variable {V : Type} (mode : RuntimeConflictResolution) (tableName : Bytes)

def takeVersion (current remote : RowVersion V) : RowVersion V :=
  if resolveTableConflict mode tableName remote.hlc current.hlc = .applyRemote then remote else current

def ReplicasConverge (versions : List (RowVersion V)) : Prop :=
  ∀ a as b bs, (a :: as).Perm versions → (b :: bs).Perm versions →
    as.foldl (takeVersion mode tableName) a = bs.foldl (takeVersion mode tableName) b

def SingleLatest (versions : List (RowVersion V)) : Prop :=
  ∀ a ∈ versions, ∀ b ∈ versions, (∀ d ∈ versions, RuntimeConflictResolution.fieldMerge.key d.hlc ≤
      RuntimeConflictResolution.fieldMerge.key a.hlc) →
    (∀ d ∈ versions, RuntimeConflictResolution.fieldMerge.key d.hlc ≤
      RuntimeConflictResolution.fieldMerge.key b.hlc) → a = b

variable {mode tableName}

theorem takeVersion_eq (hlocal : conflictStrategyForTable tableName ≠ .localOnly)
    (hraft : conflictStrategyForTable tableName ≠ .raftLinearizable) :
    (takeVersion mode tableName : RowVersion V → RowVersion V → RowVersion V) =
      keepLarger (fun v => mode.key v.hlc) := by
  have htable : ∀ remote current : Hlc,
      resolveTableConflict mode tableName remote current = resolveLww mode remote current := by
    intro remote current
    unfold resolveTableConflict
    split
    · contradiction
    · contradiction
    · rfl
    · rfl
    · rfl
  funext current remote
  simp only [takeVersion, keepLarger, htable, resolveLww_eq_applyRemote]

theorem RuntimeConflictResolution.key_injective (hmode : mode ≠ .fieldMerge) : Function.Injective mode.key := by
  rintro ⟨w, c, s⟩ ⟨w', c', s'⟩ h
  cases mode with
  | lww => simpa [RuntimeConflictResolution.key, UInt64.toNat_inj, UInt32.toNat_inj] using h
  | sitePriority =>
    simp only [RuntimeConflictResolution.key, toLex_inj, Prod.mk.injEq, UInt64.toNat_inj, UInt32.toNat_inj] at h
    obtain ⟨rfl, rfl, rfl⟩ := h
    rfl
  | fieldMerge => exact absurd rfl hmode

end Convergence

theorem conflict_resolution_converges_iff {V : Type} (mode : RuntimeConflictResolution) {tableName : Bytes}
    (hlocal : conflictStrategyForTable tableName ≠ .localOnly)
    (hraft : conflictStrategyForTable tableName ≠ .raftLinearizable) {versions : List (RowVersion V)}
    (hdistinct : (versions.map RowVersion.hlc).Nodup) :
    ReplicasConverge mode tableName versions ↔ (mode = .fieldMerge → SingleLatest versions) := by
  unfold ReplicasConverge
  rw [takeVersion_eq hlocal hraft]
  constructor
  · rintro hconverge rfl a ha b hb hleA hleB
    have hfirst : ∀ x ∈ versions, ∃ xs, (x :: xs).Perm versions := by
      intro x hx
      obtain ⟨front, back, rfl⟩ := List.append_of_mem hx
      exact ⟨front ++ back, List.perm_middle.symm⟩
    obtain ⟨as, has⟩ := hfirst a ha
    obtain ⟨bs, hbs⟩ := hfirst b hb
    have hsame := hconverge a as b bs has hbs
    have htopA : as.foldl (keepLarger fun v => RuntimeConflictResolution.fieldMerge.key v.hlc) a = a :=
      foldl_keepLarger_of_top _ fun d hd => hleA d (has.mem_iff.mp (by simp [hd]))
    have htopB : bs.foldl (keepLarger fun v => RuntimeConflictResolution.fieldMerge.key v.hlc) b = b :=
      foldl_keepLarger_of_top _ fun d hd => hleB d (hbs.mem_iff.mp (by simp [hd]))
    rw [htopA, htopB] at hsame
    exact hsame
  · intro hlatest a as b bs has hbs
    apply foldl_keepLarger_same
    · intro d
      rw [has.mem_iff, hbs.mem_iff]
    · intro x hx y hy hleX hleY
      simp only [has.mem_iff] at hx hy hleX hleY
      by_cases hmode : mode = .fieldMerge
      · subst hmode
        exact hlatest rfl x hx y hy hleX hleY
      · have hhlc := RuntimeConflictResolution.key_injective hmode (le_antisymm (hleY x hx) (hleX y hy))
        exact List.inj_on_of_nodup_map hdistinct hx hy hhlc

def sitesOneAndNine : List (RowVersion Bytes) := [⟨⟨500, 7, 9⟩, ofString "nine"⟩, ⟨⟨500, 7, 1⟩, ofString "one"⟩]

theorem conflict_resolution_converges_sitesOneAndNine :
    ReplicasConverge .lww (ofString "sticky_sessions") sitesOneAndNine := by
  apply (conflict_resolution_converges_iff .lww (by decide) (by decide) (by decide)).mpr
  exact nofun

theorem field_merge_tie_diverges :
    (sitesOneAndNine.map RowVersion.hlc).Nodup ∧
      conflictStrategyForTable (ofString "sticky_sessions") ≠ .localOnly ∧
      conflictStrategyForTable (ofString "sticky_sessions") ≠ .raftLinearizable ∧
      ¬ ReplicasConverge .fieldMerge (ofString "sticky_sessions") sitesOneAndNine := by
  refine ⟨by decide, by decide, by decide, ?_⟩
  intro h
  have hsame := h ⟨⟨500, 7, 9⟩, ofString "nine"⟩ [⟨⟨500, 7, 1⟩, ofString "one"⟩] ⟨⟨500, 7, 1⟩, ofString "one"⟩
    [⟨⟨500, 7, 9⟩, ofString "nine"⟩] (List.Perm.refl _) (List.Perm.swap _ _ _)
  exact absurd hsame (by decide)

end Tightrope.Sync
