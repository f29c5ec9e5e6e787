import Tightrope.Db.StickySessions
import Tightrope.Library.Paging
import Tightrope.Library.Runs

namespace Tightrope.Proxy.Session

open Bytes Tightrope.Core Db Runs

structure StickyAffinityResolution where
  stickyKey : Bytes
  stickyKind : Bytes := ofString "sticky_thread"
  accountId : Bytes := []
  fromHeader : Bool := false
  fromPersistence : Bool := false
  deriving DecidableEq, Repr

structure StickyDbState where
  rows : StickySessionTable := .empty
  lastCleanupMs : ℤ := 0

structure StickyEnv where
  nowMs : ℤ
  available : Bool := true
  stickyThreadsEnabled : Bool := true
  stickyTtlMs : ℤ := 1800000
  cleanupIntervalMs : ℤ := 60000

def StickyEnv.serves (env : StickyEnv) : Bool := env.available && env.stickyThreadsEnabled

inductive StickyCall where
  | resolveStickyAffinity (stickyKey stickyKind headerAccountId : Bytes)
  | persistStickyAffinity (resolution : StickyAffinityResolution)
  | markUpstreamAccount (accountId : Bytes)
  | purgeStaleStickySessions

namespace StickyDbState

def maybePurgeExpired (s : StickyDbState) (env : StickyEnv) : StickyDbState :=
  if env.nowMs < s.lastCleanupMs then { s with lastCleanupMs := env.nowMs }
  else if env.nowMs - s.lastCleanupMs < env.cleanupIntervalMs then s
  else { rows := s.rows.purgeExpired env.nowMs, lastCleanupMs := env.nowMs }

def resolveStickyAffinity (s : StickyDbState) (env : StickyEnv) (stickyKey stickyKind headerAccountId : Bytes) :
    StickyDbState × StickyAffinityResolution :=
  let resolution : StickyAffinityResolution :=
    { stickyKey := stickyKey
      stickyKind := normalizeStickySessionKind stickyKind
      accountId := headerAccountId
      fromHeader := headerAccountId ≠ [] }
  if headerAccountId ≠ [] ∨ stickyKey = [] ∨ env.serves = false then (s, resolution)
  else
    let s := s.maybePurgeExpired env
    match s.rows.findAccount stickyKey env.nowMs with
    | none => (s, resolution)
    | some accountId => (s, { resolution with accountId := accountId, fromPersistence := true })

def persistStickyAffinity (s : StickyDbState) (env : StickyEnv) (resolution : StickyAffinityResolution) :
    StickyDbState :=
  if resolution.stickyKey = [] ∨ resolution.accountId = [] ∨ env.serves = false then s
  else { s with
    rows := s.rows.upsert resolution.stickyKey resolution.accountId env.nowMs env.stickyTtlMs resolution.stickyKind
    : StickyDbState }.maybePurgeExpired env

def markUpstreamAccount (s : StickyDbState) (env : StickyEnv) (accountId : Bytes) : StickyDbState :=
  if trimAscii accountId = [] ∨ env.available = false then s
  else { s with rows := s.rows.purgeForAccount (trimAscii accountId) }

def purgeStaleStickySessions (s : StickyDbState) (env : StickyEnv) : StickyDbState :=
  if env.available then { s with rows := s.rows.purgeExpired env.nowMs } else s

def act (s : StickyDbState) : StickyEnv × StickyCall → StickyDbState × Option StickyAffinityResolution
  | (env, .resolveStickyAffinity key kind header) =>
    ((s.resolveStickyAffinity env key kind header).1, some (s.resolveStickyAffinity env key kind header).2)
  | (env, .persistStickyAffinity resolution) => (s.persistStickyAffinity env resolution, none)
  | (env, .markUpstreamAccount accountId) => (s.markUpstreamAccount env accountId, none)
  | (env, .purgeStaleStickySessions) => (s.purgeStaleStickySessions env, none)

def step (s : StickyDbState) (call : StickyEnv × StickyCall) : StickyDbState := (s.act call).1

end StickyDbState

section Rows

variable {P : StickySessionTable → Prop}
  (hfilter : ∀ (rows : StickySessionTable) (p : Bytes → StickySession → Bool), P rows → P (rows.filter p))
include hfilter

theorem rows_maybePurgeExpired {s : StickyDbState} (h : P s.rows) (env : StickyEnv) :
    P (s.maybePurgeExpired env).rows := by
  unfold StickyDbState.maybePurgeExpired
  split_ifs
  · exact h
  · exact h
  · exact hfilter s.rows (fun _ row => env.nowMs < row.expiresAtMs) h

theorem rows_step {s : StickyDbState} (h : P s.rows) (call : StickyEnv × StickyCall)
    (hupsert : ∀ resolution, call.2 = .persistStickyAffinity resolution → ∀ nowMs ttlMs,
      P (s.rows.upsert resolution.stickyKey resolution.accountId nowMs ttlMs resolution.stickyKind)) :
    P (s.step call).rows := by
  obtain ⟨env, call⟩ := call
  cases call with
  | resolveStickyAffinity key kind header =>
    simp only [StickyDbState.step, StickyDbState.act, StickyDbState.resolveStickyAffinity]
    split_ifs
    · exact h
    · split
      · exact rows_maybePurgeExpired hfilter h env
      · exact rows_maybePurgeExpired hfilter h env
  | persistStickyAffinity resolution =>
    simp only [StickyDbState.step, StickyDbState.act, StickyDbState.persistStickyAffinity]
    split_ifs
    · exact h
    · exact rows_maybePurgeExpired hfilter (hupsert resolution rfl _ _) env
  | markUpstreamAccount accountId =>
    simp only [StickyDbState.step, StickyDbState.act, StickyDbState.markUpstreamAccount,
      StickySessionTable.purgeForAccount]
    split_ifs
    · exact h
    · exact h
    · exact hfilter s.rows (fun _ row => row.accountId ≠ trimAscii accountId) h
  | purgeStaleStickySessions =>
    simp only [StickyDbState.step, StickyDbState.act, StickyDbState.purgeStaleStickySessions]
    split_ifs
    · exact hfilter s.rows (fun _ row => env.nowMs < row.expiresAtMs) h
    · exact h

end Rows

section Memory

/-- What the calls are to remember: for a key the account it was last persisted with, and until when. -/
abbrev StickyMemory := Bytes → Option (Bytes × ℤ)

namespace StickyMemory

def live (entry : Option (Bytes × ℤ)) (nowMs : ℤ) : Option (Bytes × ℤ) := entry.filter fun e => nowMs < e.2

/-- A memory that never cleans up. -/
def act (memory : StickyMemory) : StickyEnv × StickyCall → StickyMemory × Option StickyAffinityResolution
  | (env, .resolveStickyAffinity key kind header) =>
    let remembered := if header ≠ [] ∨ key = [] ∨ env.serves = false then none else live (memory key) env.nowMs
    (memory, some
      { stickyKey := key
        stickyKind := normalizeStickySessionKind kind
        accountId := (remembered.map Prod.fst).getD header
        fromHeader := header ≠ []
        fromPersistence := remembered.isSome })
  | (env, .persistStickyAffinity resolution) =>
    (if resolution.stickyKey = [] ∨ resolution.accountId = [] ∨ env.serves = false then memory
      else Function.update memory resolution.stickyKey (some (resolution.accountId, env.nowMs + max 1 env.stickyTtlMs)),
      none)
  | (env, .markUpstreamAccount accountId) =>
    (if trimAscii accountId = [] ∨ env.available = false then memory
      else fun key => (memory key).filter (·.1 ≠ trimAscii accountId), none)
  | (_, .purgeStaleStickySessions) => (memory, none)

end StickyMemory

structure Agree (now : ℤ) (rows : StickySessionTable) (memory : StickyMemory) : Prop where
  filled : rows.Filled
  live : ∀ key later, now ≤ later →
    StickyMemory.live ((rows.find? key).map fun row => (row.accountId, row.expiresAtMs)) later =
      StickyMemory.live (memory key) later

variable {now : ℤ} {rows : StickySessionTable} {memory : StickyMemory}

theorem agree_empty (now : ℤ) : Agree now .empty fun _ => none := ⟨StickySessionTable.filled_empty, fun _ _ _ => rfl⟩

theorem Agree.mono (h : Agree now rows memory) {later : ℤ} (hle : now ≤ later) : Agree later rows memory :=
  ⟨h.filled, fun key t ht => h.live key t (hle.trans ht)⟩

theorem Agree.purgeExpired (h : Agree now rows memory) : Agree now (rows.purgeExpired now) memory := by
  refine ⟨h.filled.purgeExpired now, fun key later hlater => ?_⟩
  rw [← h.live key later hlater, StickySessionTable.purgeExpired, FlatMap.find?_filter]
  cases rows.find? key with
  | none => rfl
  | some row =>
    by_cases hexpires : now < row.expiresAtMs
    · rw [Option.filter_some_pos (by simpa using hexpires)]
    · have hexpired : ¬ later < row.expiresAtMs := by omega
      rw [Option.filter_some_neg (by simpa using hexpires), Option.map_some, StickyMemory.live, StickyMemory.live,
        Option.filter_some_neg (by simpa using hexpired)]
      rfl

theorem Agree.upsert (h : Agree now rows memory) {key accountId : Bytes} (hkey : key ≠ []) (haccount : accountId ≠ [])
    (nowMs ttlMs : ℤ) (kind : Bytes) :
    Agree now (rows.upsert key accountId nowMs ttlMs kind)
      (Function.update memory key (some (accountId, nowMs + max 1 ttlMs))) := by
  refine ⟨h.filled.upsert key accountId nowMs ttlMs kind, fun other later hlater => ?_⟩
  rw [StickySessionTable.upsert, if_neg (not_or.mpr ⟨hkey, haccount⟩), FlatMap.find?_insert]
  by_cases hother : other = key
  · rw [hother, if_pos rfl, Function.update_self, Option.map_some]
  · rw [if_neg hother, Function.update_of_ne hother, h.live other later hlater]

theorem Agree.purgeForAccount (h : Agree now rows memory) {accountId : Bytes} (haccount : accountId ≠ []) :
    Agree now (rows.purgeForAccount accountId) fun key => (memory key).filter (·.1 ≠ accountId) := by
  refine ⟨h.filled.purgeForAccount accountId, fun key later hlater => ?_⟩
  have hcomm : StickyMemory.live ((memory key).filter (·.1 ≠ accountId)) later =
      (StickyMemory.live (memory key) later).filter (·.1 ≠ accountId) := by
    rw [StickyMemory.live, StickyMemory.live, Option.filter_filter, Option.filter_filter]
    simp only [Bool.and_comm]
  rw [hcomm, ← h.live key later hlater, StickySessionTable.purgeForAccount, if_neg haccount, FlatMap.find?_filter]
  cases rows.find? key with
  | none => rfl
  | some row =>
    by_cases hrow : row.accountId = accountId <;> by_cases hexpires : later < row.expiresAtMs <;>
      simp [StickyMemory.live, hrow, hexpires, Option.filter_some]

theorem Agree.maybePurgeExpired {s : StickyDbState} {env : StickyEnv} (h : Agree env.nowMs s.rows memory) :
    Agree env.nowMs (s.maybePurgeExpired env).rows memory := by
  unfold StickyDbState.maybePurgeExpired
  split_ifs
  · exact h
  · exact h
  · exact h.purgeExpired

theorem Agree.findAccount (h : Agree now rows memory) {key : Bytes} (hkey : key ≠ []) :
    rows.findAccount key now = (StickyMemory.live (memory key) now).map Prod.fst := by
  rw [← h.live key now le_rfl, StickySessionTable.findAccount, if_neg hkey]
  cases hrow : rows.find? key with
  | none => rfl
  | some row =>
    have hfilled := (h.filled key row hrow).2
    by_cases hexpires : now < row.expiresAtMs <;> simp [StickyMemory.live, hexpires, hfilled, Option.filter_some]

theorem Agree.act {s : StickyDbState} (h : Agree now s.rows memory) (call : StickyEnv × StickyCall)
    (hle : now ≤ call.1.nowMs) :
    Agree call.1.nowMs (s.act call).1.rows (memory.act call).1 ∧ (s.act call).2 = (memory.act call).2 := by
  obtain ⟨env, call⟩ := call
  have hnow : Agree env.nowMs s.rows memory := h.mono hle
  cases call with
  | resolveStickyAffinity key kind header =>
    simp only [StickyDbState.act, StickyMemory.act, StickyDbState.resolveStickyAffinity]
    by_cases hsilent : header ≠ [] ∨ key = [] ∨ env.serves = false
    · simp only [if_pos hsilent]
      exact ⟨hnow, rfl⟩
    · simp only [if_neg hsilent]
      have hkey : key ≠ [] := fun hempty => hsilent (.inr (.inl hempty))
      have hpurged := hnow.maybePurgeExpired
      rw [hpurged.findAccount hkey]
      cases StickyMemory.live (memory key) env.nowMs with
      | none => exact ⟨hpurged, rfl⟩
      | some entry => exact ⟨hpurged, rfl⟩
  | persistStickyAffinity resolution =>
    simp only [StickyDbState.act, StickyMemory.act, StickyDbState.persistStickyAffinity, and_true]
    by_cases hsilent : resolution.stickyKey = [] ∨ resolution.accountId = [] ∨ env.serves = false
    · simp only [if_pos hsilent]
      exact hnow
    · simp only [if_neg hsilent]
      rw [not_or, not_or] at hsilent
      exact Agree.maybePurgeExpired (hnow.upsert hsilent.1 hsilent.2.1 env.nowMs env.stickyTtlMs resolution.stickyKind)
  | markUpstreamAccount accountId =>
    simp only [StickyDbState.act, StickyMemory.act, StickyDbState.markUpstreamAccount, and_true]
    by_cases hsilent : trimAscii accountId = [] ∨ env.available = false
    · simp only [if_pos hsilent]
      exact hnow
    · simp only [if_neg hsilent]
      exact hnow.purgeForAccount (not_or.mp hsilent).1
  | purgeStaleStickySessions =>
    simp only [StickyDbState.act, StickyMemory.act, StickyDbState.purgeStaleStickySessions, and_true]
    cases env.available with
    | false => exact hnow
    | true => exact hnow.purgeExpired

theorem replies_eq_of_agree {s : StickyDbState} (h : Agree now s.rows memory) (calls : List (StickyEnv × StickyCall))
    (hfirst : ∀ call ∈ calls, now ≤ call.1.nowMs)
    (htimes : calls.Pairwise fun call next => call.1.nowMs ≤ next.1.nowMs) :
    replies StickyDbState.act s calls = replies StickyMemory.act memory calls := by
  induction calls generalizing now s memory with
  | nil => rfl
  | cons call calls ih =>
    obtain ⟨hlater, htimes⟩ := List.pairwise_cons.mp htimes
    obtain ⟨hagree, hreply⟩ := h.act call (hfirst call List.mem_cons_self)
    rw [replies, replies, hreply, ih hagree hlater htimes]

/-- While the clock does not go back, the table with its purges answers every call as a memory that never cleans up. -/
theorem sticky_table_refines_memory (calls : List (StickyEnv × StickyCall))
    (htimes : calls.Pairwise fun call next => call.1.nowMs ≤ next.1.nowMs) (lastCleanupMs : ℤ) :
    replies StickyDbState.act ⟨.empty, lastCleanupMs⟩ calls = replies StickyMemory.act (fun _ => none) calls := by
  cases calls with
  | nil => rfl
  | cons call calls =>
    refine replies_eq_of_agree (agree_empty call.1.nowMs) (call :: calls) ?_ htimes
    rw [List.forall_mem_cons]
    exact ⟨le_rfl, (List.pairwise_cons.mp htimes).1⟩

def stickyCalls : List (StickyEnv × StickyCall) :=
  [({ nowMs := 0 }, .persistStickyAffinity { stickyKey := [1], accountId := [7] }),
    ({ nowMs := 1 }, .persistStickyAffinity { stickyKey := [2], accountId := [8] }),
    ({ nowMs := 2 }, .markUpstreamAccount [7]),
    ({ nowMs := 1800000 }, .resolveStickyAffinity [1] [] []),
    ({ nowMs := 1800000 }, .resolveStickyAffinity [2] [] [])]

theorem stickyCalls_answered :
    replies StickyDbState.act ⟨.empty, 0⟩ stickyCalls = replies StickyMemory.act (fun _ => none) stickyCalls :=
  sticky_table_refines_memory stickyCalls (by decide) 0

end Memory

section Marked

def Free (accountId : Bytes) (rows : StickySessionTable) : Prop :=
  ∀ key row, rows.find? key = some row → row.accountId ≠ accountId

variable {accountId : Bytes} {rows : StickySessionTable}

theorem Free.filter (h : Free accountId rows) (p : Bytes → StickySession → Bool) : Free accountId (rows.filter p) := by
  intro key row hrow
  rw [FlatMap.find?_filter] at hrow
  exact h key row (Option.filter_eq_some_iff.mp hrow).1

theorem Free.upsert (h : Free accountId rows) {other : Bytes} (hother : other ≠ accountId) (key : Bytes)
    (nowMs ttlMs : ℤ) (kind : Bytes) : Free accountId (rows.upsert key other nowMs ttlMs kind) := by
  unfold StickySessionTable.upsert
  split_ifs
  · exact h
  · intro key' row hrow
    rw [FlatMap.find?_insert] at hrow
    split_ifs at hrow
    · obtain rfl := Option.some.inj hrow
      exact hother
    · exact h key' row hrow

theorem free_purgeForAccount (haccount : accountId ≠ []) (rows : StickySessionTable) :
    Free accountId (rows.purgeForAccount accountId) := by
  intro key row hrow
  rw [StickySessionTable.purgeForAccount, if_neg haccount, FlatMap.find?_filter] at hrow
  simpa using (Option.filter_eq_some_iff.mp hrow).2

def StickyCall.Persists (accountId : Bytes) : StickyCall → Prop
  | .persistStickyAffinity resolution => resolution.accountId = accountId
  | .resolveStickyAffinity .. | .markUpstreamAccount _ | .purgeStaleStickySessions => False

instance StickyCall.Persists.decidable (accountId : Bytes) : ∀ call : StickyCall, Decidable (call.Persists accountId)
  | .persistStickyAffinity resolution => inferInstanceAs (Decidable (resolution.accountId = accountId))
  | .resolveStickyAffinity .. => .isFalse id
  | .markUpstreamAccount _ => .isFalse id
  | .purgeStaleStickySessions => .isFalse id

theorem Free.step {s : StickyDbState} (h : Free accountId s.rows) (call : StickyEnv × StickyCall)
    (hcall : ¬ call.2.Persists accountId) : Free accountId (s.step call).rows := by
  refine rows_step (P := Free accountId) (fun _ p hfree => hfree.filter p) h call ?_
  intro resolution hpersist nowMs ttlMs
  rw [hpersist] at hcall
  exact h.upsert hcall resolution.stickyKey nowMs ttlMs resolution.stickyKind

theorem Free.run {s : StickyDbState} (h : Free accountId s.rows) {calls : List (StickyEnv × StickyCall)}
    (hcalls : ∀ call ∈ calls, ¬ call.2.Persists accountId) : Free accountId (run StickyDbState.step s calls).rows := by
  have hstates : AllStates StickyDbState.step (fun s => Free accountId s.rows) s calls := by
    refine allStates_of_step StickyDbState.step ?_ h (allSteps_of_forall StickyDbState.step hcalls)
    exact fun _ call hfree hcall => hfree.step call hcall
  exact hstates.final

theorem Free.resolution_ne {s : StickyDbState} (h : Free accountId s.rows) (env : StickyEnv) (key kind header : Bytes)
    (hpersisted : (s.resolveStickyAffinity env key kind header).2.fromPersistence = true) :
    (s.resolveStickyAffinity env key kind header).2.accountId ≠ accountId := by
  simp only [StickyDbState.resolveStickyAffinity] at hpersisted ⊢
  split_ifs at hpersisted ⊢
  cases hfound : (s.maybePurgeExpired env).rows.findAccount key env.nowMs with
  | none =>
    rw [hfound] at hpersisted
    cases hpersisted
  | some found =>
    unfold StickySessionTable.findAccount at hfound
    split_ifs at hfound
    obtain ⟨row, hrow, rfl⟩ := Option.map_eq_some_iff.mp (Option.filter_eq_some_iff.mp hfound).1
    have hpurged := rows_maybePurgeExpired (P := Free accountId) (fun _ p hfree => hfree.filter p) h env
    exact hpurged key row (Option.filter_eq_some_iff.mp hrow).1

/-- After an account is marked, no request is sent to it because of an earlier one: not in any run of calls of which
none persists it again, and whatever the clock does. -/
theorem marked_account_not_resolved (s : StickyDbState) (env : StickyEnv) (accountId : Bytes)
    (havailable : env.available = true) (haccount : trimAscii accountId ≠ []) (calls : List (StickyEnv × StickyCall))
    (hcalls : ∀ call ∈ calls, ¬ call.2.Persists (trimAscii accountId)) (later : StickyEnv) (key kind header : Bytes) :
    let s' := run StickyDbState.step (s.markUpstreamAccount env accountId) calls
    (s'.resolveStickyAffinity later key kind header).2.fromPersistence = true →
      (s'.resolveStickyAffinity later key kind header).2.accountId ≠ trimAscii accountId := by
  intro s'
  have hmarked : Free (trimAscii accountId) (s.markUpstreamAccount env accountId).rows := by
    rw [StickyDbState.markUpstreamAccount, if_neg (by simp [havailable, haccount])]
    exact free_purgeForAccount haccount s.rows
  exact (hmarked.run hcalls).resolution_ne later key kind header

def stuckToSeven : StickyDbState := run StickyDbState.step ⟨.empty, 0⟩ (stickyCalls.take 2)

/-- The key of a marked account that is persisted with another account afterwards sticks to that one. -/
theorem marked_account_replaced :
    let s' := run StickyDbState.step (stuckToSeven.markUpstreamAccount { nowMs := 2 } [7])
      [({ nowMs := 3 }, .persistStickyAffinity { stickyKey := [1], accountId := [8] })]
    (s'.resolveStickyAffinity { nowMs := 4 } [1] [] []).2.fromPersistence = true ∧
      (s'.resolveStickyAffinity { nowMs := 4 } [1] [] []).2.accountId ≠ [7] := by
  refine ⟨by decide, ?_⟩
  exact marked_account_not_resolved stuckToSeven { nowMs := 2 } [7] rfl (by decide) _ (by decide) { nowMs := 4 } [1] []
    [] (by decide)

end Marked

section Listing

def kMaxLimit : UInt64 := 2000

def clampedLimit (requested : UInt64) : UInt64 := if requested = 0 then 1 else min requested kMaxLimit

def listStickySessions (rows : StickySessionTable) (limit offset : UInt64) : List ProxyStickySessionRecord :=
  rows.list (clampedLimit limit) offset

theorem filled_step {s : StickyDbState} (h : s.rows.Filled) (call : StickyEnv × StickyCall) :
    (s.step call).rows.Filled :=
  rows_step (P := StickySessionTable.Filled) (fun _ p hfilled => hfilled.filter p) h call
    fun resolution _ nowMs ttlMs => h.upsert resolution.stickyKey resolution.accountId nowMs ttlMs resolution.stickyKind

theorem filled_run {s : StickyDbState} (h : s.rows.Filled) (calls : List (StickyEnv × StickyCall)) :
    (run StickyDbState.step s calls).rows.Filled := by
  have hstates : AllStates StickyDbState.step (fun s => s.rows.Filled) s calls := by
    refine allStates_of_step StickyDbState.step ?_ h (allSteps_of_forall StickyDbState.step fun _ _ => trivial)
    exact fun _ call hfilled _ => filled_step hfilled call
  exact hstates.final

/-- After any run of calls, the pages of one size list every session once, the newest first, where the size is at most
that of the largest page. -/
theorem sessions_listed_once (calls : List (StickyEnv × StickyCall)) (lastCleanupMs : ℤ) (limit : UInt64)
    (hlimit : limit ≠ 0) (hmax : limit ≤ kMaxLimit) (pages : ℕ)
    (hpages : (run StickyDbState.step ⟨.empty, lastCleanupMs⟩ calls).rows.size ≤
      pages * limit.toNat) (hsize : pages * limit.toNat < 2 ^ 63) :
    let rows := (run StickyDbState.step ⟨.empty, lastCleanupMs⟩ calls).rows
    let listed := (List.range pages).flatMap fun i => listStickySessions rows limit (UInt64.ofNat (i * limit.toNat))
    listed.Perm (rows.entries.map StickySessionTable.toRecord) ∧ listed.Pairwise fun a b =>
      b.updatedAtMs < a.updatedAtMs ∨ a.updatedAtMs = b.updatedAtMs ∧ a.sessionKey < b.sessionKey := by
  intro rows listed
  have hfilled : rows.Filled := filled_run StickySessionTable.filled_empty calls
  have hmaxNat : limit.toNat ≤ 2000 := UInt64.le_iff_toNat_le.mp hmax
  have hpage : ∀ i ∈ List.range pages, listStickySessions rows limit (UInt64.ofNat (i * limit.toNat)) =
      ((rows.inListOrder.map StickySessionTable.toRecord).drop (i * limit.toNat)).take limit.toNat := by
    intro i hi
    have hle : i * limit.toNat ≤ pages * limit.toNat := Nat.mul_le_mul_right _ (List.mem_range.mp hi).le
    have hoffset : (UInt64.ofNat (i * limit.toNat)).toNat = i * limit.toNat :=
      UInt64.toNat_ofNat_of_lt' (by change _ < 2 ^ 64; omega)
    have hclamped : clampedLimit limit = limit := by rw [clampedLimit, if_neg hlimit, min_eq_left hmax]
    rw [listStickySessions, hclamped, StickySessionTable.list_of_filled hfilled hlimit (by omega) (by omega), hoffset,
      List.map_take, List.map_drop]
  have hlisted : listed = rows.inListOrder.map StickySessionTable.toRecord := by
    have hlength : (rows.inListOrder.map StickySessionTable.toRecord).length ≤ pages * limit.toNat := by
      rw [List.length_map, (StickySessionTable.perm_inListOrder rows).length_eq]
      exact hpages
    calc listed = (List.range pages).flatMap fun i =>
          ((rows.inListOrder.map StickySessionTable.toRecord).drop (i * limit.toNat)).take limit.toNat :=
          List.flatMap_congr hpage
      _ = rows.inListOrder.map StickySessionTable.toRecord := by
          rw [Paging.flatMap_windows, List.take_of_length_le hlength]
  rw [hlisted]
  exact ⟨(StickySessionTable.perm_inListOrder rows).map _,
    List.pairwise_map.mpr (StickySessionTable.pairwise_inListOrder rows)⟩

theorem stickyCalls_listed :
    let rows := (run StickyDbState.step ⟨.empty, 0⟩ stickyCalls).rows
    let listed := (List.range 2).flatMap fun i => listStickySessions rows 1 (UInt64.ofNat (i * (1 : UInt64).toNat))
    listed.Perm (rows.entries.map StickySessionTable.toRecord) ∧ listed.Pairwise fun a b =>
      b.updatedAtMs < a.updatedAtMs ∨ a.updatedAtMs = b.updatedAtMs ∧ a.sessionKey < b.sessionKey :=
  sessions_listed_once stickyCalls 0 1 (by decide) (by decide) 2 (by decide) (by decide)

end Listing

end Tightrope.Proxy.Session
