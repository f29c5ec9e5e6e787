import Tightrope.Proxy.Session.BridgeIsolation

namespace Tightrope.Proxy.Session

open Bytes Tightrope.Core Db Runs

def purgeAccountContinuity (s : BridgeState) (accountId : Bytes) (db : DbAccess) : BridgeState :=
  if trimAscii accountId = [] ∨ db ≠ .available then s
  else { s with rows := s.rows.purgeForAccount (trimAscii accountId) }

inductive PurgeCall where
  | remember (headers : HeaderMap) (responseId : Option Bytes) (resolvedAccountId recoveryInputJson : Bytes)
      (db : DbAccess) (now : ℤ)
  | inject (body : RequestBody) (headers : HeaderMap) (db : DbAccess) (now : ℤ)
  | replace (body : RequestBody) (headers : HeaderMap) (db : DbAccess) (now : ℤ)
  | markUnusable (accountId : Bytes) (db : DbAccess)
  | markExhausted (accountId status : Bytes) (db : DbAccess)

/-- A bridge with the accounts its ids were remembered for, the ids that the marks have taken back and what the last
lookup put into a request. -/
structure PurgeRun where
  state : BridgeState := {}
  remembered : List (Bytes × Bytes) := []
  barred : List Bytes := []
  given : Option Bytes := none

namespace PurgeRun

def rememberedFor (r : PurgeRun) (accountId : Bytes) : List Bytes :=
  (r.remembered.filter fun pair => pair.2 = accountId).map Prod.fst

def mark (r : PurgeRun) (accountId : Bytes) (db : DbAccess) : PurgeRun :=
  { r with
    state := purgeAccountContinuity r.state accountId db
    barred := if trimAscii accountId = [] ∨ db ≠ .available then r.barred
      else r.barred ++ r.rememberedFor (trimAscii accountId)
    given := none }

def step (r : PurgeRun) : PurgeCall → PurgeRun
  | .remember headers responseId resolved recovery db now =>
    let stored := storedValue headers responseId resolved recovery
    { state := r.state.rememberResponseId headers responseId resolved recovery db now
      remembered := r.remembered ++ (stored.map fun e => (e.responseId, e.accountId)).toList
      barred := r.barred.filter fun id => stored.all fun e => e.responseId ≠ id
      given := none }
  | .inject body headers db now =>
    let result := r.state.injectPreviousResponseId body headers db now
    { r with state := result.1, given := result.2 }
  | .replace body headers db now =>
    let result := r.state.replacePreviousResponseId body headers db now
    { r with state := result.1, given := result.2 }
  | .markUnusable accountId db => r.mark accountId db
  | .markExhausted accountId _ db => r.mark accountId db

/-- No request is given an id that a mark has taken back. -/
def Effective (r : PurgeRun) : Prop := ∀ id, r.given = some id → id ∉ r.barred

def PurgeReaches (r : PurgeRun) (accountId : Bytes) : Prop :=
  (∀ key id, r.state.bridge.held key = some id → id ∉ r.rememberedFor accountId) ∧
    ∀ row ∈ r.state.rows, row.responseId ∈ r.rememberedFor accountId → row.accountId = accountId

def MarksReach (r : PurgeRun) : PurgeCall → Prop
  | .markUnusable accountId db | .markExhausted accountId _ db =>
    trimAscii accountId ≠ [] → db = .available → r.PurgeReaches (trimAscii accountId)
  | _ => True

end PurgeRun

section Knows

variable {s : BridgeState} {id key scope : Bytes} {db : DbAccess} {now : ℤ}

def Knows (s : BridgeState) (id : Bytes) : Prop :=
  (∃ key, s.bridge.held key = some id) ∨ ∃ row ∈ s.rows, row.responseId = id

theorem Knows.of_purgeStale (h : Knows (s.purgeStale now) id) : Knows s id := by
  obtain ⟨key, hheld⟩ | hrow := h
  · exact .inl ⟨key, SessionBridge.held_of_purgeStale hheld⟩
  · exact .inr hrow

theorem Knows.of_maybePurgeExpired (h : Knows (s.maybePurgeExpired db now) id) : Knows s id := by
  unfold BridgeState.maybePurgeExpired at h
  split_ifs at h
  · exact h
  · exact h
  · obtain hheld | ⟨row, hrow, hid⟩ := h
    · exact .inl hheld
    · exact .inr ⟨row, ResponseContinuityTable.mem_of_purgeExpired hrow, hid⟩
  · exact h

theorem Knows.of_upsert {response : Bytes} {rows : ResponseContinuityTable} {lastCleanupMs : ℤ}
    (h : Knows ⟨s.bridge.upsert key response now, rows, lastCleanupMs⟩ id) :
    id = response ∨ Knows ⟨s.bridge, rows, lastCleanupMs⟩ id := by
  obtain ⟨other, hheld⟩ | hrow := h
  · change (s.bridge.upsert key response now).held other = some id at hheld
    rw [SessionBridge.held_upsert] at hheld
    split_ifs at hheld
    · exact .inl (Option.some.inj hheld).symm
    · exact .inr (.inl ⟨other, hheld⟩)
  · exact .inr (.inr hrow)

theorem Knows.of_upsertRow {response account recovery : Bytes} {ttl : ℤ}
    (h : Knows { s with rows := s.rows.upsert key scope response account now ttl recovery } id) :
    id = response ∨ Knows s id := by
  obtain hheld | ⟨row, hrow, hid⟩ := h
  · exact .inr (.inl hheld)
  · unfold ResponseContinuityTable.upsert at hrow
    split_ifs at hrow
    · exact .inr (.inr ⟨row, hrow, hid⟩)
    · obtain hold | rfl | ⟨old, hold, -, rfl⟩ := ResponseContinuityTable.mem_insertOrUpdate hrow
      · exact .inr (.inr ⟨row, hold, hid⟩)
      · exact .inl hid.symm
      -- An update keeps the response id of the row.
      · exact .inr (.inr ⟨old, hold, hid⟩)

theorem Knows.of_storeResponse {response account recovery : Bytes}
    (h : Knows (s.storeResponse key scope response account recovery db now) id) : id = response ∨ Knows s id := by
  have hstored := Knows.of_maybePurgeExpired h
  have hbridge : Knows { s with bridge := (s.bridge.upsert (scopedBridgeKey key scope) response now).purgeStale now }
      id →
      id = response ∨ Knows s id := by
    intro hknows
    exact Knows.of_upsert (Knows.of_purgeStale (s := { s with bridge := _ }) hknows)
  split_ifs at hstored
  · obtain hid | hknows := Knows.of_upsertRow
      (s := { s with bridge := (s.bridge.upsert (scopedBridgeKey key scope) response now).purgeStale now }) hstored
    · exact .inl hid
    · exact hbridge hknows
  · exact hbridge hstored

theorem knows_of_findRow {row : ProxyResponseContinuityRecord} (h : s.findRow db key scope now = some row) :
    Knows s row.responseId := by
  unfold BridgeState.findRow at h
  split_ifs at h
  exact .inr ⟨row, (ResponseContinuityTable.mem_of_find h).1, rfl⟩

theorem knows_bridgedPreviousResponseId :
    (Knows (s.bridgedPreviousResponseId key scope db now).1 id → Knows s id) ∧
      ((s.bridgedPreviousResponseId key scope db now).2 = some id → Knows s id) := by
  unfold BridgeState.bridgedPreviousResponseId
  split
  · rename_i existing hexisting
    refine ⟨Knows.of_purgeStale, ?_⟩
    intro hid
    obtain rfl := Option.some.inj hid
    exact .inl ⟨_, SessionBridge.held_of_find (Option.filter_eq_some_iff.mp hexisting).1⟩
  · unfold BridgeState.restoreFromRows
    split
    · rename_i persisted hpersisted
      have hknown := knows_of_findRow hpersisted
      split_ifs
      · exact ⟨fun h => h.of_purgeStale.of_maybePurgeExpired, by simp⟩
      · constructor
        · intro h
          obtain rfl | hknows := Knows.of_upsert h.of_purgeStale.of_maybePurgeExpired
          · exact hknown
          · exact hknows
        · intro hid
          exact Option.some.inj hid ▸ hknown
    · exact ⟨fun h => h.of_purgeStale.of_maybePurgeExpired, by simp⟩

theorem ReadsBridge.knows {headers : HeaderMap} {result : BridgeState × Option Bytes}
    (hreads : ReadsBridge s headers db now result) :
    (Knows result.1 id → Knows s id) ∧ (result.2 = some id → Knows s id) := by
  obtain rfl | ⟨key, -, hstate, hanswer⟩ := hreads
  · exact ⟨fun h => h, fun hid => by cases hid⟩
  · rw [hstate]
    exact ⟨knows_bridgedPreviousResponseId.1, fun hid => knows_bridgedPreviousResponseId.2 (hanswer id hid)⟩

end Knows

namespace PurgeRun

variable {r : PurgeRun} {id accountId : Bytes} {db : DbAccess}

def Purged (r : PurgeRun) : Prop := (∀ id ∈ r.barred, ¬ Knows r.state id) ∧ r.Effective

theorem Purged.remember (h : r.Purged) (headers : HeaderMap) (responseId : Option Bytes) (resolved recovery : Bytes)
    (now : ℤ) : (r.step (.remember headers responseId resolved recovery db now)).Purged := by
  refine ⟨?_, fun id hid => by cases hid⟩
  intro id hid hknows
  obtain ⟨hbarred, hfresh⟩ := List.mem_filter.mp hid
  change Knows (r.state.rememberResponseId headers responseId resolved recovery db now) id at hknows
  cases hstored : storedValue headers responseId resolved recovery with
  | none =>
    rw [rememberResponseId_of_not_stored hstored] at hknows
    exact h.1 id hbarred hknows
  | some e =>
    rw [(mem_storedValue r.state db now hstored).2] at hknows
    obtain rfl | hold := Knows.of_storeResponse hknows
    · simp [hstored] at hfresh
    · exact h.1 id hbarred hold

theorem Purged.lookup (h : r.Purged) {headers : HeaderMap} {now : ℤ} {result : BridgeState × Option Bytes}
    (hreads : ReadsBridge r.state headers db now result) :
    ({ r with state := result.1, given := result.2 } : PurgeRun).Purged := by
  constructor
  · intro id hid hknows
    exact h.1 id hid (hreads.knows.1 hknows)
  · intro id hgiven hid
    exact h.1 id hid (hreads.knows.2 hgiven)

theorem Purged.mark (h : r.Purged)
    (hreach : trimAscii accountId ≠ [] → db = .available → r.PurgeReaches (trimAscii accountId)) :
    (r.mark accountId db).Purged := by
  refine ⟨?_, fun id hid => by cases hid⟩
  unfold PurgeRun.mark purgeAccountContinuity
  split_ifs with hskip
  · exact h.1
  · obtain ⟨hempty, hdb⟩ := not_or.mp hskip
    obtain ⟨hmemory, hrows⟩ := hreach hempty (not_not.mp hdb)
    intro id hid hknows
    obtain hheld | ⟨row, hrow, hrowId⟩ := hknows
    · obtain hold | hnew := List.mem_append.mp hid
      · exact h.1 id hold (.inl hheld)
      · obtain ⟨key, hkey⟩ := hheld
        exact hmemory key id hkey hnew
    · obtain hold | hnew := List.mem_append.mp hid
      · exact h.1 id hold (.inr ⟨row, ResponseContinuityTable.mem_of_purgeForAccount hrow, hrowId⟩)
      · have hkept := hrow
        simp only [ResponseContinuityTable.purgeForAccount, hempty, ↓reduceIte, List.mem_filter,
          decide_eq_true_eq] at hkept
        exact hkept.2 (hrows row hkept.1 (hrowId ▸ hnew))

theorem Purged.step (h : r.Purged) (c : PurgeCall) (hreach : r.MarksReach c) : (r.step c).Purged := by
  cases c with
  | remember headers responseId resolved recovery db now => exact h.remember headers responseId resolved recovery now
  | inject body headers db now => exact h.lookup (readsBridge_inject r.state body headers db now)
  | replace body headers db now => exact h.lookup (readsBridge_replace r.state body headers db now)
  | markUnusable accountId db => exact h.mark hreach
  | markExhausted accountId _ db => exact h.mark hreach

theorem purgeReaches_iff_entries : r.PurgeReaches accountId ↔
    (∀ e ∈ r.state.bridge.sessions.entries, e.2.upstreamSessionId ∉ r.rememberedFor accountId) ∧
      ∀ row ∈ r.state.rows, row.responseId ∈ r.rememberedFor accountId → row.accountId = accountId := by
  refine and_congr_left fun _ => ⟨?_, ?_⟩
  · rintro h ⟨key, session⟩ hmem
    apply h key
    rw [SessionBridge.held, FlatMap.mem_entries.mp hmem]
    rfl
  · intro h key id hheld
    obtain ⟨session, hsession, rfl⟩ := Option.map_eq_some_iff.mp hheld
    exact h (key, session) (FlatMap.mem_entries.mpr hsession)

instance (r : PurgeRun) (accountId : Bytes) : Decidable (r.PurgeReaches accountId) :=
  decidable_of_iff' _ purgeReaches_iff_entries

instance (r : PurgeRun) : ∀ c, Decidable (r.MarksReach c)
  | .remember .. | .inject .. | .replace .. => .isTrue trivial
  | .markUnusable .. | .markExhausted .. => inferInstanceAs (Decidable (_ → _ → _))

/-- In a run whose marks find none of their account's ids in memory and every row of one under the account, no request
is given an id that a mark has taken back. -/
theorem purge_effective_when_memory_is_clear {start : PurgeRun} (hbarred : start.barred = []) {calls : List PurgeCall}
    (hmarks : AllSteps step MarksReach start calls) : AllStates step Effective start calls := by
  have hstart : start.Purged := by
    constructor
    · intro id hid
      rw [hbarred] at hid
      cases hid
    · intro id _ hid
      rw [hbarred] at hid
      cases hid
  apply AllStates.mono step (Q := Purged) fun r h => h.2
  exact allStates_of_step step (fun r c h hreach => h.step c hreach) hstart hmarks

def sampleHeaders : HeaderMap := [(sessionIdName, ofString "s")]

def rememberSample (responseId accountId : Bytes) (now : ℤ) : PurgeCall :=
  .remember sampleHeaders (some responseId) accountId [] .available now

theorem purge_reaches_a_replaced_response :
    AllStates step Effective {} [rememberSample [114] [97] 1, rememberSample [115] [98] 2,
      .markUnusable [97] .available, .inject (.object none) sampleHeaders .available 3] :=
  purge_effective_when_memory_is_clear rfl (by decide)

theorem purged_response_comes_back_from_memory :
    ¬ AllStates step Effective {} [rememberSample [114] [97] 1, .markUnusable [97] .available,
      .inject (.object none) sampleHeaders .available 2] := by
  rintro ⟨-, -, -, h⟩
  exact h [114] (by decide) (by decide)

end PurgeRun

end Tightrope.Proxy.Session
