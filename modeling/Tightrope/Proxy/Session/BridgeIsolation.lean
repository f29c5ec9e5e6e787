import Tightrope.Proxy.Session.HttpBridge

namespace Tightrope.Proxy.Session

open Bytes Tightrope.Core Db Runs

section Keys

variable {headers : HeaderMap} {key key' s t codex client turn : Bytes}

structure ClientKey (key : Bytes) : Prop where
  trimmed : Trimmed key
  ne_nil : key ≠ []

theorem trimmed_append {a b : Bytes} (ha : a ≠ []) (hb : b ≠ []) (hhead : ∀ c, a.head? = some c → isSpace c = false)
    (hlast : ∀ c, b.getLast? = some c → isSpace c = false) : Trimmed (a ++ b) := by
  constructor
  · intro c hc
    apply hhead
    rwa [List.head?_append_of_ne_nil _ ha] at hc
  · intro c hc
    apply hlast
    rwa [List.getLast?_append_of_ne_nil _ hb] at hc

theorem clientKey_continuityKey (hcodex : Trimmed codex) (hclient : Trimmed client) (hturn : Trimmed turn)
    (h : continuityKey codex client turn = some key) : ClientKey key := by
  unfold continuityKey at h
  split_ifs at h with hturnSet hboth heq hcodexSet hclientSet
  all_goals obtain rfl := Option.some.inj h
  · exact ⟨hturn, hturnSet⟩
  · exact ⟨hcodex, hboth.1⟩
  · refine ⟨trimmed_append ?_ hboth.2 ?_ hclient.2, by simp [hboth.2]⟩
    · simp [hboth.1]
    · intro c hc
      obtain rfl : 99 = c := Option.some.inj hc
      decide
  · exact ⟨hcodex, hcodexSet⟩
  · exact ⟨hclient, hclientSet⟩

theorem clientKey_continuityKeyFromHeaders (h : continuityKeyFromHeaders headers = some key) : ClientKey key :=
  clientKey_continuityKey (headers.trimmed_findCaseInsensitive _) (headers.trimmed_findCaseInsensitive _)
    (headers.trimmed_findCaseInsensitive _) h

def scopeHeaders (key scope : Bytes) : HeaderMap := [(turnStateName, key), (apiKeyIdName, scope)]

theorem continuityKeyFromHeaders_scopeHeaders (hkey : ClientKey key) :
    continuityKeyFromHeaders (scopeHeaders key s) = some key := by
  have hturn : HeaderMap.findCaseInsensitive (scopeHeaders key s) turnStateName = key := by
    rw [scopeHeaders, HeaderMap.findCaseInsensitive_cons, if_pos (by decide), trimAscii_eq_self.mpr hkey.trimmed]
  rw [continuityKeyFromHeaders, continuityKey, hturn, if_pos hkey.ne_nil]

theorem apiKeyScopeFromHeaders_scopeHeaders (hs : Trimmed s) : apiKeyScopeFromHeaders (scopeHeaders key s) = s := by
  rw [apiKeyScopeFromHeaders, scopeHeaders, HeaderMap.findCaseInsensitive_cons, if_neg (by decide),
    HeaderMap.findCaseInsensitive_cons, if_pos (by decide), trimAscii_eq_self.mpr hs]

def Extends (s t : Bytes) : Prop := ∃ rest, t = s ++ [bar] ++ rest ∧ ∀ c, rest.head? = some c → isSpace c = false

structure Separate (s t : Bytes) : Prop where
  left_ne_nil : s ≠ []
  right_ne_nil : t ≠ []
  not_extends : ¬ Extends s t
  not_extended : ¬ Extends t s

theorem Separate.symm (h : Separate s t) : Separate t s :=
  ⟨h.right_ne_nil, h.left_ne_nil, h.not_extended, h.not_extends⟩

theorem trimmed_after_bar {rest : Bytes} (hrest : ∀ c, rest.head? = some c → isSpace c = false) (hkey : ClientKey key) :
    ClientKey (rest ++ [bar] ++ key) := by
  refine ⟨trimmed_append (by simp) hkey.ne_nil ?_ hkey.trimmed.2, by simp⟩
  intro c hc
  cases rest with
  | nil =>
    obtain rfl : bar = c := by simpa using hc
    decide
  | cons head tail => exact hrest c (by simpa using hc)

theorem head_after_separator {a rest k : Bytes} (hk : ClientKey k) (h : k = rest ++ [bar] ++ a) :
    ∀ c, rest.head? = some c → isSpace c = false := by
  intro c hc
  apply hk.trimmed.1
  cases rest with
  | nil => cases hc
  | cons head tail =>
    rw [h]
    simpa using hc

theorem append_bar_cases {a b k k' : Bytes} (h : a ++ [bar] ++ k = b ++ [bar] ++ k') :
    (a = b ∧ k = k') ∨ (∃ rest, b = a ++ [bar] ++ rest ∧ k = rest ++ [bar] ++ k') ∨
      ∃ rest, a = b ++ [bar] ++ rest ∧ k' = rest ++ [bar] ++ k := by
  induction a generalizing b with
  | nil =>
    cases b with
    | nil => exact .inl ⟨rfl, by simpa using h⟩
    | cons c b =>
      obtain ⟨rfl, hk⟩ : bar = c ∧ k = b ++ [bar] ++ k' := by simpa using h
      exact .inr (.inl ⟨b, rfl, hk⟩)
  | cons c a ih =>
    cases b with
    | nil =>
      obtain ⟨rfl, hk⟩ : c = bar ∧ a ++ [bar] ++ k = k' := by simpa using h
      exact .inr (.inr ⟨a, rfl, hk.symm⟩)
    | cons d b =>
      obtain ⟨rfl, htail⟩ : c = d ∧ a ++ [bar] ++ k = b ++ [bar] ++ k' := by simpa using h
      obtain ⟨rfl, hk⟩ | ⟨rest, rfl, hk⟩ | ⟨rest, rfl, hk⟩ := ih htail
      · exact .inl ⟨rfl, hk⟩
      · exact .inr (.inl ⟨rest, rfl, hk⟩)
      · exact .inr (.inr ⟨rest, rfl, hk⟩)

theorem scopedBridgeKey_ne_of_separate (hsep : Separate s t) (hst : s ≠ t) (hkey : ClientKey key)
    (hkey' : ClientKey key') : scopedBridgeKey key s ≠ scopedBridgeKey key' t := by
  intro h
  rw [scopedBridgeKey, scopedBridgeKey, if_neg hsep.left_ne_nil, if_neg hsep.right_ne_nil] at h
  obtain ⟨rfl, -⟩ | ⟨rest, hext, hk⟩ | ⟨rest, hext, hk⟩ := append_bar_cases
    (show s ++ [bar] ++ key = t ++ [bar] ++ key' by simpa using h)
  · exact hst rfl
  · exact hsep.not_extends ⟨rest, hext, head_after_separator hkey hk⟩
  · exact hsep.not_extended ⟨rest, hext, head_after_separator hkey' hk⟩

theorem clientKey_scopedBridgeKey (hkey : ClientKey key) : ClientKey (scopedBridgeKey key s) := by
  unfold scopedBridgeKey
  split_ifs
  · exact hkey
  · refine ⟨trimmed_append (by simp) hkey.ne_nil ?_ hkey.trimmed.2, by simp⟩
    intro c hc
    obtain rfl : 97 = c := Option.some.inj hc
    decide

theorem exists_scopedBridgeKey_eq (hst : s ≠ t) (hsep : ¬ Separate s t) :
    ∃ key key', ClientKey key ∧ ClientKey key' ∧ scopedBridgeKey key s = scopedBridgeKey key' t := by
  have htrimmed : Trimmed [97] := by decide
  have hletter : ClientKey [97] := ⟨htrimmed, by decide⟩
  by_cases hs : s = []
  · subst hs
    exact ⟨scopedBridgeKey [97] t, [97], clientKey_scopedBridgeKey hletter, hletter, if_pos rfl⟩
  by_cases ht : t = []
  · subst ht
    exact ⟨[97], scopedBridgeKey [97] s, hletter, clientKey_scopedBridgeKey hletter, (if_pos rfl).symm⟩
  by_cases hext : Extends s t
  · obtain ⟨rest, rfl, hrest⟩ := hext
    refine ⟨rest ++ [bar] ++ [97], [97], trimmed_after_bar hrest hletter, hletter, ?_⟩
    rw [scopedBridgeKey, scopedBridgeKey, if_neg hs, if_neg ht]
    simp
  · obtain ⟨rest, rfl, hrest⟩ : Extends t s := by
      by_contra hext'
      exact hsep ⟨hs, ht, hext, hext'⟩
    refine ⟨[97], rest ++ [bar] ++ [97], hletter, trimmed_after_bar hrest hletter, ?_⟩
    rw [scopedBridgeKey, scopedBridgeKey, if_neg hs, if_neg ht]
    simp

end Keys

section Recording

structure StoredValue where
  scope : Bytes
  key : Bytes
  responseId : Bytes
  accountId : Bytes
  recoveryInputJson : Bytes
  deriving DecidableEq

def StoredValue.Wrote (e : StoredValue) (row : ProxyResponseContinuityRecord) : Prop :=
  e.scope = row.apiKeyScope ∧ e.key = row.continuityKey ∧ e.responseId = row.responseId ∧ e.accountId = row.accountId

def storedValue (headers : HeaderMap) (responseId : Option Bytes) (resolvedAccountId recoveryInputJson : Bytes) :
    Option StoredValue :=
  match responseId, continuityKeyFromHeaders headers with
  | some response, some key =>
    if response = [] ∨ key = [] then none
    else some ⟨apiKeyScopeFromHeaders headers, key, response, rememberedAccountId headers resolvedAccountId,
      recoveryInputJson⟩
  | _, _ => none

inductive BridgeCall where
  | remember (headers : HeaderMap) (responseId : Option Bytes) (resolvedAccountId recoveryInputJson : Bytes)
      (db : DbAccess) (now : ℤ)
  | inject (body : RequestBody) (headers : HeaderMap) (db : DbAccess) (now : ℤ)
  | replace (body : RequestBody) (headers : HeaderMap) (db : DbAccess) (now : ℤ)
  | preferredAccount (body : RequestBody) (headers : HeaderMap) (db : DbAccess) (now : ℤ)
  | continuityAccount (headers : HeaderMap) (db : DbAccess) (now : ℤ)
  | responseContext (previousResponseId : Bytes) (headers : HeaderMap) (db : DbAccess) (now : ℤ)
  | purgeForAccount (accountId : Bytes)
  | restart

inductive BridgeAnswer where
  | previousResponse (id : Bytes)
  | account (id : Bytes)
  | context (record : ProxyResponseContinuityRecord)

def serve (s : BridgeState) : BridgeCall → BridgeState × Option BridgeAnswer
  | .remember headers responseId resolved recovery db now =>
    (s.rememberResponseId headers responseId resolved recovery db now, none)
  | .inject body headers db now =>
    (s.injectPreviousResponseId body headers db now).map id (Option.map .previousResponse)
  | .replace body headers db now =>
    (s.replacePreviousResponseId body headers db now).map id (Option.map .previousResponse)
  | .preferredAccount body headers db now => (s.preferredAccountId body headers db now).map id (Option.map .account)
  | .continuityAccount headers db now => (s.continuityAccountId headers db now).map id (Option.map .account)
  | .responseContext previous headers db now =>
    (s.responseContextRecord previous headers db now).map id (Option.map .context)
  | .purgeForAccount account => ({ s with rows := s.rows.purgeForAccount account }, none)
  | .restart => (s.restart, none)

def BridgeCall.stored : BridgeCall → List StoredValue
  | .remember headers responseId resolved recovery _ _ => (storedValue headers responseId resolved recovery).toList
  | _ => []

def BridgeCall.lookupScope : BridgeCall → Option Bytes
  | .inject _ headers _ _ | .replace _ headers _ _ | .preferredAccount _ headers _ _ | .continuityAccount headers _ _ |
    .responseContext _ headers _ _ => some (apiKeyScopeFromHeaders headers)
  | .remember .. | .purgeForAccount _ | .restart => none

structure RecordedBridge where
  state : BridgeState := {}
  stored : List StoredValue := []

def RecordedBridge.step (r : RecordedBridge) (c : BridgeCall) : RecordedBridge :=
  ⟨(serve r.state c).1, r.stored ++ c.stored⟩

def BridgeAnswer.FromOutside (t : Bytes) (stored : List StoredValue) : BridgeAnswer → Prop
  | .previousResponse id => ∃ e ∈ stored, e.scope ≠ t ∧ e.responseId = id
  | .account id => ∃ e ∈ stored, e.scope ≠ t ∧ e.accountId = id
  | .context record => (∃ e ∈ stored, e.scope ≠ t ∧ e.Wrote record) ∧
    (record.recoveryInputJson = [] ∨ ∃ e ∈ stored, e.scope ≠ t ∧ e.recoveryInputJson = record.recoveryInputJson)

def Isolates (s t : Bytes) (r : RecordedBridge) (c : BridgeCall) : Prop :=
  c.lookupScope = some s → ∀ answer, (serve r.state c).2 = some answer → answer.FromOutside t r.stored

def RowTraced (stored : List StoredValue) (row : ProxyResponseContinuityRecord) : Prop :=
  (∃ e ∈ stored, e.Wrote row) ∧ (row.recoveryInputJson = [] ∨
    ∃ e ∈ stored, e.scope = row.apiKeyScope ∧ e.recoveryInputJson = row.recoveryInputJson)

structure Traced (stored : List StoredValue) (s : BridgeState) : Prop where
  keys : ∀ e ∈ stored, ClientKey e.key
  bridge : ∀ key id, s.bridge.held key = some id →
    ∃ e ∈ stored, scopedBridgeKey e.key e.scope = key ∧ e.responseId = id
  rows : ∀ row ∈ s.rows, RowTraced stored row

end Recording

section Tracing

variable {stored : List StoredValue} {s : BridgeState} {headers : HeaderMap} {e : StoredValue}
  {row : ProxyResponseContinuityRecord} {key scope : Bytes} {db : DbAccess} {now : ℤ}

theorem RowTraced.mono {stored' : List StoredValue} (h : RowTraced stored row) (hsub : stored ⊆ stored') :
    RowTraced stored' row := by
  obtain ⟨⟨e, he, hwrote⟩, hrecovery⟩ := h
  refine ⟨⟨e, hsub he, hwrote⟩, hrecovery.imp id ?_⟩
  rintro ⟨e', he', hscope⟩
  exact ⟨e', hsub he', hscope⟩

theorem Traced.mono {stored' : List StoredValue} (h : Traced stored s) (hsub : stored ⊆ stored')
    (hkeys : ∀ e ∈ stored', ClientKey e.key) : Traced stored' s where
  keys := hkeys
  bridge key id hheld := by
    obtain ⟨e, he, hkey⟩ := h.bridge key id hheld
    exact ⟨e, hsub he, hkey⟩
  rows row hrow := (h.rows row hrow).mono hsub

theorem Traced.purgeStale (h : Traced stored s) : Traced stored (s.purgeStale now) where
  keys := h.keys
  bridge key id hheld := h.bridge key id (SessionBridge.held_of_purgeStale hheld)
  rows := h.rows

theorem Traced.withRows (h : Traced stored s) {rows : ResponseContinuityTable}
    (hrows : ∀ row ∈ rows, RowTraced stored row) : Traced stored { s with rows := rows } where
  keys := h.keys
  bridge := h.bridge
  rows := hrows

theorem Traced.maybePurgeExpired (h : Traced stored s) : Traced stored (s.maybePurgeExpired db now) := by
  unfold BridgeState.maybePurgeExpired
  split_ifs
  · exact h
  · exact h
  · refine ⟨h.keys, h.bridge, ?_⟩
    intro row hrow
    exact h.rows row (ResponseContinuityTable.mem_of_purgeExpired hrow)
  · exact ⟨h.keys, h.bridge, h.rows⟩

theorem Traced.upsert (h : Traced stored s) (he : e ∈ stored) :
    Traced stored { s with bridge := s.bridge.upsert (scopedBridgeKey e.key e.scope) e.responseId now } where
  keys := h.keys
  bridge key id hheld := by
    rw [SessionBridge.held_upsert] at hheld
    split_ifs at hheld with hkey
    · exact ⟨e, he, hkey.symm, Option.some.inj hheld⟩
    · exact h.bridge key id hheld
  rows := h.rows

theorem RowTraced.update {excluded : ProxyResponseContinuityRecord} (hold : RowTraced stored row)
    (hnew : RowTraced stored excluded) (hsame : row.SamePrimaryKey excluded) :
    RowTraced stored (row.update excluded) := by
  obtain ⟨hresponse, hscope⟩ := hsame
  obtain ⟨⟨e, he, hwrote⟩, hrecovery⟩ := hnew
  refine ⟨⟨e, he, hwrote.1.trans hscope.symm, hwrote.2.1, hwrote.2.2.1.trans hresponse.symm, hwrote.2.2.2⟩, ?_⟩
  by_cases hempty : excluded.recoveryInputJson = []
  · simp only [ProxyResponseContinuityRecord.update, hempty, ne_eq, not_true_eq_false, ↓reduceIte]
    exact hold.2
  · simp only [ProxyResponseContinuityRecord.update, ne_eq, hempty, not_false_eq_true, ↓reduceIte, hscope]
    exact .inr (hrecovery.resolve_left hempty)

theorem Traced.upsertRow (h : Traced stored s) (he : e ∈ stored) {ttl : ℤ} :
    Traced stored
      { s with rows := s.rows.upsert e.key e.scope e.responseId e.accountId now ttl e.recoveryInputJson } := by
  apply h.withRows
  intro row hrow
  unfold ResponseContinuityTable.upsert at hrow
  split_ifs at hrow
  · exact h.rows row hrow
  · have hnew : ∀ expires, RowTraced stored
        ⟨e.key, e.scope, e.responseId, e.accountId, e.recoveryInputJson, now, expires⟩ :=
      fun expires => ⟨⟨e, he, rfl, rfl, rfl, rfl⟩, .inr ⟨e, he, rfl, rfl⟩⟩
    obtain hold | rfl | ⟨old, hold, hsame, rfl⟩ := ResponseContinuityTable.mem_insertOrUpdate hrow
    · exact h.rows row hold
    · exact hnew _
    · exact (h.rows old hold).update (hnew _) hsame

theorem Traced.storeResponse (h : Traced stored s) (he : e ∈ stored) :
    Traced stored (s.storeResponse e.key e.scope e.responseId e.accountId e.recoveryInputJson db now) := by
  apply Traced.maybePurgeExpired
  have hstored : Traced stored { s with
      bridge := (s.bridge.upsert (scopedBridgeKey e.key e.scope) e.responseId now).purgeStale now } :=
    (h.upsert he).purgeStale
  split_ifs
  · exact hstored.upsertRow he
  · exact hstored.withRows h.rows

theorem Traced.findRow (h : Traced stored s) (hfound : s.findRow db key scope now = some row) :
    (∃ e ∈ stored, e.Wrote row ∧ e.key = key ∧ e.scope = scope) ∧ row.apiKeyScope = scope := by
  unfold BridgeState.findRow at hfound
  split_ifs at hfound
  obtain ⟨hmem, rfl, rfl⟩ := ResponseContinuityTable.mem_of_find hfound
  obtain ⟨e, he, hwrote⟩ := (h.rows row hmem).1
  exact ⟨⟨e, he, hwrote, hwrote.2.1, hwrote.1⟩, rfl⟩

theorem Traced.bridgedPreviousResponseId (h : Traced stored s) :
    Traced stored (s.bridgedPreviousResponseId key scope db now).1 ∧
      ∀ id, (s.bridgedPreviousResponseId key scope db now).2 = some id →
        ∃ e ∈ stored, scopedBridgeKey e.key e.scope = scopedBridgeKey key scope ∧ e.responseId = id := by
  unfold BridgeState.bridgedPreviousResponseId
  split
  · rename_i existing hexisting
    refine ⟨h.purgeStale, ?_⟩
    intro id hid
    obtain rfl := Option.some.inj hid
    exact h.bridge _ _ (SessionBridge.held_of_find (Option.filter_eq_some_iff.mp hexisting).1)
  · unfold BridgeState.restoreFromRows
    split
    · rename_i persisted hpersisted
      obtain ⟨⟨e, he, hwrote, rfl, rfl⟩, -⟩ := h.findRow hpersisted
      split_ifs
      · exact ⟨h.maybePurgeExpired.purgeStale, by simp⟩
      · rw [← hwrote.2.2.1]
        refine ⟨(h.upsert he).maybePurgeExpired.purgeStale, ?_⟩
        intro id hid
        exact ⟨e, he, rfl, Option.some.inj hid⟩
    · exact ⟨h.maybePurgeExpired.purgeStale, by simp⟩

theorem mem_storedValue (s : BridgeState) (db : DbAccess) (now : ℤ) {responseId : Option Bytes}
    {resolved recovery : Bytes} (h : storedValue headers responseId resolved recovery = some e) :
    ClientKey e.key ∧ s.rememberResponseId headers responseId resolved recovery db now =
      s.storeResponse e.key e.scope e.responseId e.accountId e.recoveryInputJson db now := by
  cases responseId with
  | none => cases h
  | some response =>
    cases hkey : continuityKeyFromHeaders headers with
    | none =>
      simp only [storedValue, hkey] at h
      cases h
    | some key =>
      simp only [storedValue, hkey] at h
      split_ifs at h with hempty
      obtain rfl := Option.some.inj h
      refine ⟨clientKey_continuityKeyFromHeaders hkey, ?_⟩
      simp only [BridgeState.rememberResponseId, hkey, hempty, ↓reduceIte]

theorem rememberResponseId_of_not_stored {responseId : Option Bytes} {resolved recovery : Bytes}
    (h : storedValue headers responseId resolved recovery = none) :
    s.rememberResponseId headers responseId resolved recovery db now = s := by
  cases responseId with
  | none => rfl
  | some response =>
    cases hkey : continuityKeyFromHeaders headers with
    | none => simp only [BridgeState.rememberResponseId, hkey]
    | some key =>
      simp only [storedValue, hkey] at h
      split_ifs at h with hempty
      simp only [BridgeState.rememberResponseId, hkey, hempty, ↓reduceIte]

end Tracing

section Lookups

variable (s : BridgeState) (body : RequestBody) (headers : HeaderMap) (db : DbAccess) (now : ℤ)

def ReadsBridge (result : BridgeState × Option Bytes) : Prop :=
  result = (s, none) ∨ ∃ key, continuityKeyFromHeaders headers = some key ∧
    result.1 = (s.bridgedPreviousResponseId key (apiKeyScopeFromHeaders headers) db now).1 ∧
    ∀ id, result.2 = some id → (s.bridgedPreviousResponseId key (apiKeyScopeFromHeaders headers) db now).2 = some id

def ReadsAccount (result : BridgeState × Option Bytes) : Prop :=
  result = (s, none) ∨ ∃ key, result.1 = s.maybePurgeExpired db now ∧ ∀ id, result.2 = some id →
    ∃ row, s.findRow db key (apiKeyScopeFromHeaders headers) now = some row ∧ row.accountId = id

theorem readsBridge_inject : ReadsBridge s headers db now (s.injectPreviousResponseId body headers db now) := by
  unfold BridgeState.injectPreviousResponseId
  split
  · rename_i key hprevious hkey
    split_ifs
    · exact .inl rfl
    · exact .inr ⟨key, hkey, rfl, fun id hid => by simp at hid⟩
    · exact .inr ⟨key, hkey, rfl, fun id hid => hid⟩
  · exact .inl rfl

theorem readsBridge_replace : ReadsBridge s headers db now (s.replacePreviousResponseId body headers db now) := by
  unfold BridgeState.replacePreviousResponseId
  split
  · rename_i existing key hprevious hkey
    split_ifs
    · exact .inl rfl
    · exact .inr ⟨key, hkey, rfl, fun id hid => (Option.filter_eq_some_iff.mp hid).1⟩
  · exact .inl rfl

theorem exists_of_filter_map {p : ProxyResponseContinuityRecord → Bool} {row : Option ProxyResponseContinuityRecord}
    {id : Bytes} (h : (row.filter p).map (·.accountId) = some id) :
    ∃ found, row = some found ∧ found.accountId = id := by
  obtain ⟨found, hfound, hid⟩ := Option.map_eq_some_iff.mp h
  exact ⟨found, (Option.filter_eq_some_iff.mp hfound).1, hid⟩

theorem readsAccount_preferred : ReadsAccount s headers db now (s.preferredAccountId body headers db now) := by
  unfold BridgeState.preferredAccountId
  split
  · rename_i previous key hprevious hkey
    split_ifs
    · exact .inl rfl
    · exact .inr ⟨key, rfl, fun id hid => exists_of_filter_map hid⟩
  · exact .inl rfl

theorem readsAccount_continuity : ReadsAccount s headers db now (s.continuityAccountId headers db now) := by
  unfold BridgeState.continuityAccountId
  split
  · rename_i key hkey
    split_ifs
    · exact .inl rfl
    · exact .inr ⟨key, rfl, fun id hid => exists_of_filter_map hid⟩
  · exact .inl rfl

theorem responseContextRecord_cases (previous : Bytes) :
    s.responseContextRecord previous headers db now = (s, none) ∨
    (s.responseContextRecord previous headers db now).1 = s.maybePurgeExpired db now ∧
      ∀ row, (s.responseContextRecord previous headers db now).2 = some row →
        s.findRowByResponseId db previous (apiKeyScopeFromHeaders headers) now = some row := by
  unfold BridgeState.responseContextRecord
  split
  · split_ifs
    · exact .inl rfl
    · exact .inr ⟨rfl, fun row hrow => (Option.filter_eq_some_iff.mp hrow).1⟩
  · exact .inl rfl

variable {s headers db now} {stored : List StoredValue} {result : BridgeState × Option Bytes} {t : Bytes}

theorem ReadsBridge.traced (hreads : ReadsBridge s headers db now result) (h : Traced stored s) :
    Traced stored result.1 := by
  obtain rfl | ⟨key, -, heq, -⟩ := hreads
  · exact h
  · rw [heq]
    exact h.bridgedPreviousResponseId.1

theorem ReadsAccount.traced (hreads : ReadsAccount s headers db now result) (h : Traced stored s) :
    Traced stored result.1 := by
  obtain rfl | ⟨key, heq, -⟩ := hreads
  · exact h
  · rw [heq]
    exact h.maybePurgeExpired

theorem ReadsBridge.fromOutside (hreads : ReadsBridge s headers db now result) (h : Traced stored s)
    (hsep : Separate (apiKeyScopeFromHeaders headers) t) (hne : apiKeyScopeFromHeaders headers ≠ t) {id : Bytes}
    (hid : result.2 = some id) : (BridgeAnswer.previousResponse id).FromOutside t stored := by
  obtain rfl | ⟨key, hkey, -, hanswer⟩ := hreads
  · cases hid
  · obtain ⟨e, he, hcollide, hresponse⟩ := h.bridgedPreviousResponseId.2 id (hanswer id hid)
    refine ⟨e, he, ?_, hresponse⟩
    rintro rfl
    exact scopedBridgeKey_ne_of_separate hsep hne (clientKey_continuityKeyFromHeaders hkey) (h.keys e he) hcollide.symm

theorem ReadsAccount.fromOutside (hreads : ReadsAccount s headers db now result) (h : Traced stored s)
    (hne : apiKeyScopeFromHeaders headers ≠ t) {id : Bytes} (hid : result.2 = some id) :
    (BridgeAnswer.account id).FromOutside t stored := by
  obtain rfl | ⟨key, -, hanswer⟩ := hreads
  · cases hid
  · obtain ⟨row, hrow, rfl⟩ := hanswer id hid
    obtain ⟨⟨e, he, hwrote, -, hscope⟩, -⟩ := h.findRow hrow
    exact ⟨e, he, hscope ▸ hne, hwrote.2.2.2⟩

theorem RowTraced.fromOutside {row : ProxyResponseContinuityRecord} (h : RowTraced stored row)
    (hne : row.apiKeyScope ≠ t) : (BridgeAnswer.context row).FromOutside t stored := by
  obtain ⟨⟨e, he, hwrote⟩, hrecovery⟩ := h
  refine ⟨⟨e, he, hwrote.1 ▸ hne, hwrote⟩, hrecovery.imp id ?_⟩
  rintro ⟨e', he', hscope, hjson⟩
  exact ⟨e', he', hscope ▸ hne, hjson⟩

theorem Traced.findRowByResponseId {previous scope : Bytes} {row : ProxyResponseContinuityRecord} (h : Traced stored s)
    (hfound : s.findRowByResponseId db previous scope now = some row) :
    RowTraced stored row ∧ row.apiKeyScope = scope := by
  unfold BridgeState.findRowByResponseId at hfound
  split_ifs at hfound
  obtain ⟨hmem, -, hscope⟩ := ResponseContinuityTable.mem_of_findByResponseId hfound
  exact ⟨h.rows row hmem, hscope⟩

end Lookups

section Runs

variable {r : RecordedBridge} {s t : Bytes}

theorem Traced.remember (h : Traced r.stored r.state) (headers : HeaderMap) (responseId : Option Bytes)
    (resolved recovery : Bytes) (db : DbAccess) (now : ℤ) :
    Traced (r.stored ++ (storedValue headers responseId resolved recovery).toList)
      (r.state.rememberResponseId headers responseId resolved recovery db now) := by
  cases hstored : storedValue headers responseId resolved recovery with
  | none =>
    rw [rememberResponseId_of_not_stored hstored, Option.toList_none, List.append_nil]
    exact h
  | some e =>
    obtain ⟨hkey, hremember⟩ := mem_storedValue r.state db now hstored
    rw [hremember, Option.toList_some]
    have hgrown : Traced (r.stored ++ [e]) r.state := by
      apply h.mono (List.subset_append_left _ _)
      intro e' he'
      obtain hold | hnew := List.mem_append.mp he'
      · exact h.keys e' hold
      · exact List.mem_singleton.mp hnew ▸ hkey
    exact hgrown.storeResponse (List.mem_append_right _ List.mem_cons_self)

theorem Traced.step (h : Traced r.stored r.state) (c : BridgeCall) : Traced (r.step c).stored (r.step c).state := by
  cases c with
  | remember headers responseId resolved recovery db now => exact h.remember headers responseId resolved recovery db now
  | inject body headers db now =>
    rw [show (r.step (.inject body headers db now)).stored = r.stored from List.append_nil _]
    exact (readsBridge_inject r.state body headers db now).traced h
  | replace body headers db now =>
    rw [show (r.step (.replace body headers db now)).stored = r.stored from List.append_nil _]
    exact (readsBridge_replace r.state body headers db now).traced h
  | preferredAccount body headers db now =>
    rw [show (r.step (.preferredAccount body headers db now)).stored = r.stored from List.append_nil _]
    exact (readsAccount_preferred r.state body headers db now).traced h
  | continuityAccount headers db now =>
    rw [show (r.step (.continuityAccount headers db now)).stored = r.stored from List.append_nil _]
    exact (readsAccount_continuity r.state headers db now).traced h
  | responseContext previous headers db now =>
    rw [show (r.step (.responseContext previous headers db now)).stored = r.stored from List.append_nil _]
    obtain heq | ⟨heq, -⟩ := responseContextRecord_cases r.state headers db now previous
    · change Traced r.stored (r.state.responseContextRecord previous headers db now).1
      rw [heq]
      exact h
    · change Traced r.stored (r.state.responseContextRecord previous headers db now).1
      rw [heq]
      exact h.maybePurgeExpired
  | purgeForAccount account =>
    rw [show (r.step (.purgeForAccount account)).stored = r.stored from List.append_nil _]
    apply h.withRows
    intro row hrow
    exact h.rows row (ResponseContinuityTable.mem_of_purgeForAccount hrow)
  | restart =>
    rw [show (r.step .restart).stored = r.stored from List.append_nil _]
    refine ⟨h.keys, ?_, h.rows⟩
    intro key id hheld
    cases hheld

theorem Traced.isolates (h : Traced r.stored r.state) (hsep : Separate s t) (hst : s ≠ t) (c : BridgeCall) :
    Isolates s t r c := by
  intro hscope answer hanswer
  cases c with
  | remember => cases hscope
  | purgeForAccount => cases hscope
  | restart => cases hscope
  | inject body headers db now =>
    obtain rfl := Option.some.inj hscope
    obtain ⟨id, hid, rfl⟩ := Option.map_eq_some_iff.mp hanswer
    exact (readsBridge_inject r.state body headers db now).fromOutside h hsep hst hid
  | replace body headers db now =>
    obtain rfl := Option.some.inj hscope
    obtain ⟨id, hid, rfl⟩ := Option.map_eq_some_iff.mp hanswer
    exact (readsBridge_replace r.state body headers db now).fromOutside h hsep hst hid
  | preferredAccount body headers db now =>
    obtain rfl := Option.some.inj hscope
    obtain ⟨id, hid, rfl⟩ := Option.map_eq_some_iff.mp hanswer
    exact (readsAccount_preferred r.state body headers db now).fromOutside h hst hid
  | continuityAccount headers db now =>
    obtain rfl := Option.some.inj hscope
    obtain ⟨id, hid, rfl⟩ := Option.map_eq_some_iff.mp hanswer
    exact (readsAccount_continuity r.state headers db now).fromOutside h hst hid
  | responseContext previous headers db now =>
    obtain rfl := Option.some.inj hscope
    obtain ⟨row, hrow, rfl⟩ := Option.map_eq_some_iff.mp hanswer
    replace hrow : (r.state.responseContextRecord previous headers db now).2 = some row := hrow
    obtain heq | ⟨-, hfound⟩ := responseContextRecord_cases r.state headers db now previous
    · rw [heq] at hrow
      cases hrow
    · obtain ⟨htraced, hrowScope⟩ := h.findRowByResponseId (hfound row hrow)
      exact htraced.fromOutside (hrowScope ▸ hst)

theorem traced_empty : Traced ({} : RecordedBridge).stored ({} : RecordedBridge).state where
  keys e he := by cases he
  bridge key id hheld := by cases hheld
  rows row hrow := by cases hrow

theorem storedValue_scopeHeaders {key : Bytes} (hs : Trimmed s) (hkey : ClientKey key) :
    storedValue (scopeHeaders key s) (some [114]) [] [] = some ⟨s, key, [114], [], []⟩ := by
  have haccount : rememberedAccountId (scopeHeaders key s) [] = [] := by
    rw [rememberedAccountId, if_pos (by decide), accountIdFromHeaders, scopeHeaders, HeaderMap.findCaseInsensitive_cons,
      if_neg (by decide), HeaderMap.findCaseInsensitive_cons, if_neg (by decide), HeaderMap.findCaseInsensitive_nil]
  simp only [storedValue, continuityKeyFromHeaders_scopeHeaders hkey, apiKeyScopeFromHeaders_scopeHeaders hs, haccount,
    hkey.ne_nil, List.cons_ne_nil, or_self, ↓reduceIte]

theorem holds_storeResponse (key scope response account recovery : Bytes) :
    ∃ session, (({} : BridgeState).storeResponse key scope response account recovery .unavailable 0).bridge.find
      (scopedBridgeKey key scope) 0 = some session ∧ session.upstreamSessionId = response := by
  change ∃ session, (SessionBridge.purgeStale _ 0).find _ 0 = some session ∧ _
  rw [SessionBridge.find_purgeStale]
  exact SessionBridge.find_upsert_self (by decide)

theorem inject_of_held {state : BridgeState} {key id : Bytes} (hs : Trimmed s) (hkey : ClientKey key) (hid : id ≠ [])
    (hheld : ∃ session, state.bridge.find (scopedBridgeKey key s) 0 = some session ∧ session.upstreamSessionId = id) :
    (state.injectPreviousResponseId (.object none) (scopeHeaders key s) .unavailable 0).2 = some id := by
  obtain ⟨session, hfind, rfl⟩ := hheld
  simp only [BridgeState.injectPreviousResponseId, RequestBody.previousResponseId,
    continuityKeyFromHeaders_scopeHeaders hkey, hkey.ne_nil, ↓reduceIte, apiKeyScopeFromHeaders_scopeHeaders hs,
    BridgeState.bridgedPreviousResponseId, hfind, reduceCtorEq]
  simp [Option.filter_some, hid]

def leakingCalls (s t key key' : Bytes) : List BridgeCall :=
  [.remember (scopeHeaders key' t) (some [114]) [] [] .unavailable 0,
    .inject (.object none) (scopeHeaders key s) .unavailable 0]

theorem not_isolates_of_collision {key key' : Bytes} (hs : Trimmed s) (ht : Trimmed t)
    (hkey : ClientKey key) (hkey' : ClientKey key') (hcollide : scopedBridgeKey key s = scopedBridgeKey key' t) :
    ¬ AllSteps RecordedBridge.step (Isolates s t) {} (leakingCalls s t key key') := by
  rintro ⟨-, hisolates, -⟩
  have hvalue := storedValue_scopeHeaders (s := t) ht hkey'
  have hstored : (({} : RecordedBridge).step
      (.remember (scopeHeaders key' t) (some [114]) [] [] .unavailable 0)).stored =
      [⟨t, key', [114], [], []⟩] := by
    simp only [RecordedBridge.step, BridgeCall.stored, hvalue, Option.toList_some, List.nil_append]
  have hanswer : (serve (({} : RecordedBridge).step
      (.remember (scopeHeaders key' t) (some [114]) [] [] .unavailable 0)).state
      (.inject (.object none) (scopeHeaders key s) .unavailable 0)).2 = some (.previousResponse [114]) := by
    obtain ⟨-, hremember⟩ := mem_storedValue {} .unavailable 0 hvalue
    simp only [RecordedBridge.step, serve, hremember]
    obtain ⟨session, hfind, hid⟩ := holds_storeResponse key' t [114] [] []
    rw [← hcollide] at hfind
    rw [Prod.map_snd, inject_of_held hs hkey (List.cons_ne_nil 114 []) ⟨session, hfind, hid⟩]
    rfl
  obtain ⟨e, he, hscope, -⟩ := hisolates (congrArg some (apiKeyScopeFromHeaders_scopeHeaders hs)) _ hanswer
  rw [hstored] at he
  obtain rfl := List.mem_singleton.mp he
  exact hscope rfl

/-- The bridge keeps two scopes apart in every run exactly when neither is empty and neither goes on after the
other with the separator. -/
theorem bridge_isolates_iff_separate (hs : Trimmed s) (ht : Trimmed t) (hst : s ≠ t) :
    (∀ calls, AllSteps RecordedBridge.step (fun r c => Isolates s t r c ∧ Isolates t s r c) {} calls) ↔
      Separate s t := by
  constructor
  · intro hall
    by_contra hsep
    obtain ⟨key, key', hkey, hkey', hcollide⟩ := exists_scopedBridgeKey_eq hst hsep
    apply not_isolates_of_collision hs ht hkey hkey' hcollide
    exact (hall _).mono _ fun r c h => h.1
  · intro hsep calls
    have hany : AllSteps RecordedBridge.step (fun _ _ => True) {} calls :=
      allSteps_of_forall _ (V := fun _ => True) fun _ _ => trivial
    apply allSteps_of_step (Q := fun r => Traced r.stored r.state) _ ?_ traced_empty hany
    intro r c h _
    exact ⟨h.step c, h.isolates hsep hst c, h.isolates hsep.symm hst.symm c⟩

theorem key_scopes_stay_apart :
    AllSteps RecordedBridge.step (fun r c => Isolates (ofString "key_1") (ofString "key_2") r c ∧
        Isolates (ofString "key_2") (ofString "key_1") r c) {}
      (leakingCalls (ofString "key_1") (ofString "key_2") (ofString "s") (ofString "s")) := by
  have hfive : (ofString "key_1").length = 5 ∧ (ofString "key_2").length = 5 := by decide
  apply (bridge_isolates_iff_separate (by decide) (by decide) (by decide)).mpr
  refine ⟨by decide, by decide, ?_, ?_⟩
  · rintro ⟨rest, h, -⟩
    have hlength := congrArg List.length h
    rw [List.length_append, List.length_append, List.length_singleton, hfive.1, hfive.2] at hlength
    omega
  · rintro ⟨rest, h, -⟩
    have hlength := congrArg List.length h
    rw [List.length_append, List.length_append, List.length_singleton, hfive.1, hfive.2] at hlength
    omega

theorem scoped_response_leaks_without_scope :
    ¬ AllSteps RecordedBridge.step (Isolates [] (ofString "key_1")) {}
      (leakingCalls [] (ofString "key_1") (ofString "api_key_scope:key_1|s") (ofString "s")) := by
  apply not_isolates_of_collision (by decide) (by decide) ⟨by decide, by decide⟩ ⟨by decide, by decide⟩
  decide

end Runs

end Tightrope.Proxy.Session
