import Tightrope.Library.Runs
import Tightrope.Proxy.Session.AccountRouting

namespace Tightrope.Proxy.Session

open Auth.Crypto Bytes Tightrope.Core Db RowTable Runs

structure Routing where
  accounts : Accounts
  latest : ℤ
  returned : Option Bytes := none

inductive RoutingAction where
  | resolve (call : ResolveCall)
  | other (accounts : Accounts)

def routingStep (cipher : TokenCipher) (routing : Routing) : RoutingAction → Routing
  | .resolve call =>
    let (accounts, credentials) := resolveUpstreamAccountCredentials cipher call routing.accounts
    { accounts := accounts
      latest := max routing.latest call.now
      returned := credentials.map UpstreamAccountCredentials.accountId }
  | .other accounts => { routing with accounts := accounts, returned := none }

def rowsOf (accountId : Bytes) (accounts : Accounts) : Accounts := accounts.filter fun row => trimmedId row = accountId

theorem mem_rowsOf {accountId : Bytes} {accounts : Accounts} {row : Account} :
    row ∈ rowsOf accountId accounts ↔ row ∈ accounts ∧ trimmedId row = accountId := by simp [rowsOf]

/-- No other operation rewrites the account. -/
def LeavesAccount (accountId : Bytes) (routing : Routing) : RoutingAction → Prop
  | .resolve _ => True
  | .other accounts => rowsOf accountId accounts = rowsOf accountId routing.accounts

/-- The rows that are routed under the id have it as it is, with no white space around it. -/
def WrittenAsRouted (accountId : Bytes) (accounts : Accounts) : Prop :=
  ∀ row ∈ rowsOf accountId accounts, row.chatgptAccountId = some accountId

instance (accountId : Bytes) (accounts : Accounts) : Decidable (WrittenAsRouted accountId accounts) :=
  inferInstanceAs (Decidable (∀ row ∈ rowsOf accountId accounts, row.chatgptAccountId = some accountId))

def recoveryResetAtMs (status : Bytes) (row : Account) : Option ℤ :=
  if status = quotaBlocked then row.quotaSecondaryResetAtMs.or row.quotaPrimaryResetAtMs else row.quotaPrimaryResetAtMs

def ResetsAfter (accountId status : Bytes) (t : ℤ) (accounts : Accounts) : Prop :=
  ∀ row ∈ rowsOf accountId accounts, isBlockedByHand row.status = false →
    ∀ reset, recoveryResetAtMs (normalizeExhaustedStatus status) row = some reset → t < reset

def ResetPassed (accountId : Bytes) (t : ℤ) (routing : Routing) : Prop :=
  ∃ row ∈ routing.accounts, trimmedId row = accountId ∧
    ∃ reset, (row.quotaPrimaryResetAtMs = some reset ∨ row.quotaSecondaryResetAtMs = some reset) ∧
      t < reset ∧ reset ≤ routing.latest

def HeldUntilReset (t latest : ℤ) (row : Account) : Prop :=
  isBlockedByHand row.status = true ∨
    ((row.status = rateLimited ∨ row.status = quotaBlocked) ∧
      ∀ reset, recoveryResetAtMs row.status row = some reset → t < reset) ∨
    ∃ reset, (row.quotaPrimaryResetAtMs = some reset ∨ row.quotaSecondaryResetAtMs = some reset) ∧
      t < reset ∧ reset ≤ latest

section Rows

variable {row : Account} {now : ℤ}

theorem limitBlockExpired_eq (row : Account) (now : ℤ) :
    limitBlockExpired now row =
      ((row.status = rateLimited || row.status = quotaBlocked) && reached (recoveryResetAtMs row.status row) now) := by
  have hne : rateLimited ≠ quotaBlocked := by decide
  by_cases hlimited : row.status = rateLimited
  · simp [limitBlockExpired, recoveryResetAtMs, hlimited, hne]
  · by_cases hblocked : row.status = quotaBlocked
    · cases hsecondary : row.quotaSecondaryResetAtMs <;>
        simp [limitBlockExpired, recoveryResetAtMs, hblocked, hne.symm, hsecondary, reached]
    · simp [limitBlockExpired, hlimited, hblocked]

theorem recoveryResetAtMs_cases {status : Bytes} {reset : ℤ} (h : recoveryResetAtMs status row = some reset) :
    row.quotaPrimaryResetAtMs = some reset ∨ row.quotaSecondaryResetAtMs = some reset := by
  unfold recoveryResetAtMs at h
  split_ifs at h
  · exact (Option.or_eq_some_iff.mp h).elim .inr fun hprimary => .inl hprimary.2
  · exact .inl h

theorem trimmedId_recoveredRow (stamp : Bytes) :
    trimmedId (setWhere (limitBlockExpired now) (recoveredRow now stamp) row) = trimmedId row :=
  setWhere_field (f := recoveredRow now stamp) (fun _ => rfl) _ row

theorem heldUntilReset_recover {t latest : ℤ} (stamp : Bytes) (h : HeldUntilReset t latest row) :
    HeldUntilReset t (max latest now) (setWhere (limitBlockExpired now) (recoveredRow now stamp) row) := by
  have hlater : ∀ {at_ : ℤ}, at_ ≤ latest → at_ ≤ max latest now := fun h => h.trans (le_max_left _ _)
  cases hexpired : limitBlockExpired now row with
  | false =>
    rw [setWhere_of_neg hexpired]
    obtain hhand | hlimited | ⟨reset, hreset, hafter, hpassed⟩ := h
    · exact .inl hhand
    · exact .inr (.inl hlimited)
    · exact .inr (.inr ⟨reset, hreset, hafter, hlater hpassed⟩)
  | true =>
    rw [setWhere_of_pos hexpired]
    rw [limitBlockExpired_eq, Bool.and_eq_true, Bool.or_eq_true, decide_eq_true_eq, decide_eq_true_eq] at hexpired
    obtain ⟨hstatus, hreached⟩ := hexpired
    obtain hhand | ⟨_, hresets⟩ | ⟨reset, hreset, hafter, hpassed⟩ := h
    · obtain hlimited | hblocked := hstatus
      · rw [hlimited] at hhand
        exact absurd hhand (by decide)
      · rw [hblocked] at hhand
        exact absurd hhand (by decide)
    · obtain ⟨reset, hreset, hnow⟩ := reached_iff.mp hreached
      exact .inr (.inr ⟨reset, recoveryResetAtMs_cases hreset, hresets reset hreset, hnow.trans (le_max_right _ _)⟩)
    · exact .inr (.inr ⟨reset, hreset, hafter, hlater hpassed⟩)

end Rows

section Invariant

structure Lasting (P : ℤ → Account → Prop) : Prop where
  migrate : ∀ {f : Account → Account} {latest : ℤ} {row : Account}, KeepsRouting f → P latest row → P latest (f row)
  recover : ∀ {latest now : ℤ} {row : Account} (stamp : Bytes), P latest row →
    P (max latest now) (setWhere (limitBlockExpired now) (recoveredRow now stamp) row)
  later : ∀ {latest now : ℤ} {row : Account}, P latest row → P (max latest now) row

structure Held (P : ℤ → Account → Prop) (accountId : Bytes) (routing : Routing) : Prop where
  rows : ∀ row ∈ routing.accounts, trimmedId row = accountId → P routing.latest row
  returned : routing.returned = some accountId → ∃ row ∈ routing.accounts, trimmedId row = accountId ∧
    row.status = active

variable {P : ℤ → Account → Prop} {accountId : Bytes} {cipher : TokenCipher}

theorem held_recover (hP : Lasting P) {routing : Routing} (h : Held P accountId routing) (now : ℤ) (stamp : Bytes) :
    ∀ row ∈ recoverExpiredAccountLimitBlocks routing.accounts now stamp, trimmedId row = accountId →
      P (max routing.latest now) row := by
  unfold recoverExpiredAccountLimitBlocks
  split_ifs
  · intro row hrow hid
    exact hP.later (h.rows row hrow hid)
  · intro row hrow hid
    obtain ⟨old, hold, rfl⟩ := mem_updateWhere.mp hrow
    rw [trimmedId_recoveredRow] at hid
    exact hP.recover stamp (h.rows old hold hid)

theorem held_step (hP : Lasting P) {routing : Routing} {action : RoutingAction} (h : Held P accountId routing)
    (haction : LeavesAccount accountId routing action) : Held P accountId (routingStep cipher routing action) := by
  cases action with
  | other accounts =>
    refine ⟨?_, nofun⟩
    intro row hrow hid
    have hmem : row ∈ rowsOf accountId accounts := mem_rowsOf.mpr ⟨hrow, hid⟩
    rw [haction] at hmem
    exact h.rows row (mem_rowsOf.mp hmem).1 hid
  | resolve call =>
    obtain ⟨⟨f, hf, haccounts⟩, hsel⟩ := resolve_sound cipher call routing.accounts
    have hrows := held_recover hP h call.now call.stamp
    have hids : ∀ row, trimmedId (f row) = trimmedId row := by
      intro row
      rw [trimmedId, hf.chatgptAccountId, trimmedId]
    constructor
    · intro row hrow hid
      change row ∈ (resolveUpstreamAccountCredentials cipher call routing.accounts).1 at hrow
      rw [haccounts] at hrow
      obtain ⟨old, hold, rfl⟩ := List.mem_map.mp hrow
      rw [hids] at hid
      exact hP.migrate hf (hrows old hold hid)
    · intro hreturned
      obtain ⟨credentials, hcredentials, rfl⟩ := Option.map_eq_some_iff.mp hreturned
      obtain ⟨_, row, hrow, hactive, _, hid⟩ := hsel credentials hcredentials
      refine ⟨f row, ?_, (hids row).trans hid, (hf.status row).trans hactive⟩
      change f row ∈ (resolveUpstreamAccountCredentials cipher call routing.accounts).1
      rw [haccounts]
      exact List.mem_map_of_mem hrow

theorem held_run (hP : Lasting P) {routing : Routing} {actions : List RoutingAction} (h : Held P accountId routing)
    (hactions : AllSteps (routingStep cipher) (LeavesAccount accountId) routing actions) :
    AllStates (routingStep cipher) (Held P accountId) routing actions :=
  allStates_of_step (routingStep cipher) (fun _ _ => held_step hP) h hactions

theorem lasting_deactivated : Lasting fun _ row => row.status = deactivated where
  migrate := fun hf h => (hf.status _).trans h
  recover := by
    intro latest now row stamp h
    have hkept : limitBlockExpired now row = false := by
      rw [limitBlockExpired_eq, h]
      rfl
    rwa [setWhere_of_neg hkept]
  later := id

theorem lasting_heldUntilReset (t : ℤ) : Lasting (HeldUntilReset t) where
  migrate := by
    intro f latest row hf h
    unfold HeldUntilReset recoveryResetAtMs at h ⊢
    rwa [hf.status, hf.primaryReset, hf.secondaryReset]
  recover := fun stamp h => heldUntilReset_recover stamp h
  later := by
    intro latest now row h
    obtain hhand | hlimited | ⟨reset, hreset, hafter, hpassed⟩ := h
    · exact .inl hhand
    · exact .inr (.inl hlimited)
    · exact .inr (.inr ⟨reset, hreset, hafter, hpassed.trans (le_max_left _ _)⟩)

end Invariant

section Marked

variable {accountId : Bytes} {accounts : Accounts}

theorem held_unusable (hne : accountId ≠ []) (htrim : trimAscii accountId = accountId)
    (hcstr : cstr accountId = accountId)
    (hwritten : WrittenAsRouted accountId accounts) (stamp : Bytes) (latest : ℤ) :
    Held (fun _ row => row.status = deactivated) accountId
      { accounts := markUpstreamAccountUnusable accounts accountId stamp, latest := latest } where
  rows := by
    intro row hrow hid
    change row ∈ markUpstreamAccountUnusable accounts accountId stamp at hrow
    rw [markUpstreamAccountUnusable_eq _ _ _ (htrim.symm ▸ hne)] at hrow
    obtain ⟨old, hold, rfl⟩ := List.mem_map.mp hrow
    rw [trimmedId, unusableStep_chatgptAccountId] at hid
    have hexact := hwritten old (mem_rowsOf.mpr ⟨hold, hid⟩)
    rw [unusableStep_status, htrim, hcstr, if_pos (by simp [hasChatgptId, hexact])]
  returned := nofun

theorem held_exhausted (hne : accountId ≠ []) (htrim : trimAscii accountId = accountId)
    (hcstr : cstr accountId = accountId)
    (hwritten : WrittenAsRouted accountId accounts) {status : Bytes} {t : ℤ}
    (hresets : ResetsAfter accountId status t accounts) (stamp : Bytes) :
    Held (HeldUntilReset t) accountId
      { accounts := markUpstreamAccountExhausted accounts accountId status stamp, latest := t } where
  rows := by
    intro row hrow hid
    change row ∈ markUpstreamAccountExhausted accounts accountId status stamp at hrow
    rw [markUpstreamAccountExhausted_eq _ _ _ _ (htrim.symm ▸ hne)] at hrow
    obtain ⟨old, hold, rfl⟩ := List.mem_map.mp hrow
    rw [trimmedId, exhaustedStep_field (g := Account.chatgptAccountId) _ _ _ (fun _ => rfl) fun _ => rfl] at hid
    have hmem : old ∈ rowsOf accountId accounts := mem_rowsOf.mpr ⟨hold, hid⟩
    have hexact : hasChatgptId (cstr (trimAscii accountId)) old = true := by
      simp [htrim, hcstr, hasChatgptId, hwritten old hmem]
    cases hhand : isBlockedByHand old.status with
    | true =>
      left
      rw [exhaustedStep_status, if_neg (by simp [hhand]), hhand]
    | false =>
      right
      left
      have hreset : recoveryResetAtMs (normalizeExhaustedStatus status) (exhaustedStep accountId status stamp old) =
          recoveryResetAtMs (normalizeExhaustedStatus status) old :=
            exhaustedStep_field _ _ _ (fun _ => rfl) (fun _ => rfl) old
      rw [exhaustedStep_status, if_pos ⟨hexact, by simp [hhand]⟩, hreset]
      exact ⟨normalizeExhaustedStatus_cases status, hresets old hmem hhand⟩
  returned := nofun

end Marked

theorem selectable_trimmed {accounts : Accounts} {accountId : Bytes} (h : Selectable accounts accountId) :
    accountId ≠ [] ∧ trimAscii accountId = accountId ∧ cstr accountId = accountId := by
  obtain ⟨hne, row, _, _, _, rfl⟩ := h
  exact ⟨hne, trimAscii_trimAscii _, cstr_eq_self.mpr (nulFree_trimAscii (nulFree_cstr _))⟩

/-- An account that routing gave out and that is then reported is not given out again, where its rows have the id as it
was given and no reset time up to the report recovers them. -/
theorem reported_accounts_are_not_routed {cipher : TokenCipher} {call : ResolveCall} {before : Accounts}
    {credentials : UpstreamAccountCredentials}
    (h : (resolveUpstreamAccountCredentials cipher call before).2 = some credentials) :
    (∀ accounts stamp latest actions, WrittenAsRouted credentials.accountId accounts →
      AllSteps (routingStep cipher) (LeavesAccount credentials.accountId)
        { accounts := markUpstreamAccountUnusable accounts credentials.accountId stamp, latest := latest } actions →
      AllStates (routingStep cipher) (fun routing => routing.returned ≠ some credentials.accountId)
        { accounts := markUpstreamAccountUnusable accounts credentials.accountId stamp, latest := latest } actions) ∧
    ∀ accounts status stamp t actions, WrittenAsRouted credentials.accountId accounts →
      ResetsAfter credentials.accountId status t accounts →
      AllSteps (routingStep cipher) (LeavesAccount credentials.accountId)
        { accounts := markUpstreamAccountExhausted accounts credentials.accountId status stamp, latest := t } actions →
      AllStates (routingStep cipher)
        (fun routing => routing.returned = some credentials.accountId → ResetPassed credentials.accountId t routing)
        { accounts := markUpstreamAccountExhausted accounts credentials.accountId status stamp, latest := t }
          actions := by
  obtain ⟨hne, htrim, hcstr⟩ := selectable_trimmed ((resolve_sound cipher call before).2 credentials h)
  constructor
  · intro accounts stamp latest actions hwritten hactions
    apply AllStates.mono (routingStep cipher) ?_
      (held_run lasting_deactivated (held_unusable hne htrim hcstr hwritten stamp latest) hactions)
    intro routing hheld hreturned
    obtain ⟨row, hrow, hid, hactive⟩ := hheld.returned hreturned
    exact absurd ((hheld.rows row hrow hid).symm.trans hactive) (by decide)
  · intro accounts status stamp t actions hwritten hresets hactions
    apply AllStates.mono (routingStep cipher) ?_
      (held_run (lasting_heldUntilReset t) (held_exhausted hne htrim hcstr hwritten hresets stamp) hactions)
    intro routing hheld hreturned
    obtain ⟨row, hrow, hid, hactive⟩ := hheld.returned hreturned
    obtain hhand | ⟨hlimited | hblocked, _⟩ | ⟨reset, hreset, hafter, hpassed⟩ := hheld.rows row hrow hid
    · rw [hactive] at hhand
      exact absurd hhand (by decide)
    · exact absurd (hlimited.symm.trans hactive) (by decide)
    · exact absurd (hblocked.symm.trans hactive) (by decide)
    · exact ⟨row, hrow, hid, reset, hreset, hafter, hpassed⟩

def routedAccount (rawId : String) (resetAtMs : Option ℤ) : Account :=
  { id := 1
    chatgptAccountId := some (ofString rawId)
    accessTokenEncrypted := some (ofString "token")
    status := active
    quotaPrimaryResetAtMs := resetAtMs }

def plainCipher : TokenCipher := ⟨id, fun plaintext _ _ => some plaintext, fun stored _ => some stored⟩

def askForFirst (now : ℤ) : ResolveCall :=
    { preferredAccountId := ofString "1", strictPreferredOnly := true, now := now }

theorem reported_account_waits :
    AllStates (routingStep plainCipher) (fun routing => routing.returned ≠ some (ofString "acc"))
        { accounts := markUpstreamAccountUnusable [routedAccount "acc" none] (ofString "acc") [], latest := 0 }
        [.resolve (askForFirst 5000)] ∧
      AllStates (routingStep plainCipher)
        (fun routing => routing.returned = some (ofString "acc") → ResetPassed (ofString "acc") 1000 routing)
        { accounts := markUpstreamAccountExhausted [routedAccount "acc" (some 3000)] (ofString "acc") rateLimited []
          latest := 1000 }
        [.resolve (askForFirst 2000), .resolve (askForFirst 4000)] := by
  have hgiven : (resolveUpstreamAccountCredentials plainCipher (askForFirst 500) [routedAccount "acc" none]).2 =
      some ⟨ofString "acc", ofString "token", 1⟩ := by decide
  obtain ⟨hunusable, hexhausted⟩ := reported_accounts_are_not_routed hgiven
  constructor
  · exact hunusable [routedAccount "acc" none] [] 0 [.resolve (askForFirst 5000)] (by decide) ⟨trivial, trivial⟩
  · refine hexhausted [routedAccount "acc" (some 3000)] rateLimited [] 1000
      [.resolve (askForFirst 2000), .resolve (askForFirst 4000)] (by decide) ?_ ⟨trivial, trivial, trivial⟩
    intro row hrow _ reset hreset
    obtain rfl : row = routedAccount "acc" (some 3000) := by simpa using (mem_rowsOf.mp hrow).1
    cases hreset
    decide

/-- The mark misses an id that is stored with a blank before it, and a reset time that has passed before the report
recovers the account at once. -/
theorem reported_account_is_routed_again :
    ((resolveUpstreamAccountCredentials plainCipher (askForFirst 500) [routedAccount " acc" none]).2 =
        some ⟨ofString "acc", ofString "token", 1⟩ ∧
      (routingStep plainCipher
        { accounts := markUpstreamAccountUnusable [routedAccount " acc" none] (ofString "acc") [], latest := 0 }
        (.resolve (askForFirst 5000))).returned = some (ofString "acc")) ∧
    (resolveUpstreamAccountCredentials plainCipher (askForFirst 500) [routedAccount "acc" (some 400)]).2 =
        some ⟨ofString "acc", ofString "token", 1⟩ ∧
      (routingStep plainCipher
        { accounts := markUpstreamAccountExhausted [routedAccount "acc" (some 400)] (ofString "acc") rateLimited []
          latest := 1000 } (.resolve (askForFirst 1001))).returned = some (ofString "acc") ∧
      ¬ ResetPassed (ofString "acc") 1000 (routingStep plainCipher
        { accounts := markUpstreamAccountExhausted [routedAccount "acc" (some 400)] (ofString "acc") rateLimited []
          latest := 1000 } (.resolve (askForFirst 1001))) := by
  refine ⟨⟨by decide, by decide⟩, by decide, by decide, ?_⟩
  rintro ⟨row, hrow, _, reset, hreset, hafter, _⟩
  have hresets : ∀ row ∈ (routingStep plainCipher
      { accounts := markUpstreamAccountExhausted [routedAccount "acc" (some 400)] (ofString "acc") rateLimited []
        latest := 1000 } (.resolve (askForFirst 1001))).accounts,
      row.quotaPrimaryResetAtMs = some 400 ∧ row.quotaSecondaryResetAtMs = none := by decide
  obtain ⟨hprimary, hsecondary⟩ := hresets row hrow
  obtain hreset | hreset := hreset
  · rw [hprimary] at hreset
    cases hreset
    exact absurd hafter (by decide)
  · rw [hsecondary] at hreset
    cases hreset

end Tightrope.Proxy.Session
