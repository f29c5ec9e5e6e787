import Tightrope.Auth.Oauth.OauthService
import Tightrope.Library.Runs

namespace Tightrope.Auth.Oauth

open Bytes Tightrope.Core Crypto Db RowTable Runs

section Definitions

variable (cipher : TokenCipher) (decodeBase64 : Bytes → Option Bytes) (json : JsonLibrary)

def PersistCall.Seals (call : PersistCall) (tokens : SealedTokens) : Prop :=
  (call.upsert decodeBase64 json).sealTokens cipher call.key call.nonces = some tokens

def PersistCall.Writes (call : PersistCall) : Prop :=
  call.opens = true ∧ (call.upsert decodeBase64 json).email ≠ [] ∧ ∃ tokens, call.Seals cipher decodeBase64 json tokens

/-- The row that the call would update is of no account or of the one that logs in. -/
def Apart (table : AccountTable) (call : PersistCall) : Prop :=
  call.Writes cipher decodeBase64 json → ∀ row, table.findLogin (call.upsert decodeBase64 json) = some row →
    row.chatgptAccountId = none ∨ row.chatgptAccountId = (call.claims decodeBase64 json).accountId

/-- A login as account `a` leaves the rows of the other accounts as they are. -/
def LeavesOthers (table : AccountTable) (call : PersistCall) : Prop :=
  ∀ a b, (call.claims decodeBase64 json).accountId = some a → b ≠ a → ∀ row ∈ table.rows,
    row.chatgptAccountId = some b → row ∈ (persistTokens cipher decodeBase64 json table call).1.rows

structure Logins where
  table : AccountTable
  latest : Bytes → Option PersistCall := fun _ => none

def Logins.step (s : Logins) (call : PersistCall) : Logins where
  table := (persistTokens cipher decodeBase64 json s.table call).1
  latest := fun a =>
    if (persistTokens cipher decodeBase64 json s.table call).2 = true ∧
      (call.claims decodeBase64 json).accountId = some a
    then some call
    else s.latest a

def Holds (row : Account) (tokens : SealedTokens) : Prop :=
  row.accessTokenEncrypted = some tokens.accessToken ∧ row.refreshTokenEncrypted = some tokens.refreshToken ∧
    row.idTokenEncrypted = some tokens.idToken

/-- The tokens of each account's last successful login are stored under its id. -/
def LatestStored (s : Logins) : Prop :=
  ∀ a call, s.latest a = some call → ∃ row ∈ s.table.rows, ∃ tokens,
    row.chatgptAccountId = some a ∧ call.Seals cipher decodeBase64 json tokens ∧ Holds row tokens

end Definitions

section Logins

variable {cipher : TokenCipher} {decodeBase64 : Bytes → Option Bytes} {json : JsonLibrary} {table : AccountTable}
  {call : PersistCall} {row : Account} {s : Logins}

theorem persistTokens_cases (cipher : TokenCipher) (decodeBase64 : Bytes → Option Bytes) (json : JsonLibrary)
    (table : AccountTable) (call : PersistCall) :
    persistTokens cipher decodeBase64 json table call = (table, false) ∨
      call.Writes cipher decodeBase64 json ∧ ∃ tokens, call.Seals cipher decodeBase64 json tokens ∧
        ((table.findLogin (call.upsert decodeBase64 json) = none ∧
            persistTokens cipher decodeBase64 json table call =
              (table.insertRow ((call.upsert decodeBase64 json).newRow tokens call.stamp) fun _ => rfl, true)) ∨
          ∃ existing, table.findLogin (call.upsert decodeBase64 json) = some existing ∧
            persistTokens cipher decodeBase64 json table call =
              (table.updateRow existing.id ((call.upsert decodeBase64 json).setRow tokens call.stamp)
                (OauthAccountUpsert.setRow_id _ tokens call.stamp), true)) := by
  unfold persistTokens AccountTable.upsertOauthAccount
  split
  · rename_i hopens
    split
    · exact .inl rfl
    · rename_i hemail
      split
      · exact .inl rfl
      · rename_i tokens htokens
        have hwrites : call.Writes cipher decodeBase64 json := ⟨hopens, hemail, tokens, htokens⟩
        split
        · rename_i hnew
          split
          · exact .inr ⟨hwrites, tokens, htokens, .inl ⟨hnew, rfl⟩⟩
          · exact .inl rfl
        · rename_i existing hexisting
          exact .inr ⟨hwrites, tokens, htokens, .inr ⟨existing, hexisting, rfl⟩⟩
  · exact .inl rfl

theorem mem_updateRow_of_ne {id : ℤ} {f : Account → Account} (hf : ∀ row, (f row).id = row.id)
    (hrow : row ∈ table.rows) (hne : row.id ≠ id) : row ∈ (table.updateRow id f hf).rows :=
  mem_updateWhere.mpr ⟨row, hrow, setWhere_of_neg (decide_eq_false hne)⟩

theorem mem_updateRow_self {f : Account → Account} (hf : ∀ row, (f row).id = row.id) (hrow : row ∈ table.rows) :
    f row ∈ (table.updateRow row.id f hf).rows :=
  mem_updateWhere.mpr ⟨row, hrow, setWhere_of_pos (decide_eq_true rfl)⟩

theorem findLogin_mem {account : OauthAccountUpsert} (h : table.findLogin account = some row) : row ∈ table.rows :=
  List.mem_of_find?_eq_some h

theorem eq_of_id {other : Account} (hrow : row ∈ table.rows) (hother : other ∈ table.rows) (h : row.id = other.id) :
    row = other := by
  have hfound := rowOf_of_mem Account.id table.nodup hrow
  rw [h, rowOf_of_mem Account.id table.nodup hother] at hfound
  exact (Option.some.inj hfound).symm

theorem mem_persistTokens (hapart : Apart cipher decodeBase64 json table call) (hrow : row ∈ table.rows) {b : Bytes}
    (hb : row.chatgptAccountId = some b) (hother : (call.claims decodeBase64 json).accountId ≠ some b) :
    row ∈ (persistTokens cipher decodeBase64 json table call).1.rows := by
  obtain hnone | ⟨hwrites, tokens, -, ⟨-, hinsert⟩ | ⟨existing, hfound, hupdate⟩⟩ :=
    persistTokens_cases cipher decodeBase64 json table call
  · rw [hnone]
    exact hrow
  · rw [hinsert]
    exact List.mem_append_left _ hrow
  · rw [hupdate]
    apply mem_updateRow_of_ne (OauthAccountUpsert.setRow_id _ tokens call.stamp) hrow
    intro hid
    obtain rfl := eq_of_id hrow (findLogin_mem hfound) hid
    obtain hnull | hsame := hapart hwrites row hfound
    · rw [hb] at hnull
      cases hnull
    · exact hother (hsame.symm.trans hb)

theorem latestStored_step (h : LatestStored cipher decodeBase64 json s)
    (hapart : Apart cipher decodeBase64 json s.table call) :
    LatestStored cipher decodeBase64 json (s.step cipher decodeBase64 json call) := by
  intro a last hlast
  by_cases hlogin : (persistTokens cipher decodeBase64 json s.table call).2 = true ∧
      (call.claims decodeBase64 json).accountId = some a
  · obtain ⟨hok, ha⟩ := hlogin
    obtain rfl := Option.some.inj ((if_pos ⟨hok, ha⟩).symm.trans hlast)
    obtain hnone | ⟨-, tokens, hseals, ⟨-, hinsert⟩ | ⟨existing, hfound, hupdate⟩⟩ :=
      persistTokens_cases cipher decodeBase64 json s.table call
    · rw [hnone] at hok
      cases hok
    · refine ⟨(call.upsert decodeBase64 json).newRow tokens call.stamp (s.table.sequence + 1), ?_, tokens, ha, hseals,
        rfl, rfl, rfl⟩
      rw [Logins.step, hinsert]
      exact List.mem_append_right _ (List.mem_singleton_self _)
    · refine ⟨(call.upsert decodeBase64 json).setRow tokens call.stamp existing, ?_, tokens, ha, hseals, rfl, rfl, rfl⟩
      rw [Logins.step, hupdate]
      exact mem_updateRow_self (OauthAccountUpsert.setRow_id _ tokens call.stamp) (findLogin_mem hfound)
  · rw [Logins.step] at hlast
    simp only [if_neg hlogin] at hlast
    obtain ⟨row, hrow, tokens, hid, hseals, hholds⟩ := h a last hlast
    by_cases ha : (call.claims decodeBase64 json).accountId = some a
    · have hfailed : (persistTokens cipher decodeBase64 json s.table call).2 ≠ true := fun hok => hlogin ⟨hok, ha⟩
      obtain hnone | ⟨-, _, -, ⟨-, hinsert⟩ | ⟨_, -, hupdate⟩⟩ :=
        persistTokens_cases cipher decodeBase64 json s.table call
      · refine ⟨row, ?_, tokens, hid, hseals, hholds⟩
        rw [Logins.step, hnone]
        exact hrow
      · exact absurd (congrArg Prod.snd hinsert) hfailed
      · exact absurd (congrArg Prod.snd hupdate) hfailed
    · exact ⟨row, mem_persistTokens hapart hrow hid ha, tokens, hid, hseals, hholds⟩

/-- Logins that keep apart leave the rows of other accounts alone and lose no account's last tokens. -/
theorem logins_keep_accounts_apart (cipher : TokenCipher) (decodeBase64 : Bytes → Option Bytes) (json : JsonLibrary)
    (table : AccountTable) (calls : List PersistCall)
    (hapart : AllSteps (Logins.step cipher decodeBase64 json)
    (fun s call => Apart cipher decodeBase64 json s.table call)
      { table } calls) :
    AllSteps (Logins.step cipher decodeBase64 json)
        (fun s call => LeavesOthers cipher decodeBase64 json s.table call) { table } calls ∧
      AllStates (Logins.step cipher decodeBase64 json) (LatestStored cipher decodeBase64 json) { table } calls := by
  constructor
  · apply hapart.mono
    intro s call h a b ha hne row hrow hb
    apply mem_persistTokens h hrow hb
    rw [ha]
    exact fun heq => hne (Option.some.inj heq).symm
  · apply allStates_of_step _ (fun _ _ h => latestStored_step h) _ hapart
    intro a call hnone
    cases hnone

end Logins

section Samples

def samplePayloads : List (String × String × List (String × String)) :=
  [("eyJjaGF0Z3B0X2FjY291bnRfaWQiOiJBIn0=", "\x7b\"chatgpt_account_id\":\"A\"\x7d", [("chatgpt_account_id", "A")]),
    ("eyJjaGF0Z3B0X2FjY291bnRfaWQiOiJCIn0=", "\x7b\"chatgpt_account_id\":\"B\"\x7d", [("chatgpt_account_id", "B")]),
    ("eyJlbWFpbCI6ImJAeCIsImNoYXRncHRfYWNjb3VudF9pZCI6IkIifQ==",
      "\x7b\"email\":\"b@x\",\"chatgpt_account_id\":\"B\"\x7d", [("chatgpt_account_id", "B"), ("email", "b@x")])]

def sampleDecode (value : Bytes) : Option Bytes :=
  (samplePayloads.find? fun payload => ofString payload.1 = value).map fun payload => ofString payload.2.1

def sampleJson : JsonLibrary where
  read := fun text => (samplePayloads.find? fun payload => ofString payload.2.1 = text).map fun payload =>
    .object (payload.2.2.map fun field => (ofString field.1, .string (ofString field.2)))
  write := fun _ => none

def loginCipher : TokenCipher := ⟨fun passphrase => passphrase, fun _ _ _ => none, fun _ _ => none⟩

def loginWith (accessToken payload : String) : PersistCall where
  tokens := ⟨ofString accessToken, ofString "refresh", ofString ("h." ++ payload ++ ".s")⟩

def namelessA : PersistCall := loginWith "access-a" "eyJjaGF0Z3B0X2FjY291bnRfaWQiOiJBIn0"

def namelessB : PersistCall := loginWith "access-b" "eyJjaGF0Z3B0X2FjY291bnRfaWQiOiJCIn0"

def namedB : PersistCall := loginWith "access-b" "eyJlbWFpbCI6ImJAeCIsImNoYXRncHRfYWNjb3VudF9pZCI6IkIifQ"

def sampleLogin : Logins → PersistCall → Logins := Logins.step loginCipher sampleDecode sampleJson

theorem named_logins_keep_apart : AllSteps sampleLogin
      (fun s call => LeavesOthers loginCipher sampleDecode sampleJson s.table call) { table := .empty }
        [namelessA, namedB, namelessA] ∧
    AllStates sampleLogin (LatestStored loginCipher sampleDecode sampleJson) { table := .empty }
      [namelessA, namedB, namelessA] := by
  have hchecked : AllSteps sampleLogin (fun s call =>
      ((s.table.findLogin (call.upsert sampleDecode sampleJson)).all fun row => row.chatgptAccountId = none ||
        row.chatgptAccountId = (call.claims sampleDecode sampleJson).accountId) = true) { table := .empty }
      [namelessA, namedB, namelessA] := by decide +kernel
  apply logins_keep_accounts_apart
  apply hchecked.mono
  intro s call h _ row hrow
  rw [hrow, Option.all_some, Bool.or_eq_true, decide_eq_true_eq, decide_eq_true_eq] at h
  exact h

theorem nameless_login_overwrites : ¬ (AllSteps sampleLogin
      (fun s call => LeavesOthers loginCipher sampleDecode sampleJson s.table call) { table := .empty }
        [namelessA, namelessB] ∧
    AllStates sampleLogin (LatestStored loginCipher sampleDecode sampleJson) { table := .empty }
      [namelessA, namelessB]) := by
  rintro ⟨⟨-, hleaves, -⟩, -⟩
  have hlost : ∃ row ∈ (sampleLogin { table := .empty } namelessA).table.rows,
      row.chatgptAccountId = some (ofString "A") ∧
        row ∉ (persistTokens loginCipher sampleDecode sampleJson (sampleLogin { table := .empty } namelessA).table
          namelessB).1.rows := by decide +kernel
  obtain ⟨row, hrow, hid, hnot⟩ := hlost
  exact hnot (hleaves (ofString "B") (ofString "A") (by decide +kernel) (by decide) row hrow hid)

end Samples

end Tightrope.Auth.Oauth
