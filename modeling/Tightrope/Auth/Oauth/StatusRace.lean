import Tightrope.Auth.Oauth.TokenRefresh
import Tightrope.Library.Runs
import Tightrope.Proxy.Session.AccountMarks

namespace Tightrope.Auth.Oauth

open Bytes Tightrope.Core Crypto Db Proxy.Session RowTable Runs

inductive StatusWriter where
  | markUnusable (accountId stamp : Bytes)
  | markExhausted (accountId status stamp : Bytes)
  | updateStatus (accountId : ℤ) (status stamp : Bytes)
  | updateUsage (accountId : ℤ) (usage : Account.UsageTelemetry) (stamp : Bytes)
  | recoverLimits (now : ℤ) (stamp : Bytes)
  deriving DecidableEq, Repr

namespace StatusWriter

def write (accounts : Accounts) : StatusWriter → Accounts
  | .markUnusable accountId stamp => markUpstreamAccountUnusable accounts accountId stamp
  | .markExhausted accountId status stamp => markUpstreamAccountExhausted accounts accountId status stamp
  | .updateStatus accountId status stamp => (updateAccountStatus accounts accountId status stamp).1
  | .updateUsage accountId usage stamp => (updateAccountUsageTelemetry accounts accountId usage stamp).1
  | .recoverLimits now stamp => recoverExpiredAccountLimitBlocks accounts now stamp

def sets (row : Account) : StatusWriter → Option Bytes
  | .markUnusable accountId _ =>
    if trimAscii accountId ≠ [] ∧ hasChatgptId (cstr (trimAscii accountId)) row then some deactivated else none
  | .markExhausted accountId status _ =>
    if trimAscii accountId ≠ [] ∧ hasChatgptId (cstr (trimAscii accountId)) row ∧ !isBlockedByHand row.status then
      some (normalizeExhaustedStatus status)
    else none
  | .updateStatus accountId status _ => if 0 < accountId ∧ status ≠ [] ∧ row.id = accountId then some status else none
  | .updateUsage accountId usage _ => if 0 < accountId ∧ row.id = accountId then usage.status else none
  | .recoverLimits now _ => if 0 < now ∧ limitBlockExpired now row then some active else none

def writeRow (row : Account) : StatusWriter → Account
  | .markUnusable accountId stamp => if trimAscii accountId = [] then row else unusableStep accountId stamp row
  | .markExhausted accountId status stamp =>
    if trimAscii accountId = [] then row else exhaustedStep accountId status stamp row
  | .updateStatus accountId status stamp =>
    if accountId ≤ 0 ∨ status = [] then row else setWhere (·.id = accountId) (Account.setStatus status stamp) row
  | .updateUsage accountId usage stamp =>
    if accountId ≤ 0 then row else setWhere (·.id = accountId) (Account.setUsageTelemetry usage stamp) row
  | .recoverLimits now stamp => if now ≤ 0 then row else setWhere (limitBlockExpired now) (recoveredRow now stamp) row

theorem write_eq (accounts : Accounts) (writer : StatusWriter) :
    writer.write accounts = accounts.map (writer.writeRow ·) := by
  cases writer with
  | markUnusable accountId stamp =>
    simp only [write, writeRow]
    split_ifs with h
    · rw [markUpstreamAccountUnusable, if_pos h, List.map_id']
    · exact markUpstreamAccountUnusable_eq accounts accountId stamp h
  | markExhausted accountId status stamp =>
    simp only [write, writeRow]
    split_ifs with h
    · rw [markUpstreamAccountExhausted, if_pos h, List.map_id']
    · exact markUpstreamAccountExhausted_eq accounts accountId status stamp h
  | updateStatus accountId status stamp =>
    simp only [write, writeRow, updateAccountStatus]
    split_ifs
    · rw [List.map_id']
    · rfl
  | updateUsage accountId usage stamp =>
    simp only [write, writeRow, updateAccountUsageTelemetry]
    split_ifs
    · rw [List.map_id']
    · rfl
  | recoverLimits now stamp =>
    simp only [write, writeRow, recoverExpiredAccountLimitBlocks]
    split_ifs
    · rw [List.map_id']
    · rfl

theorem writeRow_id (row : Account) (writer : StatusWriter) : (writer.writeRow row).id = row.id := by
  cases writer with
  | markUnusable accountId stamp => simp only [writeRow]; split_ifs <;> simp [unusableStep_id]
  | markExhausted accountId status stamp => simp only [writeRow]; split_ifs <;> simp [exhaustedStep_id]
  | updateStatus accountId status stamp =>
    simp only [writeRow]
    split_ifs
    · rfl
    · exact setWhere_field (Account.setStatus_id status stamp) _ row
  | updateUsage accountId usage stamp =>
    simp only [writeRow]
    split_ifs
    · rfl
    · exact setWhere_field (Account.setUsageTelemetry_id usage stamp) _ row
  | recoverLimits now stamp =>
    simp only [writeRow]
    split_ifs
    · rfl
    · exact setWhere_field (recoveredRow_id stamp now) _ row

theorem writeRow_status (row : Account) (writer : StatusWriter) :
    (writer.writeRow row).status = (writer.sets row).getD row.status := by
  cases writer with
  | markUnusable accountId stamp =>
    by_cases hempty : trimAscii accountId = []
    · simp [writeRow, sets, hempty]
    · simp only [writeRow, sets, hempty, if_false, unusableStep_status]
      split_ifs <;> simp_all
  | markExhausted accountId status stamp =>
    by_cases hempty : trimAscii accountId = []
    · simp [writeRow, sets, hempty]
    · simp only [writeRow, sets, hempty, if_false, exhaustedStep_status]
      split_ifs <;> simp_all
  | updateStatus accountId status stamp =>
    by_cases hbad : accountId ≤ 0 ∨ status = []
    · have hnot : ¬ (0 < accountId ∧ status ≠ [] ∧ row.id = accountId) := by grind
      simp [writeRow, sets, hbad, hnot]
    · obtain ⟨hpos, hne⟩ := not_or.mp hbad
      by_cases hid : row.id = accountId
      · simp [writeRow, sets, hid, hne, hpos, setWhere, Account.setStatus, not_le.mp hpos]
      · simp [writeRow, sets, hbad, hid, setWhere]
  | updateUsage accountId usage stamp =>
    by_cases hbad : accountId ≤ 0
    · simp [writeRow, sets, hbad, not_lt.mpr hbad]
    · by_cases hid : row.id = accountId
      · simp [writeRow, sets, hbad, hid, setWhere, Account.setUsageTelemetry, not_le.mp hbad]
      · simp [writeRow, sets, hbad, hid, setWhere]
  | recoverLimits now stamp =>
    by_cases hbad : now ≤ 0
    · simp [writeRow, sets, hbad, not_lt.mpr hbad]
    · by_cases hexpired : limitBlockExpired now row = true
      · simp [writeRow, sets, hbad, hexpired, setWhere, recoveredRow, not_le.mp hbad]
      · simp [writeRow, sets, hbad, hexpired, setWhere]

end StatusWriter

structure Race where
  accounts : Accounts
  phase : RefreshPhase := .selecting
  row : Option ℤ := none
  setTo : Option Bytes := none

inductive RaceAction where
  | refresh (key : SessionKey) (input : RefreshInput)
  | write (writer : StatusWriter)

section Race

variable (cipher : TokenCipher) (chatgptAccountId : Bytes)

def Race.refreshedRow (race : Race) : Option Account :=
  race.row.bind fun accountId => rowOf Account.id accountId race.accounts

def raceStep (race : Race) : RaceAction → Race
  | .refresh key input =>
    let (accounts, phase) := advance cipher chatgptAccountId key race.accounts input race.phase
    { race with accounts := accounts, phase := phase, row := phase.rowRead.or race.row }
  | .write writer =>
    { race with
      accounts := writer.write race.accounts
      setTo := (race.refreshedRow.bind writer.sets).or race.setTo }

/-- What a status writer last set to something else than `active` stands once the refresh has finished. -/
def StatusKept (race : Race) : Prop :=
  ∀ result status row, race.phase = .finished result → race.setTo = some status → status ≠ active →
    race.refreshedRow = some row → row.status = status

def StoresActiveRow (race : Race) : RaceAction → Prop
  | .refresh _ _ => ∀ accountId encrypted row, race.phase = .storing accountId encrypted →
      race.refreshedRow = some row → row.status = active
  | .write _ => True

structure Consistent (race : Race) : Prop where
  keys : (race.accounts.map Account.id).Nodup
  found : ∀ accountId, race.row = some accountId → ∃ row, race.refreshedRow = some row
  unread : race.row = none → race.setTo = none
  selecting : race.phase = .selecting → race.row = none
  reading : ∀ accountId, race.phase.rowRead = some accountId → race.row = some accountId
  status : ∀ accountId row, race.phase.rowRead = some accountId → race.refreshedRow = some row →
    row.status = race.setTo.getD active

theorem refreshedRow_of_row {race : Race} {accountId : ℤ} (h : race.row = some accountId) :
    race.refreshedRow = rowOf Account.id accountId race.accounts := by
  rw [Race.refreshedRow, h, Option.bind_some]

theorem raceStep_write_refreshedRow (race : Race) (writer : StatusWriter) :
    (raceStep cipher chatgptAccountId race (.write writer)).refreshedRow =
      race.refreshedRow.map (writer.writeRow ·) := by
  change (race.row.bind fun accountId => rowOf Account.id accountId (writer.write race.accounts)) = _
  rw [Race.refreshedRow, Option.map_bind, StatusWriter.write_eq]
  congr 1
  funext accountId
  exact rowOf_map Account.id (fun row => StatusWriter.writeRow_id row writer) accountId race.accounts

theorem raceStep_refresh_row {race : Race} {accountId : ℤ} (key : SessionKey) (input : RefreshInput)
    (h : (raceStep cipher chatgptAccountId race (.refresh key input)).row = some accountId) :
    (raceStep cipher chatgptAccountId race (.refresh key input)).refreshedRow =
      (rowOf Account.id accountId race.accounts).map (race.phase.writeRow input.now ·) := by
  rw [refreshedRow_of_row h]
  change rowOf Account.id accountId (advance cipher chatgptAccountId key race.accounts input race.phase).1 = _
  rw [advance_accounts]
  exact rowOf_map Account.id (fun row => writeRow_id input.now row race.phase) accountId race.accounts

theorem consistent_write {race : Race} (writer : StatusWriter) (h : Consistent race) :
    Consistent (raceStep cipher chatgptAccountId race (.write writer)) where
  keys := by
    change ((writer.write race.accounts).map Account.id).Nodup
    rw [StatusWriter.write_eq, List.map_map]
    simpa [Function.comp_def, StatusWriter.writeRow_id] using h.keys
  found := by
    intro accountId hrow
    obtain ⟨row, hfound⟩ := h.found accountId hrow
    rw [raceStep_write_refreshedRow, hfound]
    exact ⟨writer.writeRow row, rfl⟩
  unread := by
    intro hrow
    change race.row = none at hrow
    change (race.refreshedRow.bind writer.sets).or race.setTo = none
    rw [Race.refreshedRow, hrow, h.unread hrow]
    rfl
  selecting := h.selecting
  reading := h.reading
  status := by
    intro accountId row hphase hrow
    rw [raceStep_write_refreshedRow, Option.map_eq_some_iff] at hrow
    obtain ⟨old, hold, rfl⟩ := hrow
    change (writer.writeRow old).status = ((race.refreshedRow.bind writer.sets).or race.setTo).getD active
    rw [StatusWriter.writeRow_status, hold, Option.bind_some, h.status accountId old hphase hold]
    cases writer.sets old <;> rfl

theorem raceStep_refresh_kept {race : Race} {accountId : ℤ} {key : SessionKey} {input : RefreshInput}
    (hrow : race.row = some accountId)
    (hrow' : (raceStep cipher chatgptAccountId race (.refresh key input)).row = some accountId) :
    (raceStep cipher chatgptAccountId race (.refresh key input)).refreshedRow =
      race.refreshedRow.map (race.phase.writeRow input.now ·) := by
  rw [raceStep_refresh_row cipher chatgptAccountId key input hrow', refreshedRow_of_row hrow]

section Refresh

variable {race : Race} {key : SessionKey} {input : RefreshInput}

theorem keys_refresh (h : Consistent race) :
    ((raceStep cipher chatgptAccountId race (.refresh key input)).accounts.map Account.id).Nodup := by
  change ((advance cipher chatgptAccountId key race.accounts input race.phase).1.map Account.id).Nodup
  rw [advance_accounts, List.map_map]
  simpa [Function.comp_def, writeRow_id] using h.keys

theorem raceStep_refresh_phase : (raceStep cipher chatgptAccountId race (.refresh key input)).phase =
    (advance cipher chatgptAccountId key race.accounts input race.phase).2 := rfl

theorem raceStep_refresh_rowRead : (raceStep cipher chatgptAccountId race (.refresh key input)).row =
    (advance cipher chatgptAccountId key race.accounts input race.phase).2.rowRead.or race.row := rfl

theorem raceStep_refresh_setTo :
    (raceStep cipher chatgptAccountId race (.refresh key input)).setTo = race.setTo := rfl

theorem consistent_finished (h : Consistent race) {result : RefreshAccessTokenResult}
    (hnext : (advance cipher chatgptAccountId key race.accounts input race.phase).2 = .finished result) :
    Consistent (raceStep cipher chatgptAccountId race (.refresh key input)) := by
  have hrow := @raceStep_refresh_rowRead cipher chatgptAccountId race key input
  rw [hnext, RefreshPhase.rowRead_finished, Option.none_or] at hrow
  refine ⟨keys_refresh cipher chatgptAccountId h, ?_, ?_, ?_, ?_, ?_⟩
  · intro accountId hsome
    obtain ⟨row, hfound⟩ := h.found accountId (hrow ▸ hsome)
    rw [raceStep_refresh_kept cipher chatgptAccountId (hrow ▸ hsome) hsome, hfound]
    exact ⟨race.phase.writeRow input.now row, rfl⟩
  · intro hnone
    exact h.unread (hrow ▸ hnone)
  all_goals rw [raceStep_refresh_phase, hnext]
  · intro hsel
    cases hsel
  · intro accountId hsome
    cases hsome
  · intro accountId row hsome
    cases hsome

theorem consistent_selected (h : Consistent race) (hselecting : race.phase = .selecting) {record : StoredTokenRecord}
    (hrecord : selectActiveAccount race.accounts chatgptAccountId = some record)
    (hnext : (advance cipher chatgptAccountId key race.accounts input race.phase).2 = .migrating record) :
    Consistent (raceStep cipher chatgptAccountId race (.refresh key input)) := by
  obtain ⟨row, hfind, hpos, rfl⟩ := selectActiveAccount_some hrecord
  have hrow := @raceStep_refresh_rowRead cipher chatgptAccountId race key input
  rw [hnext, RefreshPhase.rowRead_migrating, Option.some_or] at hrow
  have hfound : (raceStep cipher chatgptAccountId race (.refresh key input)).refreshedRow = some row := by
    rw [raceStep_refresh_row cipher chatgptAccountId key input hrow, recordOf_id,
      rowOf_of_mem Account.id h.keys (List.mem_of_find?_eq_some hfind), hselecting]
    rfl
  have hactive := List.find?_some hfind
  simp only [hasActiveChatgptId, Bool.and_eq_true, decide_eq_true_eq] at hactive
  refine ⟨keys_refresh cipher chatgptAccountId h, fun _ _ => ⟨row, hfound⟩, ?_, ?_, ?_, ?_⟩
  · intro hnone
    rw [hrow] at hnone
    cases hnone
  · rw [raceStep_refresh_phase, hnext]
    intro hsel
    cases hsel
  · intro accountId hsome
    rw [raceStep_refresh_phase, hnext] at hsome
    rw [hrow, ← hsome, RefreshPhase.rowRead_migrating]
  · intro accountId row' _ hrow'
    rw [raceStep_refresh_setTo, h.unread (h.selecting hselecting)]
    cases hfound.symm.trans hrow'
    exact hactive.2

theorem consistent_reading (h : Consistent race) {accountId : ℤ} (hread : race.phase.rowRead = some accountId)
    (hnext : (advance cipher chatgptAccountId key race.accounts input race.phase).2.rowRead = some accountId) :
    Consistent (raceStep cipher chatgptAccountId race (.refresh key input)) := by
  have hread' := h.reading accountId hread
  have hrow := @raceStep_refresh_rowRead cipher chatgptAccountId race key input
  rw [hnext, Option.some_or] at hrow
  have hkept := raceStep_refresh_kept cipher chatgptAccountId hread' hrow
  refine ⟨keys_refresh cipher chatgptAccountId h, ?_, ?_, ?_, ?_, ?_⟩
  · intro other _
    obtain ⟨row, hfound⟩ := h.found accountId hread'
    rw [hkept, hfound]
    exact ⟨race.phase.writeRow input.now row, rfl⟩
  · intro hnone
    rw [hrow] at hnone
    cases hnone
  · rw [raceStep_refresh_phase]
    intro hsel
    rw [hsel] at hnext
    cases hnext
  · intro other hsome
    rw [raceStep_refresh_phase, hnext] at hsome
    rw [hrow, hsome]
  · intro other row' _ hrow'
    rw [hkept, Option.map_eq_some_iff] at hrow'
    obtain ⟨row, hfound, rfl⟩ := hrow'
    rw [raceStep_refresh_setTo, writeRow_status, h.status accountId row hread hfound]
    intro encrypted hstoring
    rw [hstoring] at hnext
    obtain ⟨result, hfinished⟩ := @advance_storing cipher chatgptAccountId key race.accounts input row.id encrypted
    rw [hfinished] at hnext
    cases hnext

theorem consistent_refresh (key : SessionKey) (input : RefreshInput) (h : Consistent race) :
    Consistent (raceStep cipher chatgptAccountId race (.refresh key input)) := by
  obtain ⟨result, hnext⟩ | ⟨hselecting, record, hrecord, hnext⟩ | ⟨accountId, hread, hnext⟩ :=
    @advance_cases cipher chatgptAccountId key race.accounts input race.phase
  · exact consistent_finished cipher chatgptAccountId h hnext
  · exact consistent_selected cipher chatgptAccountId h hselecting hrecord hnext
  · exact consistent_reading cipher chatgptAccountId h hread hnext

end Refresh

theorem statusKept_write {race : Race} (writer : StatusWriter) (hkept : StatusKept race) :
    StatusKept (raceStep cipher chatgptAccountId race (.write writer)) := by
  intro result status row hphase hset hne hrow
  change (race.refreshedRow.bind writer.sets).or race.setTo = some status at hset
  rw [raceStep_write_refreshedRow, Option.map_eq_some_iff] at hrow
  obtain ⟨old, hold, rfl⟩ := hrow
  rw [hold, Option.bind_some] at hset
  rw [StatusWriter.writeRow_status]
  cases hsets : writer.sets old with
  | none =>
    rw [hsets, Option.none_or] at hset
    exact hkept result status old hphase hset hne hold
  | some written =>
    rw [hsets, Option.some_or] at hset
    exact Option.some.inj hset

theorem statusKept_refresh {race : Race} (key : SessionKey) (input : RefreshInput) (h : Consistent race)
    (hkept : StatusKept race) (hphase : ∀ accountId encrypted, race.phase ≠ .storing accountId encrypted) :
    StatusKept (raceStep cipher chatgptAccountId race (.refresh key input)) := by
  intro result status row hfinished hset hne hrow
  change race.setTo = some status at hset
  change (advance cipher chatgptAccountId key race.accounts input race.phase).2 = .finished result at hfinished
  have hread : (raceStep cipher chatgptAccountId race (.refresh key input)).row = race.row := by
    change (advance cipher chatgptAccountId key race.accounts input race.phase).2.rowRead.or race.row = race.row
    rw [hfinished, RefreshPhase.rowRead_finished, Option.none_or]
  cases hrace : race.row with
  | none =>
    rw [h.unread hrace] at hset
    cases hset
  | some accountId =>
    rw [raceStep_refresh_kept cipher chatgptAccountId hrace (hread.trans hrace), Option.map_eq_some_iff] at hrow
    obtain ⟨old, hold, rfl⟩ := hrow
    rw [writeRow_status (fun encrypted => hphase _ encrypted)]
    cases hp : race.phase with
    | selecting =>
      rw [h.selecting hp] at hrace
      cases hrace
    | finished result => exact hkept result status old hp hset hne hold
    | storing accountId encrypted => exact absurd hp (hphase accountId encrypted)
    | _ =>
      have hstatus := h.status _ old (by rw [hp]; rfl) hold
      rwa [hset] at hstatus

theorem statusKept_storing_iff {race : Race} {accountId : ℤ} {encrypted : OAuthTokens} {row : Account}
    (key : SessionKey) (input : RefreshInput) (h : Consistent race) (hphase : race.phase = .storing accountId encrypted)
    (hrow : race.refreshedRow = some row) :
    StatusKept (raceStep cipher chatgptAccountId race (.refresh key input)) ↔ row.status = active := by
  have hread : race.phase.rowRead = some accountId := by
    rw [hphase]
    rfl
  obtain ⟨result, hfinished⟩ : ∃ result, (raceStep cipher chatgptAccountId race (.refresh key input)).phase =
      .finished result := by
    change ∃ result, (advance cipher chatgptAccountId key race.accounts input race.phase).2 = .finished result
    rw [hphase]
    exact advance_storing accountId encrypted
  have hkept : (raceStep cipher chatgptAccountId race (.refresh key input)).row = some accountId := by
    change (raceStep cipher chatgptAccountId race (.refresh key input)).phase.rowRead.or race.row = some accountId
    rw [hfinished, RefreshPhase.rowRead_finished, Option.none_or, h.reading accountId hread]
  have hid : row.id = accountId := by
    rw [refreshedRow_of_row (h.reading accountId hread)] at hrow
    exact key_of_rowOf Account.id hrow
  have hstored : (raceStep cipher chatgptAccountId race (.refresh key input)).refreshedRow =
      some (refreshedRow encrypted input.now row) := by
    rw [raceStep_refresh_kept cipher chatgptAccountId (h.reading accountId hread) hkept, hrow, Option.map_some, hphase,
      RefreshPhase.writeRow, setWhere_of_pos (by simp [hid])]
  have hstatus := h.status accountId row hread hrow
  constructor
  · intro hall
    by_contra hne
    cases hset : race.setTo with
    | none =>
      rw [hset] at hstatus
      exact hne hstatus
    | some status =>
      rw [hset] at hstatus
      change row.status = status at hstatus
      have hactive := hall result status _ hfinished hset (hstatus ▸ hne) hstored
      exact hne (hstatus.trans hactive.symm)
  · intro hactive result status written _ hset hne _
    change race.setTo = some status at hset
    rw [hset, hactive] at hstatus
    exact absurd hstatus.symm hne

theorem statusKept_step_iff {race : Race} {action : RaceAction} (h : Consistent race) (hkept : StatusKept race) :
    StatusKept (raceStep cipher chatgptAccountId race action) ↔ StoresActiveRow race action := by
  cases action with
  | write writer => exact ⟨fun _ => trivial, fun _ => statusKept_write cipher chatgptAccountId writer hkept⟩
  | refresh key input =>
    by_cases hphase : ∃ accountId encrypted, race.phase = .storing accountId encrypted
    · obtain ⟨accountId, encrypted, hphase⟩ := hphase
      obtain ⟨row, hrow⟩ := h.found accountId (h.reading accountId (by rw [hphase]; rfl))
      rw [statusKept_storing_iff cipher chatgptAccountId key input h hphase hrow]
      constructor
      · intro hactive _ _ row' _ hrow'
        cases hrow.symm.trans hrow'
        exact hactive
      · intro hstores
        exact hstores accountId encrypted row hphase hrow
    · have hnot : ∀ accountId encrypted, race.phase ≠ .storing accountId encrypted := by
        intro accountId encrypted heq
        exact hphase ⟨accountId, encrypted, heq⟩
      refine ⟨fun _ => ?_, fun _ => statusKept_refresh cipher chatgptAccountId key input h hkept hnot⟩
      intro accountId encrypted _ heq
      exact absurd heq (hnot accountId encrypted)

/-- A status that another request set survives the refresh exactly in the runs whose final update finds its row
still active. -/
theorem status_kept_iff {accounts : Accounts} (hnodup : (accounts.map Account.id).Nodup) (actions : List RaceAction) :
    AllStates (raceStep cipher chatgptAccountId) StatusKept { accounts := accounts } actions ↔
      AllSteps (raceStep cipher chatgptAccountId) StoresActiveRow { accounts := accounts } actions := by
  apply allStates_iff_allSteps_of_invariant (raceStep cipher chatgptAccountId) Consistent
  · intro race action h
    cases action with
    | refresh key input => exact consistent_refresh cipher chatgptAccountId key input h
    | write writer => exact consistent_write cipher chatgptAccountId writer h
  · intro race action h hkept
    exact statusKept_step_iff cipher chatgptAccountId h hkept
  · exact ⟨hnodup, fun _ => nofun, fun _ => rfl, fun _ => rfl, fun _ => nofun, fun _ _ => nofun⟩
  · intro result status row hphase
    cases hphase

def workspaceAccount : Account :=
  { id := 1, chatgptAccountId := some (ofString "acc"), refreshTokenEncrypted := some (ofString "r0"),
    status := active }

def plainCipher : TokenCipher := ⟨id, fun plaintext _ _ => some plaintext, fun stored _ => some stored⟩

def refreshMove : RaceAction :=
  .refresh none { provider := fun _ => .ok ⟨ofString "a1", ofString "r1", []⟩ }

def refusedMove : RaceAction := .refresh none { provider := fun _ => .error ⟨ofString "invalid_grant", []⟩ }

def lateMark : RaceAction := .write (.markUnusable (ofString "acc") [])

theorem refused_refresh_keeps_mark :
    AllStates (raceStep plainCipher (ofString "acc")) StatusKept { accounts := [workspaceAccount] }
      [refreshMove, refreshMove, refreshMove, lateMark, refusedMove] := by
  refine (status_kept_iff plainCipher (ofString "acc") (by decide) _).mpr ⟨?_, ?_, ?_, trivial, ?_, trivial⟩
  all_goals
    intro accountId encrypted row hphase
    cases hphase

/-- The account is deactivated while the provider answers, and the refresh makes it active again. -/
theorem late_mark_is_undone :
    ¬ AllStates (raceStep plainCipher (ofString "acc")) StatusKept { accounts := [workspaceAccount] }
      [refreshMove, refreshMove, refreshMove, lateMark, refreshMove, refreshMove, refreshMove] := by
  intro h
  have hfinal := AllStates.final (raceStep plainCipher (ofString "acc")) h
  have hstatus := hfinal { refreshed := true } deactivated _ (by decide) (by decide) (by decide) rfl
  exact absurd hstatus (by decide)

end Race

end Tightrope.Auth.Oauth
