import Mathlib.Algebra.Group.Action.Defs
import Mathlib.Algebra.Order.BigOperators.Group.List
import Tightrope.Core.CivilTime
import Tightrope.Db.ApiKeyRepo
import Tightrope.Proxy.Headers
import Tightrope.Server.ApiKeyFilter

namespace Tightrope.Server

open Auth.ApiKeys Bytes Tightrope.Core CivilTime Db.ApiKeyRepo Proxy Proxy.Openai

section Parsing

def spaceFormat : List FormatItem := dateItems ++ .blank :: clockItems

def letterFormat : List FormatItem := dateItems ++ .literal 84 :: clockItems

def dropZ (value : Bytes) : Bytes := if value.getLast? = some 90 then value.dropLast else value

def parseUtcTimestamp (value : Bytes) : Option ℤ :=
  if value = [] then none
  else
    let text := dropZ (trimAscii value)
    match getTime spaceFormat text {} with
    | some parsed => some (timegm parsed)
    | none => (getTime letterFormat text {}).map timegm

def isApiKeyExpired (expiresAt : Option Bytes) (now : ℤ) : Bool :=
  match expiresAt with
  | none => false
  | some text =>
    if text = [] then false
    else
      match parseUtcTimestamp text with
      | none => false
      | some expiry => expiry ≤ now

def zoneRest : Zone → Bytes
  | .unmarked | .utc false => []
  | zone => zone.text

def Legible (stamp : Stamp) : Prop :=
  ∀ time, stamp.time = some time → time.second = none → zoneRest time.zone = []

instance (stamp : Stamp) : Decidable (Legible stamp) :=
  match h : stamp.time with
  | none => .isTrue (by simp [Legible, h])
  | some time => decidable_of_iff (time.second = none → zoneRest time.zone = []) (by simp [Legible, h])

def readText (stamp : Stamp) : Bytes :=
  dateText stamp ++ (stamp.time.map fun time => time.separator :: twoDigits time.hour ++ 58 :: twoDigits time.minute ++
    (secondText time.second ++ zoneRest time.zone)).getD []

variable {stamp : Stamp} {time : ClockTime}

def EndsInDigit (text : Bytes) : Prop := ∃ n, text.getLast? = some (digit n)

theorem EndsInDigit.append {back : Bytes} (h : EndsInDigit back) (front : Bytes) : EndsInDigit (front ++ back) := by
  obtain ⟨n, hlast⟩ := h
  exact ⟨n, by rw [List.getLast?_append, hlast, Option.some_or]⟩

theorem EndsInDigit.cons {back : Bytes} (h : EndsInDigit back) (c : UInt8) : EndsInDigit (c :: back) := h.append [c]

theorem endsInDigit_twoDigits (n : ℕ) : EndsInDigit (twoDigits n) := ⟨n, rfl⟩

theorem endsInDigit_second {front : Bytes} (h : EndsInDigit front) (second : Option (ℕ × List ℕ)) :
    EndsInDigit (front ++ secondText second) := by
  cases second with
  | none => rwa [secondText, List.append_nil]
  | some value =>
    obtain ⟨second, fraction⟩ := value
    apply EndsInDigit.append
    rw [secondText, fractionText]
    obtain rfl | ⟨init, d, rfl⟩ := List.eq_nil_or_concat' fraction
    · rw [if_pos rfl, List.append_nil]
      exact (endsInDigit_twoDigits second).cons 58
    · rw [if_neg (by simp), List.map_append]
      have hlast : EndsInDigit ([d].map digit) := ⟨d, rfl⟩
      exact ((hlast.append _).cons 46).append _

theorem dropZ_of_ne {text : Bytes} (h : text.getLast? ≠ some 90) : dropZ text = text := if_neg h

theorem EndsInDigit.dropZ {text : Bytes} (h : EndsInDigit text) : dropZ text = text := by
  obtain ⟨n, hlast⟩ := h
  apply dropZ_of_ne
  rw [hlast, ne_eq, Option.some_inj]
  intro heq
  have hnat := congrArg UInt8.toNat heq
  rw [digit_toNat] at hnat
  change _ = 90 at hnat
  omega

theorem dropZ_text (stamp : Stamp) : dropZ stamp.text = readText stamp := by
  unfold Stamp.text readText
  cases htime : stamp.time with
  | none =>
    rw [Option.map_none, Option.map_none, Option.getD_none, List.append_nil]
    have hday := ((endsInDigit_twoDigits stamp.day).cons 45).append
      (fourDigits stamp.year ++ 45 :: twoDigits stamp.month)
    exact hday.dropZ
  | some time =>
    rw [Option.map_some, Option.map_some, Option.getD_some, Option.getD_some, ClockTime.text]
    change dropZ (dateText stamp ++ _) = _
    rw [List.append_assoc (_ :: _ ++ _) (secondText _)]
    have hclock := (((endsInDigit_twoDigits time.minute).cons 58).append (time.separator :: twoDigits time.hour)).append
      (dateText stamp)
    have hend := endsInDigit_second hclock time.second
    cases hzone : time.zone with
    | unmarked =>
      rw [Zone.text, zoneRest, List.append_nil, ← List.append_assoc]
      exact hend.dropZ
    | utc lower =>
      cases lower with
      | false =>
        rw [Zone.text, zoneRest, if_neg (by decide), List.append_nil, ← List.append_assoc, ← List.append_assoc, dropZ,
          List.getLast?_concat, if_pos rfl, List.dropLast_concat, List.append_assoc, List.append_assoc]
      | true =>
        rw [Zone.text, zoneRest, if_pos rfl]
        · apply dropZ_of_ne
          rw [← List.append_assoc, ← List.append_assoc, List.getLast?_concat]
          decide
        · nofun
        · nofun
    | offset behind hours minutes colon =>
      rw [zoneRest]
      · have hminutes := (endsInDigit_twoDigits minutes).append ((if behind then 45 else 43) :: twoDigits hours ++
          (if colon then [58] else []))
        have hzone' : EndsInDigit (Zone.offset behind hours minutes colon).text := hminutes
        exact (((hzone'.append _).append _).append _).dropZ
      · nofun
      · nofun

theorem head?_zoneRest (zone : Zone) : ∀ c ∈ (zoneRest zone).head?, toUpper c ≠ 58 := by
  cases zone with
  | unmarked => nofun
  | utc lower =>
    cases lower with
    | false => nofun
    | true =>
      intro c hc
      cases hc
      decide
  | offset behind hours minutes colon =>
    intro c hc
    cases hc
    cases behind <;> decide

def stampTm (stamp : Stamp) : Tm :=
  match stamp.time with
  | none => dateTm stamp
  | some time => timeTm (dateTm stamp) time

theorem timegm_stampTm (stamp : Stamp) : timegm (stampTm stamp) = stamp.clock := by
  unfold stampTm Stamp.clock
  cases htime : stamp.time with
  | none => simp [timegm, dateTm]
  | some time =>
    cases hsecond : time.second with
    | none => simp [timegm, dateTm, timeTm, hsecond, add_assoc]
    | some value => simp [timegm, dateTm, timeTm, hsecond, add_assoc]

theorem getTime_blank_separator {c : UInt8} (hc : c = 84 ∨ c = 116) (rest : Bytes) (tm : Tm) :
    getTime (.blank :: clockItems) (c :: rest) tm = none := by
  have hspace : isSpace c = false := by
    obtain rfl | rfl := hc <;> decide
  have hdigit : readDigits 2 (c :: rest) = none := by
    have hletter : isDigit c = false := by
      obtain rfl | rfl := hc <;> decide
    simp [readDigits, hletter]
  have hblank : getTime (.blank :: clockItems) (c :: rest) tm = getTime clockItems ((c :: rest).dropWhile isSpace) tm :=
    rfl
  rw [hblank, List.dropWhile_cons_of_neg (by simp [hspace])]
  have hhour : readDigits Field.hour.digits (c :: rest) = none := hdigit
  rw [clockItems, getTime, hhour]
  exact List.cons_ne_nil c rest

theorem getTime_blank_space (rest : Bytes) (hour : ℕ) (tm : Tm) :
    getTime (.blank :: clockItems) (32 :: twoDigits hour ++ rest) tm =
      getTime clockItems (twoDigits hour ++ rest) tm := by
  have hblank : getTime (.blank :: clockItems) (32 :: twoDigits hour ++ rest) tm =
      getTime clockItems ((32 :: twoDigits hour ++ rest).dropWhile isSpace) tm := rfl
  rw [hblank]
  congr 1
  rw [twoDigits, List.cons_append, List.dropWhile_cons_of_pos (by decide), List.cons_append,
    List.dropWhile_cons_of_neg (by simp)]

theorem getTime_formats (h : stamp.Valid) (htime : stamp.time = some time) :
    let clock := getTime clockItems (twoDigits time.hour ++ 58 :: twoDigits time.minute ++
      (secondText time.second ++ zoneRest time.zone)) (dateTm stamp)
    getTime spaceFormat (readText stamp) {} = clock ∧ getTime letterFormat (readText stamp) {} = none ∨
      getTime spaceFormat (readText stamp) {} = none ∧ getTime letterFormat (readText stamp) {} = clock := by
  have hvalid := h.time time htime
  rw [readText, htime, Option.map_some, Option.getD_some, spaceFormat, letterFormat, getTime_date h, getTime_date h,
    if_neg (by simp), if_neg (by simp)]
  obtain hseparator | hseparator := hvalid.separator
  · left
    rw [hseparator]
    constructor
    · simp only [List.cons_append, List.append_assoc, ← getTime_blank_space]
    · exact getTime_of_ne (by decide) _
  · right
    constructor
    · exact getTime_blank_separator hseparator _ _
    · have hletter : toUpper time.separator = toUpper 84 := by
        obtain heq | heq := hseparator
        · rw [heq]
        · rw [heq]
          decide
      exact if_pos hletter

theorem parseUtcTimestamp_of_stamp (h : stamp.Valid) {value : Bytes} (hvalue : trimAscii value = stamp.text)
    (hne : value ≠ []) : parseUtcTimestamp value = if Legible stamp then some stamp.clock else none := by
  unfold parseUtcTimestamp
  rw [if_neg hne, hvalue, dropZ_text, ← timegm_stampTm]
  dsimp only
  cases htime : stamp.time with
  | none =>
    have hlegible : Legible stamp := by simp [Legible, htime]
    have hread := getTime_date h (.blank :: clockItems) []
    rw [if_pos rfl, List.append_nil] at hread
    rw [if_pos hlegible, readText, htime, Option.map_none, Option.getD_none, List.append_nil, spaceFormat, hread,
      stampTm, htime]
  | some time =>
    have hclock := getTime_clock (h.time time htime) (head?_zoneRest time.zone) (dateTm stamp) rfl
    have hlegible : Legible stamp ↔ ¬ (time.second = none ∧ zoneRest time.zone ≠ []) := by
      simp [Legible, htime]
    have htm : stampTm stamp = timeTm (dateTm stamp) time := by
      rw [stampTm, htime]
    obtain ⟨hspace, hletter⟩ | ⟨hspace, hletter⟩ := getTime_formats h htime
    · rw [hspace, hletter, hclock, htm]
      by_cases hopen : time.second = none ∧ zoneRest time.zone ≠ []
      · rw [if_pos hopen, if_neg fun hyes => hlegible.mp hyes hopen]
        rfl
      · rw [if_neg hopen, if_pos (hlegible.mpr hopen)]
    · rw [hspace, hletter, hclock, htm]
      by_cases hopen : time.second = none ∧ zoneRest time.zone ≠ []
      · rw [if_pos hopen, if_neg fun hyes => hlegible.mp hyes hopen]
        rfl
      · rw [if_neg hopen, if_pos (hlegible.mpr hopen)]
        rfl

end Parsing

section Filter

structure AuthDecision where
  allow : Bool := true
  status : ℕ := 200
  body : Bytes := []
  deriving DecidableEq

def denyAuth (status : ℕ) (message : String) : AuthDecision where
  allow := false
  status
  body := buildErrorEnvelope (ofString "invalid_api_key") (ofString message) (ofString "authentication_error") []

def denyServer (code message : String) : AuthDecision where
  allow := false
  status := 500
  body := buildErrorEnvelope (ofString code) (ofString message) (ofString "server_error") []

structure ProxyDb where
  opens : Bool := true
  apiKeyAuthEnabled : Option Bool := some true
  lookup : Access := {}
  tables : Tables

def findHeaderCaseInsensitive (headers : HeaderMap) (key : Bytes) : Option Bytes :=
  (headers.find? fun header => equalsCaseInsensitive header.1 key).map Prod.snd

def extractBearerToken (authorization : Option Bytes) : Option Bytes :=
  match authorization with
  | none => none
  | some value =>
    let value := trimAscii value
    if value.length < 7 then none
    else if !startsWith (toLowerAscii value) (ofString "bearer ") then none
    else
      let token := trimAscii (value.drop 7)
      if token = [] then none else some token

def hashKey (digest : Bytes → Option Bytes) (plainKey : Bytes) : Option Bytes :=
  if plainKey = [] then none else digest plainKey

variable (digest : Bytes → Option Bytes) (db : ProxyDb) (headers : HeaderMap)

def validateProxyApiKeyImpl (now : ℤ) : AuthDecision × Option ApiKeyRecord :=
  if db.opens = false then (denyServer "db_unavailable" "Database unavailable", none)
  else
    match db.apiKeyAuthEnabled with
    | none => (denyServer "settings_unavailable" "Failed to load settings", none)
    | some enabled =>
      if enabled = false then ({}, none)
      else
        match extractBearerToken (findHeaderCaseInsensitive headers (ofString "authorization")) with
        | none => (denyAuth 401 "Missing API key in Authorization header", none)
        | some token =>
          match hashKey digest token with
          | none => (denyAuth 401 "Invalid API key", none)
          | some keyHash =>
            match (db.tables.getApiKeyByHash db.lookup keyHash).2 with
            | none => (denyAuth 401 "Invalid API key", none)
            | some record =>
              if record.isActive = false then (denyAuth 401 "Invalid API key", none)
              else if isApiKeyExpired record.expiresAt now then (denyAuth 401 "API key has expired", none)
              else ({}, some record)

def validateProxyApiKeyRequest (path : Bytes) (now : ℤ) : AuthDecision :=
  if isProxyApiKeyProtectedPath path then (validateProxyApiKeyImpl digest db headers now).1 else {}

def resolveApiKeyModelPolicy (json : StringListJson) (now : ℤ) : ApiKeyModelPolicy :=
  match validateProxyApiKeyImpl digest db headers now with
  | (_, none) => {}
  | (decision, some record) =>
    if decision.allow = false then {}
    else
      { keyId := some record.keyId
        allowedModels := deserializeAllowedModels json record.allowedModels
        enforcedModel := record.enforcedModel.filter fun model => !model.isEmpty
        enforcedReasoningEffort := record.enforcedReasoningEffort.filter fun effort => !effort.isEmpty }

def keyInForce : Option ApiKeyRecord :=
  if db.opens = false ∨ db.apiKeyAuthEnabled ≠ some true then none
  else
    (((extractBearerToken (findHeaderCaseInsensitive headers (ofString "authorization"))).bind (hashKey digest)).bind
      fun keyHash => (db.tables.getApiKeyByHash db.lookup keyHash).2).filter ApiKeyRecord.isActive

variable {digest db headers} {now : ℤ} {record : ApiKeyRecord}

theorem validate_eq_some : (validateProxyApiKeyImpl digest db headers now).2 = some record ↔
    keyInForce digest db headers = some record ∧ isApiKeyExpired record.expiresAt now = false := by
  unfold validateProxyApiKeyImpl keyInForce
  by_cases hopens : db.opens = false
  · simp [hopens]
  · cases hsettings : db.apiKeyAuthEnabled with
    | none => simp [hopens]
    | some enabled =>
      cases enabled with
      | false => simp [hopens]
      | true =>
        cases extractBearerToken (findHeaderCaseInsensitive headers (ofString "authorization")) with
        | none => simp [hopens]
        | some token =>
          cases hhash : hashKey digest token with
          | none => simp [hopens, hhash]
          | some keyHash =>
            cases hfound : (db.tables.getApiKeyByHash db.lookup keyHash).2 with
            | none => simp [hopens, hhash, hfound]
            | some found =>
              have hkept : (some found).filter ApiKeyRecord.isActive = some record ↔
                  found = record ∧ found.isActive = true := by
                rw [Option.filter_eq_some_iff]
                constructor
                · rintro ⟨heq, hactive⟩
                  obtain rfl := Option.some_inj.mp heq
                  exact ⟨rfl, hactive⟩
                · rintro ⟨rfl, hactive⟩
                  exact ⟨rfl, hactive⟩
              simp only [hopens, hhash, Option.bind_some, hfound, ne_eq, not_true_eq_false, or_self, if_false, hkept,
                Bool.true_eq_false]
              by_cases hactive : found.isActive = true
              · by_cases hexpired : isApiKeyExpired found.expiresAt now = true
                · rw [if_neg (by simp [hactive]), if_pos hexpired]
                  constructor
                  · nofun
                  · rintro ⟨⟨rfl, -⟩, hfresh⟩
                    rw [hexpired] at hfresh
                    cases hfresh
                · rw [if_neg (by simp [hactive]), if_neg hexpired]
                  constructor
                  · intro heq
                    obtain rfl := Option.some_inj.mp heq
                    exact ⟨⟨rfl, hactive⟩, by simpa using hexpired⟩
                  · rintro ⟨⟨rfl, -⟩, -⟩
                    rfl
              · rw [if_pos (by simpa using hactive)]
                constructor
                · nofun
                · rintro ⟨⟨-, hyes⟩, -⟩
                  exact absurd hyes hactive

theorem allow_of_validate (h : (validateProxyApiKeyImpl digest db headers now).2 = some record) :
    (validateProxyApiKeyImpl digest db headers now).1.allow = true := by
  generalize hresult : validateProxyApiKeyImpl digest db headers now = result at h ⊢
  unfold validateProxyApiKeyImpl at hresult
  repeat' split at hresult
  all_goals subst hresult
  all_goals first
    | rfl
    | cases h

theorem resolve_of_validate (json : StringListJson)
    (h : (validateProxyApiKeyImpl digest db headers now).2 = some record) :
    (resolveApiKeyModelPolicy digest db headers json now).allowedModels =
      deserializeAllowedModels json record.allowedModels := by
  have hallow := allow_of_validate h
  rw [resolveApiKeyModelPolicy]
  generalize validateProxyApiKeyImpl digest db headers now = result at h hallow
  obtain ⟨decision, found⟩ := result
  cases h
  exact congrArg ApiKeyModelPolicy.allowedModels (if_neg (by simpa using hallow))

end Filter

section FailsClosed

def DenotesAfter (text : Bytes) (now : ℤ) : Prop :=
  ∃ stamp : Stamp, stamp.Valid ∧ trimAscii text = stamp.text ∧ (now : ℚ) < stamp.instant

def ExpiryRespected (expiresAt : Option Bytes) (now : ℤ) : Prop :=
  ∀ text, expiresAt = some text → text ≠ [] → DenotesAfter text now

def IsEmptyList (text : Bytes) : Prop := text.filter (fun c => !(c = 32 || c = 9 || c = 10 || c = 13)) = [91, 93]

instance : DecidablePred IsEmptyList := fun _ => inferInstanceAs (Decidable (_ = _))

def Unlisted (allowedModels : Option Bytes) : Prop :=
  ∀ text, allowedModels = some text → text ≠ [] → IsEmptyList text

variable (json : StringListJson) (digest : Bytes → Option Bytes) (db : ProxyDb) (headers : HeaderMap)

/-- What the restrictions of a key promise about every request that is admitted with it. -/
def RestrictionsFailClosed : Prop :=
  ∀ now record, (validateProxyApiKeyImpl digest db headers now).2 = some record →
    ExpiryRespected record.expiresAt now ∧
      ((resolveApiKeyModelPolicy digest db headers json now).allowedModels = [] → Unlisted record.allowedModels)

def ExpiryReadable (expiresAt : Option Bytes) : Prop :=
  ∀ text, expiresAt = some text → text ≠ [] → ∃ stamp : Stamp, stamp.Valid ∧ trimAscii text = stamp.text ∧
    Legible stamp ∧ (stamp.time.map fun time => time.zone.ahead).getD 0 ≤ 0

def ModelsReadable (allowedModels : Option Bytes) : Prop :=
  ∀ text, allowedModels = some text → text ≠ [] → ¬ IsEmptyList text →
    ∃ names, json.read text = some names ∧ names ≠ []

def RestrictionsReadable : Prop :=
  ∀ record, keyInForce digest db headers = some record →
    ExpiryReadable record.expiresAt ∧ ModelsReadable json record.allowedModels

variable {json digest db headers} {expiresAt : Option Bytes} {now : ℤ}

theorem epochDays_le {stamp : Stamp} (h : stamp.Valid) :
    epochDays stamp.year stamp.month stamp.day ≤ 4000000 := by
  have hmonths : daysBeforeMonth stamp.year stamp.month ≤ 12 * 31 := by
    have hsum := List.sum_le_card_nsmul ((List.range' 1 (stamp.month - 1)).map (daysInMonth stamp.year)) 31 (by
      intro days hdays
      obtain ⟨month, -, rfl⟩ := List.mem_map.mp hdays
      exact daysInMonth_le _ _)
    rw [List.length_map, List.length_range', smul_eq_mul] at hsum
    have hmonth := h.month.2
    exact hsum.trans (Nat.mul_le_mul_right 31 (by omega))
  have hyear := h.year
  have hday := h.day.2.trans (daysInMonth_le stamp.year stamp.month)
  unfold epochDays daysBeforeYear
  omega

theorem fractionValue_mem {fraction : List ℕ} (h : ∀ d ∈ fraction, d ≤ 9) :
    0 ≤ fractionValue fraction ∧ fractionValue fraction ≤ 1 := by
  induction fraction with
  | nil => exact ⟨le_rfl, zero_le_one⟩
  | cons d fraction ih =>
    obtain ⟨hlow, hhigh⟩ := ih fun e he => h e (List.mem_cons_of_mem d he)
    have hd : (d : ℚ) ≤ 9 := by exact_mod_cast h d List.mem_cons_self
    have hd' : (0 : ℚ) ≤ d := Nat.cast_nonneg d
    rw [fractionValue, List.foldr_cons, ← fractionValue]
    constructor
    · linarith
    · linarith

theorem fraction_mem {stamp : Stamp} (h : stamp.Valid) :
    let fraction := fractionValue ((stamp.time.bind fun time => time.second.map Prod.snd).getD [])
    0 ≤ fraction ∧ fraction ≤ 1 := by
  apply fractionValue_mem
  intro d hd
  cases htime : stamp.time with
  | none =>
    rw [htime] at hd
    exact absurd hd List.not_mem_nil
  | some time =>
    cases hsecond : time.second with
    | none =>
      rw [htime, Option.bind_some, hsecond] at hd
      exact absurd hd List.not_mem_nil
    | some value =>
      rw [htime, Option.bind_some, hsecond] at hd
      exact ((h.time time htime).second value.1 value.2 hsecond).2 d hd

def Stamp.ahead (stamp : Stamp) : ℤ := (stamp.time.map fun time => time.zone.ahead).getD 0

theorem ahead_cases {stamp : Stamp} (h : stamp.Valid) :
    Stamp.ahead stamp ≤ 0 ∧ -86400 ≤ Stamp.ahead stamp ∨ 60 ≤ Stamp.ahead stamp := by
  unfold Stamp.ahead
  cases htime : stamp.time with
  | none => exact .inl ⟨le_rfl, by decide⟩
  | some time =>
    rw [Option.map_some, Option.getD_some]
    cases hzone : time.zone with
    | unmarked => exact .inl ⟨le_rfl, by decide⟩
    | utc lower => exact .inl ⟨le_rfl, neg_nonpos.mpr (Int.natCast_nonneg 86400)⟩
    | offset behind hours minutes colon =>
      have hvalid := (h.time time htime).zone
      rw [hzone] at hvalid
      obtain ⟨hhours, hminutes⟩ := hvalid
      rw [Zone.ahead]
      cases behind with
      | true =>
        left
        rw [if_pos rfl]
        omega
      | false =>
        rw [if_neg (by decide)]
        omega

theorem instant_lt {stamp : Stamp} (h : stamp.Valid) : stamp.instant < (10 ^ 12 : ℤ) := by
  have hclock : stamp.clock ≤ 4000000 * 86400 + 86400 := by
    have hdays := epochDays_le h
    unfold Stamp.clock
    cases htime : stamp.time with
    | none =>
      rw [Option.map_none, Option.getD_none]
      omega
    | some time =>
      have hvalid := h.time time htime
      have hhour := hvalid.hour
      have hminute := hvalid.minute
      rw [Option.map_some, Option.getD_some]
      cases hsecond : time.second with
      | none =>
        rw [Option.map_none, Option.getD_none]
        omega
      | some value =>
        have hlow := (hvalid.second value.1 value.2 hsecond).1
        rw [Option.map_some, Option.getD_some]
        omega
  have hfraction := (fraction_mem h).2
  have hahead : -86400 ≤ Stamp.ahead stamp := by
    obtain ⟨-, hlow⟩ | hhigh := ahead_cases h
    · exact hlow
    · omega
  have hclock' : (stamp.clock : ℚ) ≤ 4000000 * 86400 + 86400 := by exact_mod_cast hclock
  have hahead' : (-86400 : ℚ) ≤ Stamp.ahead stamp := by exact_mod_cast hahead
  rw [Stamp.instant, ← Stamp.ahead]
  push_cast
  linarith

theorem isApiKeyExpired_some {text : Bytes} (hne : text ≠ []) :
    isApiKeyExpired (some text) now = match parseUtcTimestamp text with
      | none => false
      | some expiry => decide (expiry ≤ now) :=
  if_neg hne

theorem exists_not_expired (expiresAt : Option Bytes) (bound : ℤ) :
    (∃ now, isApiKeyExpired expiresAt now = false) ∧
      ((∀ text, expiresAt = some text → text ≠ [] → parseUtcTimestamp text = none) →
        isApiKeyExpired expiresAt bound = false) := by
  cases expiresAt with
  | none => exact ⟨⟨0, rfl⟩, fun _ => rfl⟩
  | some text =>
    by_cases hne : text = []
    · subst hne
      exact ⟨⟨0, rfl⟩, fun _ => rfl⟩
    · rw [isApiKeyExpired_some hne]
      constructor
      · cases hparse : parseUtcTimestamp text with
        | none => exact ⟨0, by rw [isApiKeyExpired_some hne, hparse]⟩
        | some expiry =>
          refine ⟨expiry - 1, ?_⟩
          rw [isApiKeyExpired_some hne, hparse]
          exact decide_eq_false (by omega)
      · intro hnone
        rw [hnone text rfl hne]

theorem expiry_respected_iff (expiresAt : Option Bytes) :
    (∀ now, isApiKeyExpired expiresAt now = false → ExpiryRespected expiresAt now) ↔ ExpiryReadable expiresAt := by
  constructor
  · intro hrespected text htext hne
    subst htext
    cases hparse : parseUtcTimestamp text with
    | none =>
      -- Such a key is admitted at a time that no text denotes a later one than.
      have hfresh : isApiKeyExpired (some text) (10 ^ 12) = false := by
        rw [isApiKeyExpired_some hne, hparse]
      obtain ⟨stamp, hvalid, -, hafter⟩ := hrespected _ hfresh text rfl hne
      exact absurd hafter (not_lt.mpr (instant_lt hvalid).le)
    | some expiry =>
      have hfresh : isApiKeyExpired (some text) (expiry - 1) = false := by
        rw [isApiKeyExpired_some hne, hparse]
        exact decide_eq_false (by omega)
      obtain ⟨stamp, hvalid, hread, hafter⟩ := hrespected _ hfresh text rfl hne
      rw [parseUtcTimestamp_of_stamp hvalid hread hne] at hparse
      by_cases hlegible : Legible stamp
      · rw [if_pos hlegible] at hparse
        obtain rfl := Option.some_inj.mp hparse
        refine ⟨stamp, hvalid, hread, hlegible, ?_⟩
        have hfraction := (fraction_mem hvalid).2
        have hlt : (Stamp.ahead stamp : ℚ) < 2 := by
          rw [Stamp.instant, ← Stamp.ahead] at hafter
          push_cast at hafter
          linarith
        have hlt' : Stamp.ahead stamp < 2 := by exact_mod_cast hlt
        obtain ⟨hbehind, -⟩ | hahead := ahead_cases hvalid
        · exact hbehind
        · omega
      · rw [if_neg hlegible] at hparse
        cases hparse
  · intro hreadable now hfresh text htext hne
    subst htext
    obtain ⟨stamp, hvalid, hread, hlegible, hahead⟩ := hreadable text rfl hne
    refine ⟨stamp, hvalid, hread, ?_⟩
    rw [isApiKeyExpired_some hne, parseUtcTimestamp_of_stamp hvalid hread hne, if_pos hlegible, decide_eq_false_iff_not,
      not_le] at hfresh
    have hfraction := (fraction_mem hvalid).1
    have hahead' : (Stamp.ahead stamp : ℚ) ≤ 0 := by exact_mod_cast hahead
    have hfresh' : (now : ℚ) < stamp.clock := by exact_mod_cast hfresh
    rw [Stamp.instant, ← Stamp.ahead]
    linarith

theorem unrestricted_iff (allowedModels : Option Bytes) :
    (deserializeAllowedModels json allowedModels = [] → Unlisted allowedModels) ↔
      ModelsReadable json allowedModels := by
  unfold Unlisted ModelsReadable
  constructor
  · intro hunlisted text htext hne hlist
    subst htext
    have hmodels : deserializeAllowedModels json (some text) ≠ [] := fun hnil => hlist (hunlisted hnil text rfl hne)
    rw [deserializeAllowedModels, if_neg hne] at hmodels
    cases hread : json.read text with
    | none => exact absurd (by rw [hread]; rfl) hmodels
    | some names => exact ⟨names, rfl, by rwa [hread] at hmodels⟩
  · intro hreadable hnil text htext hne
    subst htext
    by_contra hlist
    obtain ⟨names, hread, hnames⟩ := hreadable text rfl hne hlist
    rw [deserializeAllowedModels, if_neg hne, hread] at hnil
    exact hnames hnil

theorem fail_closed_iff (json : StringListJson) (digest : Bytes → Option Bytes) (db : ProxyDb) (headers : HeaderMap) :
    RestrictionsFailClosed json digest db headers ↔ RestrictionsReadable json digest db headers := by
  constructor
  · intro hclosed record hforce
    have hadmitted : ∀ now, isApiKeyExpired record.expiresAt now = false →
        (validateProxyApiKeyImpl digest db headers now).2 = some record :=
      fun now hfresh => validate_eq_some.mpr ⟨hforce, hfresh⟩
    constructor
    · exact (expiry_respected_iff _).mp fun now hfresh => (hclosed now record (hadmitted now hfresh)).1
    · obtain ⟨now, hfresh⟩ := (exists_not_expired record.expiresAt 0).1
      have hpolicy := (hclosed now record (hadmitted now hfresh)).2
      rw [resolve_of_validate json (hadmitted now hfresh)] at hpolicy
      exact (unrestricted_iff _).mp hpolicy
  · intro hreadable now record hadmitted
    obtain ⟨hforce, hfresh⟩ := validate_eq_some.mp hadmitted
    obtain ⟨hexpiry, hmodels⟩ := hreadable record hforce
    rw [resolve_of_validate json hadmitted]
    exact ⟨(expiry_respected_iff _).mpr hexpiry now hfresh, (unrestricted_iff _).mpr hmodels⟩

end FailsClosed

section Names

def leftRaw (c : UInt8) : Bool := c < 32 && c ≠ 8 && c ≠ 9 && c ≠ 10 && c ≠ 12 && c ≠ 13

def HasRaw (names : List Bytes) : Prop := ∃ name ∈ names, ∃ c ∈ name, leftRaw c

instance : DecidablePred HasRaw := fun names =>
  decidable_of_iff (names.any (fun name => name.any leftRaw) = true) (by simp [HasRaw])

/-- The JSON library on lists of names: it reads back what it wrote, unless a raw control character is in it. -/
structure NameLists (json : StringListJson) : Prop where
  reads_back : ∀ names, ¬ HasRaw names → ∃ text, text ≠ [] ∧ json.write names = some text ∧ json.read text = some names
  refuses : ∀ names text, HasRaw names → json.write names = some text → json.read text = none

/-- The models that are stored come back: sorted, without repetitions, trimmed and none of them empty. -/
def ModelsComeBack (json : StringListJson) (models : Option (List Bytes)) : Prop :=
  let stored := deserializeAllowedModels json (serializeAllowedModels json (normalizeAllowedModels models))
  stored.Pairwise (· < ·) ∧ ∀ model, model ∈ stored ↔ model ≠ [] ∧ ∃ name ∈ models.getD [], trimAscii name = model

variable {json : StringListJson} {models : Option (List Bytes)}

theorem deserialize_of_hasRaw (h : NameLists json) (hraw : HasRaw (normalizeAllowedModels models)) :
    deserializeAllowedModels json (serializeAllowedModels json (normalizeAllowedModels models)) = [] := by
  have hne : normalizeAllowedModels models ≠ [] := by
    obtain ⟨name, hname, -⟩ := hraw
    exact List.ne_nil_of_mem hname
  rw [serializeAllowedModels, if_neg hne]
  cases hwrite : json.write (normalizeAllowedModels models) with
  | none => rfl
  | some text =>
    rw [deserializeAllowedModels, h.refuses _ _ hraw hwrite]
    exact ite_self []

theorem deserialize_of_not_hasRaw (h : NameLists json) (hclean : ¬ HasRaw (normalizeAllowedModels models)) :
    deserializeAllowedModels json (serializeAllowedModels json (normalizeAllowedModels models)) =
      normalizeAllowedModels models := by
  rw [serializeAllowedModels]
  by_cases hnil : normalizeAllowedModels models = []
  · rw [if_pos hnil, hnil]
    rfl
  · obtain ⟨text, htext, hwrite, hread⟩ := h.reads_back _ hclean
    rw [if_neg hnil, hwrite, deserializeAllowedModels, if_neg htext, hread]
    rfl

theorem hasRaw_normalizeAllowedModels :
    HasRaw (normalizeAllowedModels models) ↔ HasRaw ((models.getD []).map trimAscii) := by
  constructor
  · rintro ⟨model, hmodel, hraw⟩
    exact ⟨model, List.mem_map.mpr (mem_normalizeAllowedModels.mp hmodel).2, hraw⟩
  · rintro ⟨model, hmodel, c, hc, hraw⟩
    exact ⟨model, mem_normalizeAllowedModels.mpr ⟨List.ne_nil_of_mem hc, List.mem_map.mp hmodel⟩, c, hc, hraw⟩

theorem models_come_back_iff (h : NameLists json) (models : Option (List Bytes)) :
    ModelsComeBack json models ↔ ¬ HasRaw ((models.getD []).map trimAscii) := by
  rw [← hasRaw_normalizeAllowedModels]
  constructor
  · rintro ⟨-, hmem⟩ hraw
    rw [deserialize_of_hasRaw h hraw] at hmem
    obtain ⟨model, hmodel, -⟩ := hraw
    exact absurd ((hmem model).mpr (mem_normalizeAllowedModels.mp hmodel)) List.not_mem_nil
  · intro hclean
    have hstored := deserialize_of_not_hasRaw h hclean
    rw [ModelsComeBack, hstored]
    exact ⟨sorted_normalizeAllowedModels models, fun _ => mem_normalizeAllowedModels⟩

end Names

section Restrictions

/-- Restrictions hold of all requests exactly when both texts of the key can be read, and model lists come back exactly
when the library's writer escapes all of their characters. -/
theorem restrictions_fail_closed_iff (json : StringListJson) (hjson : NameLists json) :
    (∀ digest db headers, RestrictionsFailClosed json digest db headers ↔ RestrictionsReadable json digest db headers) ∧
      ∀ models, ModelsComeBack json models ↔ ¬ HasRaw ((models.getD []).map trimAscii) :=
  ⟨fail_closed_iff json, models_come_back_iff hjson⟩

def sampleKey (expiresAt allowedModels : Option Bytes) : Tables where
  keys :=
    [{ id := 1
       keyId := ofString "k"
       keyHash := ofString "h"
       keyPrefix := some (ofString "sk-clb-")
       name := ofString "key"
       allowedModels
       expiresAt }]
  keySequence := 1
  consistent := ⟨List.nodup_singleton _, List.nodup_singleton _, List.nodup_singleton _, by simp, by simp⟩

def sampleHeaders : HeaderMap := [(ofString "Authorization", ofString "Bearer token")]

def sampleDigest : Bytes → Option Bytes := fun _ => some (ofString "h")

def packNames (names : List Bytes) : Bytes := 0 :: names.flatMap fun name => (name.flatMap fun c => [1, c]) ++ [0]

def unpackNames : Bytes → Bytes → List Bytes
  | 1 :: c :: rest, name => unpackNames rest (name ++ [c])
  | 0 :: rest, name => name :: unpackNames rest []
  | _, _ => []

theorem unpackNames_name (name start rest : Bytes) :
    unpackNames ((name.flatMap fun c => [1, c]) ++ 0 :: rest) start = (start ++ name) :: unpackNames rest [] := by
  induction name generalizing start with
  | nil =>
    rw [List.append_nil]
    rfl
  | cons c name ih =>
    have hstep : unpackNames (((c :: name).flatMap fun c => [1, c]) ++ 0 :: rest) start =
        unpackNames ((name.flatMap fun c => [1, c]) ++ 0 :: rest) (start ++ [c]) := rfl
    rw [hstep, ih, List.append_assoc, List.singleton_append]

theorem unpackNames_packNames (names : List Bytes) : unpackNames (packNames names).tail [] = names := by
  rw [packNames, List.tail_cons]
  induction names with
  | nil => rfl
  | cons name names ih =>
    rw [List.flatMap_cons, List.append_assoc, List.singleton_append, unpackNames_name, List.nil_append, ih]

def sampleModels : List Bytes := [ofString "a", ofString "b"]

def sampleModelsText : Bytes := ofString "[\"a\",\"b\"]"

def sampleNameLists : StringListJson where
  write names := some (if names = sampleModels then sampleModelsText else packNames names)
  read text :=
    let names := if text = sampleModelsText then sampleModels else unpackNames text.tail []
    if HasRaw names then none else some names

theorem read_sampleNameLists (names : List Bytes) :
    sampleNameLists.read (if names = sampleModels then sampleModelsText else packNames names) =
      if HasRaw names then none else some names := by
  unfold sampleNameLists
  dsimp only
  by_cases hsample : names = sampleModels
  · rw [if_pos hsample, if_pos rfl, hsample]
  · have hne : packNames names ≠ sampleModelsText := by
      intro heq
      exact absurd (congrArg List.head? heq) (by rw [packNames, List.head?_cons]; decide)
    rw [if_neg hsample, if_neg hne, unpackNames_packNames]

theorem nameLists_sampleNameLists : NameLists sampleNameLists where
  reads_back names hclean := by
    refine ⟨_, ?_, rfl, ?_⟩
    · split_ifs
      · decide
      · exact List.cons_ne_nil _ _
    · rw [read_sampleNameLists, if_neg hclean]
  refuses names text hraw hwrite := by
    obtain rfl := Option.some_inj.mp hwrite
    rw [read_sampleNameLists, if_pos hraw]

def zonedText : Bytes := ofString "2026-01-31T10:00:00-02:00"

def zonedStamp : Stamp := ⟨2026, 1, 31, some ⟨84, 10, 0, some (0, []), .offset true 2 0 true⟩⟩

theorem zonedStamp_valid : zonedStamp.Valid where
  year := by decide
  month := by decide
  day := by decide
  time time htime := by
    obtain rfl := Option.some_inj.mp htime
    exact ⟨by decide, by decide, by decide, fun _ _ heq => by
      obtain ⟨rfl, rfl⟩ := Prod.mk.inj (Option.some_inj.mp heq)
      exact ⟨by decide, nofun⟩, by decide, by decide⟩

def zonedDb : ProxyDb := { tables := sampleKey (some zonedText) (some sampleModelsText) }

theorem restrictions_of_zoned_key :
    RestrictionsFailClosed sampleNameLists sampleDigest zonedDb sampleHeaders ∧
      ModelsComeBack sampleNameLists (some [ofString " b", ofString "a", ofString "b"]) := by
  obtain ⟨hclosed, hmodels⟩ := restrictions_fail_closed_iff sampleNameLists nameLists_sampleNameLists
  constructor
  · apply (hclosed _ _ _).mpr
    intro record hforce
    have hkey : (keyInForce sampleDigest zonedDb sampleHeaders).map (fun record => (record.expiresAt,
        record.allowedModels)) = some (some zonedText, some sampleModelsText) := by decide
    rw [hforce, Option.map_some, Option.some_inj, Prod.mk.injEq] at hkey
    rw [hkey.1, hkey.2]
    constructor
    · intro text htext _
      obtain rfl := Option.some_inj.mp htext
      exact ⟨zonedStamp, zonedStamp_valid, by decide, by decide, by decide⟩
    · intro text htext _ _
      obtain rfl := Option.some_inj.mp htext
      exact ⟨sampleModels, by decide, by decide⟩
  · exact (hmodels _).mpr (by decide)

theorem head?_text (stamp : Stamp) : stamp.text.head? = some (digit (stamp.year / 1000)) := rfl

/-- A text that is no date admits the key at any time. -/
theorem unreadable_expiry_is_admitted :
    ¬ RestrictionsFailClosed sampleNameLists sampleDigest { tables := sampleKey (some (ofString "never")) none }
      sampleHeaders := by
  intro hclosed
  have hforce : ∃ record, keyInForce sampleDigest { tables := sampleKey (some (ofString "never")) none } sampleHeaders =
      some record ∧ record.expiresAt = some (ofString "never") := ⟨_, rfl, by decide⟩
  obtain ⟨record, hforce, hexpiry⟩ := hforce
  have hadmitted := validate_eq_some.mpr ⟨hforce, by rw [hexpiry]; exact (show
    isApiKeyExpired (some (ofString "never")) 0 = false by decide)⟩
  obtain ⟨stamp, -, hread, -⟩ := (hclosed 0 record hadmitted).1 _ hexpiry (by decide)
  have hhead := head?_text stamp
  rw [← hread] at hhead
  have hnat := congrArg (Option.map UInt8.toNat) hhead
  rw [Option.map_some, digit_toNat] at hnat
  have hn : 110 = 48 + stamp.year / 1000 % 10 := Option.some_inj.mp hnat
  omega

end Restrictions

end Tightrope.Server
