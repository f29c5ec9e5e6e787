import Tightrope.Core.Ascii
import Tightrope.Library.BitGroups
import Tightrope.Library.FlatMap
import Tightrope.Library.Separators

namespace Tightrope.Auth.Oauth

open Bytes Tightrope.Core Separators

def decodeHex (c : UInt8) : Option UInt8 :=
  if 48 ≤ c ∧ c ≤ 57 then some (c - 48)
  else if 97 ≤ c ∧ c ≤ 102 then some (10 + (c - 97))
  else if 65 ≤ c ∧ c ≤ 70 then some (10 + (c - 65))
  else none

def decodePlus (ch : UInt8) : UInt8 := if ch = 43 then 32 else ch

def percentDecode : Bytes → Bytes
  | [] => []
  | [ch] => [decodePlus ch]
  | [ch, next] => [decodePlus ch, decodePlus next]
  | ch :: high :: low :: rest =>
    if ch = 37 then
      match decodeHex high, decodeHex low with
      | some upper, some lower => ((upper <<< 4) ||| lower) :: percentDecode rest
      | _, _ => 37 :: percentDecode (high :: low :: rest)
    else decodePlus ch :: percentDecode (high :: low :: rest)

def emplaceField (fields : FlatMap Bytes Bytes) (token : Bytes) : FlatMap Bytes Bytes :=
  let key := percentDecode (token.takeWhile (· ≠ 61))
  if (fields.find? key).isSome then fields
  else fields.insert key (percentDecode ((token.dropWhile (· ≠ 61)).drop 1))

def queryTokens (query : Bytes) : List Bytes :=
  let tokens := query.splitOn 38
  if tokens.getLast? = some [] then tokens.dropLast else tokens

def parseQuery (query : Bytes) : FlatMap Bytes Bytes := (queryTokens query).foldl emplaceField .empty

def parseCallbackUrl (callbackUrl : Bytes) : FlatMap Bytes Bytes := parseQuery ((callbackUrl.dropWhile (· ≠ 63)).drop 1)

def queryField (fields : FlatMap Bytes Bytes) (key : String) : Bytes := (fields.find? (ofString key)).getD []

example : parseCallbackUrl (ofString "http://x/?code=a%20b&state=") =
    (FlatMap.empty.insert (ofString "code") (ofString "a b")).insert (ofString "state") [] := by decide

section Encoding

def kUrlHex : Bytes := ofString "0123456789ABCDEF"

def isUnreserved (c : UInt8) : Bool :=
  (97 ≤ c && c ≤ 122) || (65 ≤ c && c ≤ 90) || (48 ≤ c && c ≤ 57) || c = 45 || c = 95 || c = 46 || c = 126

def encodedByte (c : UInt8) : Bytes :=
  if isUnreserved c then [c]
  else [37, kUrlHex.getD ((c >>> 4) &&& 0x0F).toNat 0, kUrlHex.getD (c &&& 0x0F).toNat 0]

def urlEncode (value : Bytes) : Bytes := value.flatMap encodedByte

def parameter (pair : Bytes × Bytes) : Bytes := urlEncode pair.1 ++ 61 :: urlEncode pair.2

def callbackUrl (start : Bytes) (pairs : List (Bytes × Bytes)) : Bytes := start ++ 63 :: join 38 (pairs.map parameter)

end Encoding

section Bytewise

theorem isUnreserved_ne {c d : UInt8} (h : isUnreserved c = true) (hd : isUnreserved d = false) : c ≠ d := by
  rintro rfl
  rw [h] at hd
  cases hd

theorem kUrlHex_unreserved : ∀ n < 16, isUnreserved (kUrlHex.getD n 0) = true := by decide

theorem decodeHex_kUrlHex (c : UInt8) : decodeHex (kUrlHex.getD (c &&& 0x0F).toNat 0) = some (c &&& 0x0F) :=
  Nibbles.forall_low (P := fun d => decodeHex (kUrlHex.getD d.toNat 0) = some d) (by decide) c

theorem mem_encodedByte {b c : UInt8} (h : b ∈ encodedByte c) : b = 37 ∨ isUnreserved b = true := by
  unfold encodedByte at h
  split_ifs at h with hc
  · obtain rfl := List.mem_singleton.mp h
    exact .inr hc
  · simp only [List.mem_cons, List.not_mem_nil, or_false] at h
    obtain rfl | rfl | rfl := h
    · exact .inl rfl
    · exact .inr (kUrlHex_unreserved _ (Nibbles.low_lt _))
    · exact .inr (kUrlHex_unreserved _ (Nibbles.low_lt _))

theorem not_mem_urlEncode {b : UInt8} (value : Bytes) (hne : b ≠ 37) (hb : isUnreserved b = false) :
    b ∉ urlEncode value := by
  intro h
  obtain ⟨c, -, hc⟩ := List.mem_flatMap.mp h
  obtain heq | hun := mem_encodedByte hc
  · exact hne heq
  · exact isUnreserved_ne hun hb rfl

theorem percentDecode_cons {c : UInt8} (h : c ≠ 37) (rest : Bytes) :
    percentDecode (c :: rest) = decodePlus c :: percentDecode rest := by
  match rest with
  | [] => rfl
  | [_] => rfl
  | _ :: _ :: _ => rw [percentDecode, if_neg h]

theorem percentDecode_encodedByte (c : UInt8) (rest : Bytes) :
    percentDecode (encodedByte c ++ rest) = c :: percentDecode rest := by
  unfold encodedByte
  split_ifs with hc
  · have hplus : decodePlus c = c := if_neg (isUnreserved_ne hc (by decide))
    rw [List.singleton_append, percentDecode_cons (isUnreserved_ne hc (by decide)), hplus]
  · rw [List.cons_append, List.cons_append, List.cons_append, List.nil_append, percentDecode, if_pos rfl,
      decodeHex_kUrlHex, decodeHex_kUrlHex]
    dsimp only
    rw [Nibbles.join]

theorem percentDecode_urlEncode (value : Bytes) : percentDecode (urlEncode value) = value := by
  induction value with
  | nil => rfl
  | cons c value ih =>
    have hcons : urlEncode (c :: value) = encodedByte c ++ urlEncode value := List.flatMap_cons
    rw [hcons, percentDecode_encodedByte, ih]

end Bytewise

section Tokens

theorem not_mem_parameter (pair : Bytes × Bytes) : 38 ∉ parameter pair := by
  intro h
  obtain h | h := List.mem_append.mp h
  · exact not_mem_urlEncode pair.1 (by decide) (by decide) h
  · obtain h | h := List.mem_cons.mp h
    · exact absurd h (by decide)
    · exact not_mem_urlEncode pair.2 (by decide) (by decide) h

theorem parameter_ne_nil (pair : Bytes × Bytes) : parameter pair ≠ [] := by simp [parameter]

theorem join_eq_intercalate (tokens : List Bytes) : join 38 tokens = List.intercalate [38] tokens := by
  induction tokens with
  | nil => rfl
  | cons token tokens ih =>
    cases tokens with
    | nil => simp [join]
    | cons next tokens => rw [join, ih, List.intercalate_cons_cons, List.append_assoc, List.singleton_append]

theorem queryTokens_join {tokens : List Bytes} (hfree : ∀ token ∈ tokens, 38 ∉ token)
    (hlast : tokens.getLast? ≠ some []) : queryTokens (join 38 tokens) = tokens := by
  cases tokens with
  | nil => rfl
  | cons token tokens =>
    have hsplit : (join 38 (token :: tokens)).splitOn 38 = token :: tokens := by
      rw [join_eq_intercalate]
      exact List.splitOn_intercalate 38 hfree (List.cons_ne_nil token tokens)
    rw [queryTokens, hsplit]
    exact if_neg hlast

theorem queryTokens_parameters (pairs : List (Bytes × Bytes)) :
    queryTokens (join 38 (pairs.map parameter)) = pairs.map parameter := by
  apply queryTokens_join
  · intro token htoken
    obtain ⟨pair, -, rfl⟩ := List.mem_map.mp htoken
    exact not_mem_parameter pair
  · intro hlast
    obtain ⟨pair, -, hpair⟩ := List.mem_map.mp (List.mem_of_getLast? hlast)
    exact parameter_ne_nil pair hpair

theorem emplaceField_parameter (fields : FlatMap Bytes Bytes) (pair : Bytes × Bytes) :
    emplaceField fields (parameter pair) =
      if (fields.find? pair.1).isSome then fields else fields.insert pair.1 pair.2 := by
  have hfree : ∀ b ∈ urlEncode pair.1, decide (b ≠ 61) = true := by
    intro b hb
    rw [decide_eq_true_eq]
    rintro rfl
    exact not_mem_urlEncode pair.1 (by decide) (by decide) hb
  have hkey : (parameter pair).takeWhile (· ≠ 61) = urlEncode pair.1 := by
    rw [parameter, List.takeWhile_append_of_pos hfree]
    simp
  have hvalue : ((parameter pair).dropWhile (· ≠ 61)).drop 1 = urlEncode pair.2 := by
    rw [parameter, List.dropWhile_append_of_pos hfree]
    simp
  rw [emplaceField, hkey, hvalue, percentDecode_urlEncode, percentDecode_urlEncode]

end Tokens

section Fields

theorem find?_emplaceFields {pairs : List (Bytes × Bytes)} (hkeys : (pairs.map Prod.fst).Nodup)
    {fields : FlatMap Bytes Bytes} (hnew : ∀ pair ∈ pairs, fields.find? pair.1 = none) (key value : Bytes) :
    ((pairs.map parameter).foldl emplaceField fields).find? key = some value ↔
      (key, value) ∈ pairs ∨ fields.find? key = some value := by
  induction pairs generalizing fields with
  | nil => simp
  | cons pair pairs ih =>
    rw [List.map_cons, List.nodup_cons] at hkeys
    rw [List.forall_mem_cons] at hnew
    have hemplace : emplaceField fields (parameter pair) = fields.insert pair.1 pair.2 := by
      rw [emplaceField_parameter, hnew.1]
      rfl
    have hnext : ∀ other ∈ pairs, (fields.insert pair.1 pair.2).find? other.1 = none := by
      intro other hother
      have hne : other.1 ≠ pair.1 := fun heq => hkeys.1 (heq ▸ List.mem_map_of_mem hother)
      rw [FlatMap.find?_insert, if_neg hne]
      exact hnew.2 other hother
    rw [List.map_cons, List.foldl_cons, hemplace, ih hkeys.2 hnext, FlatMap.find?_insert, List.mem_cons]
    by_cases hkey : key = pair.1
    · subst hkey
      simp [hnew.1, Prod.ext_iff, eq_comm, or_comm]
    · simp [hkey, Prod.ext_iff]

theorem find?_parseCallbackUrl {start : Bytes} {pairs : List (Bytes × Bytes)} (hstart : 63 ∉ start)
    (hkeys : (pairs.map Prod.fst).Nodup) (key value : Bytes) :
    (parseCallbackUrl (callbackUrl start pairs)).find? key = some value ↔ (key, value) ∈ pairs := by
  have hfree : ∀ b ∈ start, decide (b ≠ 63) = true := by
    intro b hb
    rw [decide_eq_true_eq]
    rintro rfl
    exact hstart hb
  have hquery : ((callbackUrl start pairs).dropWhile (· ≠ 63)).drop 1 = join 38 (pairs.map parameter) := by
    rw [callbackUrl, List.dropWhile_append_of_pos hfree]
    simp
  rw [parseCallbackUrl, hquery, parseQuery, queryTokens_parameters,
    find?_emplaceFields hkeys (fun _ _ => FlatMap.find?_empty _)]
  simp

/-- What the provider sends back is what it was sent: the parsed fields are the parameters, the state token among them.
-/
theorem callback_parameters_survive (start : Bytes) (pairs : List (Bytes × Bytes)) (hstart : 63 ∉ start)
    (hkeys : (pairs.map Prod.fst).Nodup) :
    (∀ key value, (parseCallbackUrl (callbackUrl start pairs)).find? key = some value ↔ (key, value) ∈ pairs) ∧
      ∀ state, (ofString "state", state) ∈ pairs →
        queryField (parseCallbackUrl (callbackUrl start pairs)) "state" = state := by
  refine ⟨find?_parseCallbackUrl hstart hkeys, fun state hstate => ?_⟩
  rw [queryField, (find?_parseCallbackUrl hstart hkeys _ _).mpr hstate]
  rfl

theorem state_with_separators_survives :
    queryField (parseCallbackUrl (callbackUrl (ofString "http://localhost:1455/auth/callback")
      [(ofString "code", []), (ofString "state", ofString "a+b%&=")])) "state" = ofString "a+b%&=" :=
  (callback_parameters_survive _ _ (by decide) (by decide)).2 _ (by decide)

end Fields

end Tightrope.Auth.Oauth
