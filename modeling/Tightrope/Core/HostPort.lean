import Tightrope.Library.Bytes

namespace Tightrope.Core

open Bytes

structure HostPortEndpoint where
  host : Bytes
  port : UInt16 := 0
  deriving DecidableEq

def isAlnum (c : UInt8) : Bool := (48 ≤ c && c ≤ 57) || (65 ≤ c && c ≤ 90) || (97 ≤ c && c ≤ 122)

def dot : UInt8 := 46

def dash : UInt8 := 45

def isHostnameChar (c : UInt8) : Bool := isAlnum c || c = dot || c = dash

def isValidHostname (host : Bytes) : Bool :=
  if host = [] ∨ host.length > 255 then false
  else if host.head? = some dot ∨ host.getLast? = some dot ∨ host.head? = some dash ∨ host.getLast? = some dash then
    false
  else host.all isHostnameChar

-- `isAddress` is whether boost's `make_address` takes the text.
def isValidHostPort (isAddress : Bytes → Bool) (endpoint : HostPortEndpoint) : Bool :=
  if endpoint.port = 0 ∨ endpoint.host = [] then false
  else if isAddress endpoint.host then true
  else isValidHostname endpoint.host

theorem host_ne_nil_of_valid {isAddress : Bytes → Bool} {endpoint : HostPortEndpoint}
    (h : isValidHostPort isAddress endpoint = true) : endpoint.host ≠ [] := by
  intro hnil
  rw [isValidHostPort, if_pos (.inr hnil)] at h
  cases h

theorem isValidHostPort_port {isAddress : Bytes → Bool} {endpoint : HostPortEndpoint} {port : UInt16} (hport : port ≠ 0)
    (h : isValidHostPort isAddress endpoint = true) : isValidHostPort isAddress ⟨endpoint.host, port⟩ = true := by
  rw [isValidHostPort] at h ⊢
  rw [if_neg (not_or.mpr ⟨hport, host_ne_nil_of_valid h⟩)]
  split_ifs at h ⊢
  · rfl
  · exact h

theorem port_ne_zero_of_valid {isAddress : Bytes → Bool} {endpoint : HostPortEndpoint}
    (h : isValidHostPort isAddress endpoint = true) : endpoint.port ≠ 0 := by
  intro hzero
  rw [isValidHostPort, if_pos (.inl hzero)] at h
  cases h

theorem host_unbracketed {isAddress : Bytes → Bool} (haddress : ∀ text, isAddress text = true → text.head? ≠ some 91)
    {endpoint : HostPortEndpoint} (h : isValidHostPort isAddress endpoint = true) :
    endpoint.host.head? ≠ some 91 := by
  rw [isValidHostPort] at h
  split_ifs at h with _ haddr
  · exact haddress _ haddr
  · intro hhead
    rw [isValidHostname] at h
    split_ifs at h
    have hchar := List.all_eq_true.mp h 91 (List.mem_of_mem_head? hhead)
    exact absurd hchar (by decide)

def colon : UInt8 := 58

-- `std::from_chars` over the whole text, into an unsigned type with `limit` values.
def parsePositiveBelow (limit : ℕ) (value : Bytes) : Option ℕ :=
  if value = [] ∨ !value.all (fun c => 48 ≤ c && c ≤ 57) then none
  else
    let parsed := value.foldl (fun n c => n * 10 + (c.toNat - 48)) 0
    if 0 < parsed ∧ parsed < limit then some parsed else none

def splitAtLastColon (address : Bytes) : Option (Bytes × Bytes) :=
  if colon ∈ address then
    some ((address.reverse.dropWhile (· ≠ colon)).tail.reverse, (address.reverse.takeWhile (· ≠ colon)).reverse)
  else none

def splitBracketed (rest : Bytes) : Option (Bytes × Bytes) :=
  match rest.dropWhile (· ≠ 93) with
  | _ :: c :: port => if c = colon then some (rest.takeWhile (· ≠ 93), port) else none
  | _ => none

def splitHostPort : Bytes → Option (Bytes × Bytes)
  | [] => none
  | c :: rest => if c = 91 then splitBracketed rest else (splitAtLastColon (c :: rest)).filter fun parts => parts.1 ≠ []

def parseHostPort (isAddress : Bytes → Bool) (address : Bytes) : Option HostPortEndpoint := do
  let parts ← splitHostPort address
  let port ← parsePositiveBelow (2 ^ 16) parts.2
  let endpoint : HostPortEndpoint := ⟨parts.1, UInt16.ofNat port⟩
  if isValidHostPort isAddress endpoint then some endpoint else none

def hostPortToString (endpoint : HostPortEndpoint) : Bytes :=
  if colon ∈ endpoint.host then [91] ++ endpoint.host ++ [93, colon] ++ decimal endpoint.port.toNat
  else endpoint.host ++ [colon] ++ decimal endpoint.port.toNat

theorem splitAtLastColon_append {host port : Bytes} (h : colon ∉ port) :
    splitAtLastColon (host ++ [colon] ++ port) = some (host, port) := by
  have hport : ∀ c ∈ port.reverse, (decide (c ≠ colon)) = true := by
    intro c hmem
    exact decide_eq_true fun heq => h (heq ▸ List.mem_reverse.mp hmem)
  rw [splitAtLastColon, if_pos (by simp)]
  simp only [List.reverse_append, List.reverse_cons, List.reverse_nil, List.nil_append, List.singleton_append]
  rw [List.dropWhile_append_of_pos hport, List.takeWhile_append_of_pos hport]
  simp

theorem colon_notMem_decimal (n : ℕ) : colon ∉ decimal n := by
  intro h
  exact absurd (isDigit_of_mem_decimal h).2 (by decide)

theorem parsePositiveBelow_decimal {n limit : ℕ} (hpos : 0 < n) (hlt : n < limit) :
    parsePositiveBelow limit (decimal n) = some n := by
  have hvalue : (decimal n).foldl (fun n c => n * 10 + (c.toNat - 48)) 0 = n := digitsValue_decimal n
  have hdigits : ¬ (decimal n = [] ∨ (!(decimal n).all fun c => 48 ≤ c && c ≤ 57) = true) := by
    rintro (hnil | hother)
    · exact decimal_ne_nil n hnil
    · rw [Bool.not_eq_true', List.all_eq_false] at hother
      obtain ⟨c, hmem, hc⟩ := hother
      exact hc (by simpa using isDigit_of_mem_decimal hmem)
  rw [parsePositiveBelow, if_neg hdigits, hvalue]
  exact if_pos ⟨hpos, hlt⟩

theorem parseHostPort_plain {isAddress : Bytes → Bool} {endpoint : HostPortEndpoint}
    (hvalid : isValidHostPort isAddress endpoint = true) (hplain : endpoint.host.head? ≠ some 91) :
    parseHostPort isAddress (endpoint.host ++ [colon] ++ decimal endpoint.port.toNat) = some endpoint := by
  have hsplit : splitHostPort (endpoint.host ++ [colon] ++ decimal endpoint.port.toNat) =
      some (endpoint.host, decimal endpoint.port.toNat) := by
    have hlast : splitAtLastColon (endpoint.host ++ [colon] ++ decimal endpoint.port.toNat) =
        some (endpoint.host, decimal endpoint.port.toNat) := splitAtLastColon_append (colon_notMem_decimal _)
    cases hhost : endpoint.host with
    | nil => exact absurd hhost (host_ne_nil_of_valid hvalid)
    | cons c rest =>
      rw [hhost] at hlast hplain
      have hc : c ≠ 91 := fun heq => hplain (congrArg some heq)
      rw [List.cons_append, List.cons_append] at hlast ⊢
      rw [splitHostPort, if_neg hc, hlast]
      rfl
  have hpos : 0 < endpoint.port.toNat :=
    Nat.pos_of_ne_zero fun hzero => port_ne_zero_of_valid hvalid (UInt16.toNat_inj.mp hzero)
  simp only [parseHostPort, bind, hsplit, Option.bind_some, parsePositiveBelow_decimal hpos endpoint.port.toNat_lt,
    UInt16.ofNat_toNat, hvalid, if_true]

theorem isValidHostPort_of_parse {isAddress : Bytes → Bool} {address : Bytes} {endpoint : HostPortEndpoint}
    (h : parseHostPort isAddress address = some endpoint) : isValidHostPort isAddress endpoint = true := by
  unfold parseHostPort at h
  simp only [bind, Option.bind_eq_some_iff] at h
  obtain ⟨parts, -, port, -, hvalid⟩ := h
  split_ifs at hvalid with hok
  obtain rfl := Option.some.inj hvalid
  exact hok

end Tightrope.Core
