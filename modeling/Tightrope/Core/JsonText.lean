import Mathlib.Data.List.DropRight
import Tightrope.Library.Bytes
import Tightrope.Library.JsonGrammar

namespace Tightrope.Core

open Bytes JsonBytes

def hexDigit (value : UInt8) : UInt8 := if value < 10 then 48 + value else 97 + (value - 10)

def escapedControl (c : UInt8) : Bytes :=
  if c = 8 then ofString "\\b"
  else if c = 12 then ofString "\\f"
  else if c = 10 then ofString "\\n"
  else if c = 13 then ofString "\\r"
  else if c = 9 then ofString "\\t"
  else ofString "\\u00" ++ [hexDigit ((c >>> 4) &&& 0x0F), hexDigit (c &&& 0x0F)]

def escapedByte (c : UInt8) : Bytes :=
  if c = 34 then [92, 34]
  else if c = 92 then [92, 92]
  else if c < 0x20 then escapedControl c
  else [c]

def escapeJsonString (value : Bytes) : Bytes := value.flatMap escapedByte

def quoteJsonString (value : Bytes) : Bytes := [34] ++ escapeJsonString value ++ [34]

inductive TextState where
  | outside
  | inString
  | escaped
  deriving DecidableEq, Repr

def TextState.next (state : TextState) (c : UInt8) : TextState :=
  match state with
  | .outside => if c = 34 then .inString else .outside
  | .escaped => .inString
  | .inString => if c = 92 then .escaped else if c = 34 then .outside else .inString

def sanitizeText : TextState → Bytes → Bytes
  | _, [] => []
  | state, c :: rest =>
    (if state = .inString ∧ c < 0x20 then escapedControl c else [c]) ++ sanitizeText (state.next c) rest

def sanitizeSerializedJson (json : Bytes) : Bytes := sanitizeText .outside json

section Quoting

theorem low_le_hexDigit (c : UInt8) : 48 ≤ hexDigit (c &&& 0x0F) ∧ hexDigit (c &&& 0x0F) ≠ 92 :=
  Nibbles.forall_low (P := fun d => 48 ≤ hexDigit d ∧ hexDigit d ≠ 92) (by decide) c

theorem escapedControl_cases (c : UInt8) :
    (∃ name ∈ ofString "bfnrt", escapedControl c = [92, name]) ∨
      escapedControl c = [92, 117, 48, 48, hexDigit ((c >>> 4) &&& 0x0F), hexDigit (c &&& 0x0F)] := by
  unfold escapedControl
  split_ifs
  · exact .inl ⟨98, by decide, rfl⟩
  · exact .inl ⟨102, by decide, rfl⟩
  · exact .inl ⟨110, by decide, rfl⟩
  · exact .inl ⟨114, by decide, rfl⟩
  · exact .inl ⟨116, by decide, rfl⟩
  · exact .inr rfl

theorem le_of_mem_escapedControl {b c : UInt8} (h : b ∈ escapedControl c) : 0x20 ≤ b ∧ b ≠ 34 := by
  have hdigit : ∀ d : UInt8, 48 ≤ d → 0x20 ≤ d ∧ d ≠ 34 := by
    intro d hd
    refine ⟨le_trans (by decide) hd, ?_⟩
    rintro rfl
    exact absurd hd (by decide)
  obtain ⟨name, hname, heq⟩ | heq := escapedControl_cases c <;> rw [heq] at h
  · have hnames : (ofString "bfnrt").all (fun name => [92, name].all fun b => 0x20 ≤ b && b ≠ 34) = true := by decide
    simpa using List.all_eq_true.mp (List.all_eq_true.mp hnames name hname) b h
  · simp only [List.mem_cons, List.not_mem_nil, or_false] at h
    obtain rfl | rfl | rfl | rfl | rfl | rfl := h
    · decide
    · decide
    · decide
    · decide
    · exact hdigit _ (low_le_hexDigit _).1
    · exact hdigit _ (low_le_hexDigit _).1

theorem le_of_mem_escapedByte {b c : UInt8} (h : b ∈ escapedByte c) : 0x20 ≤ b := by
  unfold escapedByte at h
  split_ifs at h with hquote hbackslash hcontrol
  · exact (by simp : ∀ b ∈ ([92, 34] : Bytes), 0x20 ≤ b) b h
  · exact (by simp : ∀ b ∈ ([92, 92] : Bytes), 0x20 ≤ b) b h
  · exact (le_of_mem_escapedControl h).1
  · obtain rfl := List.mem_singleton.mp h
    exact not_lt.mp hcontrol

theorem le_of_mem_quoteJsonString {s : Bytes} {b : UInt8} (h : b ∈ quoteJsonString s) : 0x20 ≤ b := by
  rw [quoteJsonString, List.mem_append, List.mem_append, List.mem_singleton] at h
  obtain (rfl | h) | rfl := h
  · decide
  · obtain ⟨c, -, hc⟩ := List.mem_flatMap.mp h
    exact le_of_mem_escapedByte hc
  · decide

theorem readUnit_escapedControl {c : UInt8} (h : c < 0x20) (rest : Bytes) :
    readUnit (escapedControl c ++ rest) = some ([c], rest) := by
  unfold escapedControl
  split_ifs with h8 h12 h10 h13 h9
  · rw [h8]; rfl
  · rw [h12]; rfl
  · rw [h10]; rfl
  · rw [h13]; rfl
  · rw [h9]; rfl
  · have hlt : c.toNat < 0x20 := h
    have hunits : ∀ n < 0x20,
        codeUnit [48, 48, hexDigit ((UInt8.ofNat n >>> 4) &&& 0x0F), hexDigit (UInt8.ofNat n &&& 0x0F)] =
        some n ∧ String.utf8EncodeChar (Char.ofNat n) = [UInt8.ofNat n] := by decide
    obtain ⟨hunit, hchar⟩ := hunits _ hlt
    rw [UInt8.ofNat_toNat] at hunit hchar
    change (codeUnit [48, 48, hexDigit ((c >>> 4) &&& 0x0F), hexDigit (c &&& 0x0F)]).bind _ = _
    rw [hunit, Option.bind_some, readUnicode_of_lt (by omega), hchar]
    rfl

theorem readUnit_escapedByte (c : UInt8) (rest : Bytes) : (escapedByte c ++ rest).head? ≠ some 34 ∧
    readUnit (escapedByte c ++ rest) = some ([c], rest) := by
  unfold escapedByte
  split_ifs with hquote hbackslash hcontrol
  · exact ⟨by simp, by rw [hquote]; rfl⟩
  · exact ⟨by simp, by rw [hbackslash]; rfl⟩
  · refine ⟨?_, readUnit_escapedControl hcontrol rest⟩
    obtain ⟨name, -, heq⟩ | heq := escapedControl_cases c <;> simp [heq]
  · refine ⟨by simpa using hquote, ?_⟩
    have hneither : ¬ (c = 34 ∨ c = 92 ∨ c < 0x20) := by
      rintro (h | h | h)
      · exact hquote h
      · exact hbackslash h
      · exact hcontrol h
    rw [List.singleton_append, readUnit, if_neg hneither]
    · rintro a b c d rest' rfl
      exact absurd rfl hbackslash
    · rintro d rest' rfl
      exact absurd rfl hbackslash

theorem length_le_escaped (s : Bytes) : s.length ≤ (s.flatMap escapedByte).length := by
  induction s with
  | nil => exact Nat.le_refl 0
  | cons c s ih =>
    have hpos : 0 < (escapedByte c).length := by
      unfold escapedByte
      obtain ⟨name, -, heq⟩ | heq := escapedControl_cases c <;> split_ifs <;> simp [heq]
    rw [List.flatMap_cons, List.length_append, List.length_cons]
    omega

theorem readString_quoteJsonString (s rest : Bytes) : readString (quoteJsonString s ++ rest) = some (s, rest) := by
  have htext : quoteJsonString s ++ rest = 34 :: (s.flatMap escapedByte ++ 34 :: rest) := by
    simp [quoteJsonString, escapeJsonString]
  have hlength : s.length < (s.flatMap escapedByte ++ 34 :: rest).length := by
    have hle := length_le_escaped s
    rw [List.length_append, List.length_cons]
    omega
  rw [htext, readString, readBody_units readUnit_escapedByte s rest hlength, List.flatMap_singleton']

theorem quoteJsonString_append_inj {s s' rest rest' : Bytes}
    (h : quoteJsonString s ++ rest = quoteJsonString s' ++ rest') : s = s' ∧ rest = rest' := by
  have hread := readString_quoteJsonString s rest
  rw [h, readString_quoteJsonString] at hread
  obtain ⟨rfl, rfl⟩ := Prod.mk.inj (Option.some.inj hread)
  exact ⟨rfl, rfl⟩

end Quoting

section Quotes

/-- A byte behind an odd number of backslashes is escaped. -/
def escapesNext (text : Bytes) : Bool := (text.rtakeWhile (· = 92)).length % 2 = 1

theorem escapesNext_concat (text : Bytes) (b : UInt8) :
    escapesNext (text ++ [b]) = (decide (b = 92) && !escapesNext text) := by
  unfold escapesNext
  rw [List.rtakeWhile_concat]
  by_cases hb : b = 92
  · simp only [hb, decide_true, ↓reduceIte, List.length_append, List.length_singleton, Bool.true_and]
    obtain h | h := Nat.mod_two_eq_zero_or_one (text.rtakeWhile (· = 92)).length <;>
      simp [h, Nat.add_mod]
  · simp [hb]

theorem escapesNext_pair {text : Bytes} (h : escapesNext text = false) (b : UInt8) :
    escapesNext (text ++ [92]) = true ∧ escapesNext (text ++ [92, b]) = false := by
  have hbackslash : escapesNext (text ++ [92]) = true := by rw [escapesNext_concat, h]; rfl
  have hpair : text ++ [92, b] = text ++ [92] ++ [b] := by rw [List.append_assoc]; rfl
  exact ⟨hbackslash, by rw [hpair, escapesNext_concat, hbackslash, Bool.not_true, Bool.and_false]⟩

theorem escapesNext_escapedByte {text : Bytes} (h : escapesNext text = false) (c : UInt8) :
    escapesNext (text ++ escapedByte c) = false := by
  unfold escapedByte
  split_ifs with hquote hbackslash hcontrol
  · exact (escapesNext_pair h 34).2
  · exact (escapesNext_pair h 92).2
  · obtain ⟨name, -, heq⟩ | heq := escapedControl_cases c
    · rw [heq]
      exact (escapesNext_pair h name).2
    · have hlast : text ++ escapedControl c =
          text ++ [92, 117, 48, 48, hexDigit ((c >>> 4) &&& 0x0F)] ++ [hexDigit (c &&& 0x0F)] := by
        rw [heq, List.append_assoc]
        rfl
      rw [hlast, escapesNext_concat, decide_eq_false (low_le_hexDigit c).2, Bool.false_and]
  · rw [escapesNext_concat, decide_eq_false hbackslash, Bool.false_and]

theorem escapesNext_of_quote {text p q : Bytes} (h : escapesNext text = false) {c : UInt8}
    (hquote : escapedByte c = p ++ 34 :: q) : escapesNext (text ++ p) = true := by
  unfold escapedByte at hquote
  split_ifs at hquote with hc hbackslash hcontrol
  · cases p with
    | nil => exact absurd (List.cons.inj hquote).1 (by decide)
    | cons d p =>
      obtain ⟨rfl, htail⟩ := List.cons.inj hquote
      cases p with
      | nil => exact (escapesNext_pair h 34).1
      | cons e p => simp at htail
  · have hmem : 34 ∈ ([92, 92] : Bytes) := by rw [hquote]; simp
    exact absurd hmem (by decide)
  · have hmem : 34 ∈ escapedControl c := by rw [hquote]; simp
    exact absurd rfl (le_of_mem_escapedControl hmem).2
  · have hmem : 34 ∈ [c] := by rw [hquote]; simp
    exact absurd (List.mem_singleton.mp hmem).symm hc

theorem escapesNext_escapeJsonString {text : Bytes} (h : escapesNext text = false) (s : Bytes) :
    escapesNext (text ++ escapeJsonString s) = false ∧
      ∀ p q, escapeJsonString s = p ++ 34 :: q → escapesNext (text ++ p) = true := by
  induction s generalizing text with
  | nil => exact ⟨by rwa [escapeJsonString, List.flatMap_nil, List.append_nil], fun p q hpq => by cases p <;> cases hpq⟩
  | cons c s ih =>
    have hcons : escapeJsonString (c :: s) = escapedByte c ++ escapeJsonString s := List.flatMap_cons
    obtain ⟨hend, hquotes⟩ := ih (escapesNext_escapedByte h c)
    rw [hcons, ← List.append_assoc]
    refine ⟨hend, fun p q hpq => ?_⟩
    obtain ⟨p', rfl, hrest⟩ | ⟨q', hunit, hrest⟩ := List.append_eq_append_iff.mp hpq
    · rw [← List.append_assoc]
      exact hquotes p' q hrest
    · cases q' with
      | nil =>
        rw [List.append_nil] at hunit
        rw [← hunit, ← List.append_nil (escapedByte c), ← List.append_assoc]
        exact hquotes [] q hrest.symm
      | cons d q' =>
        obtain ⟨rfl, -⟩ := List.cons.inj hrest
        exact escapesNext_of_quote h hunit

theorem unescaped_quote_iff {s before after : Bytes} (h : quoteJsonString s = before ++ 34 :: after) :
    escapesNext before = false ↔ before = [] ∨ after = [] := by
  have hopen : escapesNext [34] = false := by decide
  obtain ⟨hend, hquotes⟩ := escapesNext_escapeJsonString hopen s
  cases before with
  | nil => exact ⟨fun _ => .inl rfl, fun _ => rfl⟩
  | cons b before =>
    obtain ⟨rfl, hbody⟩ : 34 = b ∧ escapeJsonString s ++ [34] = before ++ 34 :: after := by
      simpa [quoteJsonString] using h
    obtain rfl | ⟨start, last, rfl⟩ := after.eq_nil_or_concat
    · obtain ⟨rfl, -⟩ := List.append_inj' hbody rfl
      exact ⟨fun _ => .inr rfl, fun _ => hend⟩
    · have hsplit : escapeJsonString s ++ [34] = (before ++ 34 :: start) ++ [last] := by
        rw [hbody, List.append_assoc]
        simp
      obtain ⟨hinner, -⟩ := List.append_inj' hsplit rfl
      have hescaped := hquotes before start hinner
      rw [List.singleton_append] at hescaped
      simp [hescaped]

end Quotes

section Sanitizing

def TextState.run (state : TextState) (text : Bytes) : TextState := text.foldl TextState.next state

def hasRawControl : TextState → Bytes → Bool
  | _, [] => false
  | state, c :: rest => (state ≠ .outside && c < 0x20) || hasRawControl (state.next c) rest

def escapesControl : TextState → Bytes → Bool
  | _, [] => false
  | state, c :: rest => (state = .escaped && c < 0x20) || escapesControl (state.next c) rest

variable {state : TextState}

theorem sanitizeText_append (state : TextState) (text rest : Bytes) :
    sanitizeText state (text ++ rest) = sanitizeText state text ++ sanitizeText (state.run text) rest := by
  induction text generalizing state with
  | nil => rfl
  | cons c text ih =>
    rw [List.cons_append, sanitizeText, ih, sanitizeText, List.append_assoc]
    rfl

theorem hasRawControl_append (state : TextState) (text rest : Bytes) :
    hasRawControl state (text ++ rest) = (hasRawControl state text || hasRawControl (state.run text) rest) := by
  induction text generalizing state with
  | nil => rfl
  | cons c text ih =>
    rw [List.cons_append, hasRawControl, ih, hasRawControl, Bool.or_assoc]
    rfl

theorem escapesControl_append (state : TextState) (text rest : Bytes) :
    escapesControl state (text ++ rest) = (escapesControl state text || escapesControl (state.run text) rest) := by
  induction text generalizing state with
  | nil => rfl
  | cons c text ih =>
    rw [List.cons_append, escapesControl, ih, escapesControl, Bool.or_assoc]
    rfl

theorem run_append (state : TextState) (text rest : Bytes) :
    state.run (text ++ rest) = (state.run text).run rest := List.foldl_append

theorem sanitize_escapedControl {c : UInt8} (h : c < 0x20) :
    sanitizeText .inString (escapedControl c) = escapedControl c ∧
      TextState.inString.run (escapedControl c) = .inString ∧
      hasRawControl .inString (escapedControl c) = false := by
  have hall : ∀ n < 0x20, sanitizeText .inString (escapedControl (UInt8.ofNat n)) = escapedControl (UInt8.ofNat n) ∧
      TextState.inString.run (escapedControl (UInt8.ofNat n)) = .inString ∧
      hasRawControl .inString (escapedControl (UInt8.ofNat n)) = false := by decide +kernel
  have hc := hall c.toNat h
  rwa [UInt8.ofNat_toNat] at hc

theorem next_control {c : UInt8} (h : c < 0x20) : TextState.inString.next c = .inString := by
  have hbackslash : c ≠ 92 := by
    rintro rfl
    exact absurd h (by decide)
  have hquote : c ≠ 34 := by
    rintro rfl
    exact absurd h (by decide)
  rw [TextState.next, if_neg hbackslash, if_neg hquote]

theorem sanitizeText_control {c : UInt8} (h : c < 0x20) (rest : Bytes) :
    sanitizeText .inString (c :: rest) = escapedControl c ++ sanitizeText .inString rest := by
  rw [sanitizeText, if_pos ⟨rfl, h⟩, next_control h]

theorem sanitizeText_kept {c : UInt8} (h : ¬ (state = .inString ∧ c < 0x20)) (rest : Bytes) :
    sanitizeText state (c :: rest) = c :: sanitizeText (state.next c) rest := by
  rw [sanitizeText, if_neg h, List.singleton_append]

theorem sanitizeText_sanitizeText (state : TextState) (json : Bytes) :
    sanitizeText state (sanitizeText state json) = sanitizeText state json := by
  induction json generalizing state with
  | nil => rfl
  | cons c json ih =>
    by_cases hcontrol : state = .inString ∧ c < 0x20
    · obtain ⟨rfl, hc⟩ := hcontrol
      obtain ⟨hsame, hrun, -⟩ := sanitize_escapedControl hc
      rw [sanitizeText_control hc, sanitizeText_append, hsame, hrun, ih]
    · rw [sanitizeText_kept hcontrol, sanitizeText_kept hcontrol, ih]

theorem hasRawControl_sanitizeText (state : TextState) (json : Bytes) :
    hasRawControl state (sanitizeText state json) = escapesControl state json := by
  induction json generalizing state with
  | nil => rfl
  | cons c json ih =>
    by_cases hcontrol : state = .inString ∧ c < 0x20
    · obtain ⟨rfl, hc⟩ := hcontrol
      obtain ⟨-, hrun, hfree⟩ := sanitize_escapedControl hc
      rw [sanitizeText_control hc, hasRawControl_append, hfree, hrun, ih, escapesControl, next_control hc]
      rfl
    · rw [sanitizeText_kept hcontrol, hasRawControl, ih, escapesControl]
      congr 1
      cases state with
      | outside => rfl
      | escaped => rfl
      | inString =>
        have hle : ¬ c < 0x20 := fun hc => hcontrol ⟨rfl, hc⟩
        simp [hle]

end Sanitizing

section Texts

structure Sanitizes (text sanitized : Bytes) : Prop where
  outside : TextState.outside.run text = .outside
  sanitized_eq : sanitizeText .outside text = sanitized
  no_escaped : escapesControl .outside text = false

variable {text text' sanitized sanitized' : Bytes}

theorem Sanitizes.append (h : Sanitizes text sanitized) (h' : Sanitizes text' sanitized') :
    Sanitizes (text ++ text') (sanitized ++ sanitized') where
  outside := by rw [run_append, h.outside, h'.outside]
  sanitized_eq := by rw [sanitizeText_append, h.outside, h.sanitized_eq, h'.sanitized_eq]
  no_escaped := by rw [escapesControl_append, h.outside, h.no_escaped, h'.no_escaped]; rfl

theorem sanitizes_unquoted (h : 34 ∉ text) : Sanitizes text text := by
  induction text with
  | nil => exact ⟨rfl, rfl, rfl⟩
  | cons c text ih =>
    rw [List.mem_cons, not_or] at h
    obtain ⟨houtside, hsame, hfree⟩ := ih h.2
    have hnext : TextState.outside.next c = .outside := if_neg (Ne.symm h.1)
    refine ⟨?_, ?_, ?_⟩
    · rw [TextState.run, List.foldl_cons, hnext]
      exact houtside
    · rw [sanitizeText_kept (fun hb => TextState.noConfusion hb.1), hnext, hsame]
    · rw [escapesControl, hnext, hfree]
      rfl

theorem sanitizes_byte {c : UInt8} (h : c ≠ 34) : Sanitizes [c] [c] :=
  sanitizes_unquoted fun hmem => h (List.mem_singleton.mp hmem).symm

theorem Sanitizes.cons (h : Sanitizes text sanitized) {c : UInt8} (hc : c ≠ 34) :
    Sanitizes (c :: text) (c :: sanitized) :=
  (sanitizes_byte hc).append h

theorem stringUnit_escapedControl (c : UInt8) : StringUnit (0x20 ≤ ·) (escapedControl c) := by
  obtain ⟨name, hname, heq⟩ | heq := escapedControl_cases c <;> rw [heq]
  · have hnames : (ofString "bfnrt").all (ofString "\"\\/bfnrt").contains = true := by decide
    exact .escaped (by simpa using List.all_eq_true.mp hnames name hname)
  · refine .unicode rfl ?_
    have hdigit : ∀ d : UInt8, (hexValue (hexDigit (d &&& 0x0F))).isSome = true :=
      Nibbles.forall_low (P := fun d => (hexValue (hexDigit d)).isSome = true) (by decide)
    intro d hd
    simp only [List.mem_cons, List.not_mem_nil, or_false] at hd
    obtain rfl | rfl | rfl | rfl := hd
    · decide
    · decide
    · exact hdigit _
    · exact hdigit _

theorem hexDigit_plain {d : UInt8} (h : (hexValue d).isSome = true) : 0x20 ≤ d ∧ d ≠ 34 ∧ d ≠ 92 := by
  have hall : ∀ n < 256, (hexValue (UInt8.ofNat n)).isSome = true →
      0x20 ≤ UInt8.ofNat n ∧ UInt8.ofNat n ≠ 34 ∧ UInt8.ofNat n ≠ 92 := by decide +kernel
  have hd := hall d.toNat d.toNat_lt
  rw [UInt8.ofNat_toNat] at hd
  exact hd h

theorem sanitize_plain (h : ∀ b ∈ text, 0x20 ≤ b ∧ b ≠ 34 ∧ b ≠ 92) :
    sanitizeText .inString text = text ∧ TextState.inString.run text = .inString ∧
      escapesControl .inString text = false := by
  induction text with
  | nil => exact ⟨rfl, rfl, rfl⟩
  | cons b text ih =>
    rw [List.forall_mem_cons] at h
    obtain ⟨⟨hle, hquote, hbackslash⟩, hrest⟩ := h
    obtain ⟨hsame, hrun, hfree⟩ := ih hrest
    have hnext : TextState.inString.next b = .inString := by rw [TextState.next, if_neg hbackslash, if_neg hquote]
    refine ⟨?_, ?_, ?_⟩
    · rw [sanitizeText_kept (fun hb => absurd hb.2 (not_lt.mpr hle)), hnext, hsame]
    · rw [TextState.run, List.foldl_cons, hnext]
      exact hrun
    · rw [escapesControl, hnext, hfree]
      rfl

theorem sanitize_unit (h : StringUnit (fun _ => True) text) :
    StringUnit (0x20 ≤ ·) (sanitizeText .inString text) ∧ TextState.inString.run text = .inString ∧
      escapesControl .inString text = false := by
  cases h with
  | @unescaped b _ hquote hbackslash =>
    by_cases hcontrol : b < 0x20
    · rw [sanitizeText_control hcontrol, sanitizeText, List.append_nil]
      refine ⟨stringUnit_escapedControl b, next_control hcontrol, ?_⟩
      simp [escapesControl]
    · have hplain : ∀ b' ∈ [b], 0x20 ≤ b' ∧ b' ≠ 34 ∧ b' ≠ 92 :=
        List.forall_mem_singleton.mpr ⟨not_lt.mp hcontrol, hquote, hbackslash⟩
      obtain ⟨hsame, hrun, hfree⟩ := sanitize_plain hplain
      rw [hsame]
      exact ⟨.unescaped (not_lt.mp hcontrol) hquote hbackslash, hrun, hfree⟩
  | @escaped b hb =>
    have hall : ∀ b ∈ ofString "\"\\/bfnrt", sanitizeText .inString [92, b] = [92, b] ∧
        TextState.inString.run [92, b] = .inString ∧ escapesControl .inString [92, b] = false := by
      simpa using (by decide : (ofString "\"\\/bfnrt").all fun b => sanitizeText .inString [92, b] = [92, b] ∧
        TextState.inString.run [92, b] = .inString ∧ escapesControl .inString [92, b] = false)
    obtain ⟨hsame, hrun, hfree⟩ := hall b hb
    rw [hsame]
    exact ⟨.escaped hb, hrun, hfree⟩
  | @unicode digits hlength hdigits =>
    obtain ⟨hsame, hrun, hfree⟩ := sanitize_plain fun d hd => hexDigit_plain (hdigits d hd)
    have htext : sanitizeText .inString (92 :: 117 :: digits) = 92 :: 117 :: digits := by
      rw [sanitizeText_kept (by decide), sanitizeText_kept (by decide)]
      exact congrArg (fun rest => 92 :: 117 :: rest) hsame
    rw [htext]
    exact ⟨.unicode hlength hdigits, hrun, hfree⟩

theorem sanitizes_literal (h : IsLiteral (fun _ => True) text) :
    ∃ sanitized, Sanitizes text sanitized ∧ IsLiteral (0x20 ≤ ·) sanitized := by
  obtain ⟨units, rfl, hunits⟩ := h
  have hbody : TextState.inString.run units.flatten = .inString ∧ escapesControl .inString units.flatten = false ∧
      sanitizeText .inString units.flatten = (units.map (sanitizeText .inString)).flatten := by
    induction units with
    | nil => exact ⟨rfl, rfl, rfl⟩
    | cons unit units ih =>
      rw [List.forall_mem_cons] at hunits
      obtain ⟨-, hrun, hfree⟩ := sanitize_unit hunits.1
      obtain ⟨hruns, hfrees, hsames⟩ := ih hunits.2
      rw [List.flatten_cons, List.map_cons, List.flatten_cons, run_append, escapesControl_append, sanitizeText_append,
        hrun, hfree, hruns, hfrees, hsames]
      exact ⟨rfl, rfl, rfl⟩
  obtain ⟨hrun, hfree, hsame⟩ := hbody
  refine ⟨34 :: ((units.map (sanitizeText .inString)).flatten ++ [34]), ⟨?_, ?_, ?_⟩, _, rfl, ?_⟩
  · change (TextState.inString).run (units.flatten ++ [34]) = _
    rw [run_append, hrun]
    rfl
  · rw [sanitizeText_kept (by decide)]
    change 34 :: sanitizeText .inString (units.flatten ++ [34]) = _
    rw [sanitizeText_append, hrun, hsame]
    rfl
  · change escapesControl .inString (units.flatten ++ [34]) = false
    rw [escapesControl_append, hfree, hrun]
    rfl
  · intro unit hunit
    obtain ⟨unit', hunit', rfl⟩ := List.mem_map.mp hunit
    exact (sanitize_unit (hunits unit' hunit')).1

theorem sanitizes_phrase {phrase : JsonGrammar.Phrase} (h : Derives (fun _ => True) phrase text) :
    ∃ sanitized, Sanitizes text sanitized ∧ Derives (0x20 ≤ ·) phrase sanitized := by
  induction h with
  | literal h => exact ⟨_, sanitizes_unquoted (quote_not_mem_literal h), .literal h⟩
  | number h => exact ⟨_, sanitizes_unquoted (quote_not_mem_number h), .number h⟩
  | string h =>
    obtain ⟨sanitized, hs, hliteral⟩ := sanitizes_literal h
    exact ⟨sanitized, hs, .string hliteral⟩
  | emptyArray h =>
    have hclose : Sanitizes [93] [93] := sanitizes_byte (by decide)
    exact ⟨_, ((sanitizes_unquoted (quote_not_mem_space h)).append hclose).cons (by decide), .emptyArray h⟩
  | array _ ih =>
    obtain ⟨elements, hs, helements⟩ := ih
    exact ⟨_, (hs.append (sanitizes_byte (by decide))).cons (by decide), .array helements⟩
  | emptyObject h =>
    have hclose : Sanitizes [125] [125] := sanitizes_byte (by decide)
    exact ⟨_, ((sanitizes_unquoted (quote_not_mem_space h)).append hclose).cons (by decide), .emptyObject h⟩
  | object _ ih =>
    obtain ⟨members, hs, hmembers⟩ := ih
    exact ⟨_, (hs.append (sanitizes_byte (by decide))).cons (by decide), .object hmembers⟩
  | text hbefore _ hafter ih =>
    obtain ⟨value, hs, hvalue⟩ := ih
    exact ⟨_, ((sanitizes_unquoted (quote_not_mem_space hbefore)).append hs).append
      (sanitizes_unquoted (quote_not_mem_space hafter)), .text hbefore hvalue hafter⟩
  | lastElement _ ih =>
    obtain ⟨value, hs, hvalue⟩ := ih
    exact ⟨value, hs, .lastElement hvalue⟩
  | element _ _ ih ihrest =>
    obtain ⟨value, hs, hvalue⟩ := ih
    obtain ⟨rest, hsrest, hrest⟩ := ihrest
    exact ⟨_, hs.append (hsrest.cons (by decide)), .element hvalue hrest⟩
  | member hbefore hname hafter _ ih =>
    obtain ⟨name, hsname, hliteral⟩ := sanitizes_literal hname
    obtain ⟨value, hs, hvalue⟩ := ih
    exact ⟨_, (((sanitizes_unquoted (quote_not_mem_space hbefore)).append hsname).append
      (sanitizes_unquoted (quote_not_mem_space hafter))).append (hs.cons (by decide)),
      .member hbefore hliteral hafter hvalue⟩
  | lastMember _ ih =>
    obtain ⟨member, hs, hmember⟩ := ih
    exact ⟨member, hs, .lastMember hmember⟩
  | nextMember _ _ ih ihrest =>
    obtain ⟨member, hs, hmember⟩ := ih
    obtain ⟨rest, hsrest, hrest⟩ := ihrest
    exact ⟨_, hs.append (hsrest.cons (by decide)), .nextMember hmember hrest⟩

theorem isText_sanitizeSerializedJson (h : IsTextWithRawControls text) :
    IsText (sanitizeSerializedJson text) ∧ hasRawControl .outside (sanitizeSerializedJson text) = false := by
  obtain ⟨sanitized, hs, htext⟩ := sanitizes_phrase h
  rw [sanitizeSerializedJson, hasRawControl_sanitizeText, hs.sanitized_eq]
  exact ⟨htext, hs.no_escaped⟩

end Texts

end Tightrope.Core
