import Tightrope.Library.JsonGrammar
import Tightrope.Library.UnicodeText
import Tightrope.Proxy.Openai.PayloadText

namespace Tightrope.Proxy.Openai

open Bytes Tightrope.Core

section Utf8Stripping

theorem isContinuation_iff (c : UInt8) : isContinuation c = true ↔ Utf8.Tail c := by
  have hall : ∀ n : Fin 256, isContinuation (UInt8.ofNat n) = true ↔ 0x80 ≤ n.val ∧ n.val ≤ 0xBF := by decide +kernel
  have h := hall ⟨c.toNat, c.toNat_lt⟩
  rwa [UInt8.ofNat_toNat] at h

theorem secondByteAllowed_iff (lead second : UInt8) : secondByteAllowed lead second = true ↔
    Utf8.SecondFits lead second := by
  simp only [secondByteAllowed, Bool.not_eq_true', Bool.or_eq_false_iff, Bool.and_eq_false_iff, decide_eq_false_iff_not,
    UInt8.lt_iff_toNat_lt, ← UInt8.toNat_inj, gt_iff_lt, UInt8.reduceToNat, Utf8.SecondFits]
  omega

theorem sequenceWidth_cases (lead : UInt8) :
    (0xC2 ≤ lead.toNat ∧ lead.toNat ≤ 0xDF ∧ sequenceWidth lead = 2) ∨
    (0xE0 ≤ lead.toNat ∧ lead.toNat ≤ 0xEF ∧ sequenceWidth lead = 3) ∨
    (0xF0 ≤ lead.toNat ∧ lead.toNat ≤ 0xF4 ∧ sequenceWidth lead = 4) ∨
    (lead.toNat < 0xC2 ∨ 0xF4 < lead.toNat) ∧ sequenceWidth lead = 0 := by
  simp only [sequenceWidth, UInt8.le_iff_toNat_le, UInt8.reduceToNat]
  split_ifs <;> omega

theorem continuations_eq_some {lead : UInt8} {rest : Bytes} {more : ℕ} : continuations lead rest = some more ↔
    more = sequenceWidth lead - 1 ∧ sequenceWidth lead ≠ 0 ∧ more ≤ rest.length ∧
      (∀ c ∈ rest.take more, Utf8.Tail c) ∧ Utf8.SecondFits lead (rest.headD 0) := by
  simp only [continuations, ← isContinuation_iff, ← secondByteAllowed_iff]
  split_ifs with hzero hshort htail hsecond
  · simp [hzero]
  · constructor
    · simp
    · rintro ⟨rfl, -, hle, -⟩
      omega
  · constructor
    · simp
    · rintro ⟨rfl, -, -, hall, -⟩
      simp [List.all_eq_true.mpr hall] at htail
  · constructor
    · simp
    · rintro ⟨rfl, -, -, -, hfits⟩
      rw [hfits] at hsecond
      cases hsecond
  · rw [Option.some_inj]
    constructor
    · rintro rfl
      refine ⟨rfl, hzero, not_lt.mp hshort, ?_, by simpa using hsecond⟩
      exact List.all_eq_true.mp (by simpa using htail)
    · rintro ⟨rfl, -⟩
      rfl

theorem sequence_of_continuations {lead : UInt8} {rest : Bytes} {more : ℕ}
    (h : continuations lead rest = some more) : more ≤ rest.length ∧ Utf8.Sequence (lead :: rest.take more) := by
  obtain ⟨hmore, hzero, hle, htails, hfits⟩ := continuations_eq_some.mp h
  refine ⟨hle, ?_⟩
  obtain ⟨hlow, hhigh, hwidth⟩ | ⟨hlow, hhigh, hwidth⟩ | ⟨hlow, hhigh, hwidth⟩ | ⟨-, hwidth⟩ := sequenceWidth_cases lead
  · obtain rfl : more = 1 := by omega
    obtain ⟨b, rest, rfl⟩ := List.exists_cons_of_length_pos (l := rest) (by omega)
    exact ⟨hlow, hhigh, htails b (by simp)⟩
  · obtain rfl : more = 2 := by omega
    obtain ⟨b, rest, rfl⟩ := List.exists_cons_of_length_pos (l := rest) (by omega)
    obtain ⟨c, rest, rfl⟩ := List.exists_cons_of_length_pos (l := rest) (by rw [List.length_cons] at hle; omega)
    exact ⟨hlow, hhigh, htails b (by simp), hfits, htails c (by simp)⟩
  · obtain rfl : more = 3 := by omega
    obtain ⟨b, rest, rfl⟩ := List.exists_cons_of_length_pos (l := rest) (by omega)
    obtain ⟨c, rest, rfl⟩ := List.exists_cons_of_length_pos (l := rest) (by rw [List.length_cons] at hle; omega)
    obtain ⟨d, rest, rfl⟩ := List.exists_cons_of_length_pos (l := rest) (by simp only [List.length_cons] at hle; omega)
    exact ⟨hlow, hhigh, htails b (by simp), hfits, htails c (by simp), htails d (by simp)⟩
  · exact absurd hwidth hzero

theorem continuations_of_sequence {lead : UInt8} {tail : Bytes} (h : Utf8.Sequence (lead :: tail)) (hne : tail ≠ [])
    (rest : Bytes) : continuations lead (tail ++ rest) = some tail.length := by
  rw [continuations_eq_some]
  have hwidth := sequenceWidth_cases lead
  match tail with
  | [] => exact absurd rfl hne
  | [b] =>
    obtain ⟨hlow, hhigh, hb⟩ := h
    have hw : sequenceWidth lead = 2 := by omega
    refine ⟨by simp [hw], by omega, by simp, by simpa using hb, ?_⟩
    simp only [Utf8.SecondFits]
    omega
  | [b, c] =>
    obtain ⟨hlow, hhigh, hb, hfits, hc⟩ := h
    have hw : sequenceWidth lead = 3 := by omega
    exact ⟨by simp [hw], by omega, by simp, by simpa using ⟨hb, hc⟩, by simpa using hfits⟩
  | [b, c, d] =>
    obtain ⟨hlow, hhigh, hb, hfits, hc, hd⟩ := h
    have hw : sequenceWidth lead = 4 := by omega
    exact ⟨by simp [hw], by omega, by simp, by simpa using ⟨hb, hc, hd⟩, by simpa using hfits⟩
  | _ :: _ :: _ :: _ :: _ => exact h.elim

theorem stripFrom_copy {more : ℕ} {s : Bytes} (h : more ≤ s.length) :
    stripFrom more s = s.take more ++ stripFrom 0 (s.drop more) := by
  induction s generalizing more with
  | nil =>
    rw [List.length_nil, Nat.le_zero] at h
    subst h
    rfl
  | cons c rest ih =>
    cases more with
    | zero => rfl
    | succ more =>
      rw [stripFrom, ih (Nat.succ_le_succ_iff.mp h), List.take_succ_cons, List.drop_succ_cons, List.cons_append]

theorem stripInvalidUtf8Bytes_encodeChar (c : Char) (rest : Bytes) :
    stripInvalidUtf8Bytes (String.utf8EncodeChar c ++ rest) = String.utf8EncodeChar c ++
      stripInvalidUtf8Bytes rest := by
  have hsequence := Utf8.sequence_encodeChar c
  cases hencode : String.utf8EncodeChar c with
  | nil => exact absurd hencode String.utf8EncodeChar_ne_nil
  | cons lead tail =>
    rw [hencode] at hsequence
    rw [stripInvalidUtf8Bytes, List.cons_append, stripFrom]
    by_cases hone : lead ≤ 0x7F
    · rw [UInt8.le_iff_toNat_le] at hone
      obtain rfl := Utf8.tail_eq_nil hsequence hone
      rw [if_pos (UInt8.le_iff_toNat_le.mpr hone)]
      rfl
    · have hne : tail ≠ [] := by
        rintro rfl
        exact hone hsequence
      rw [if_neg hone, continuations_of_sequence hsequence hne]
      simp only
      rw [stripFrom_copy (by simp), List.take_left, List.drop_left]
      rfl

theorem valid_stripInvalidUtf8Bytes (s : Bytes) : Utf8.Valid (stripInvalidUtf8Bytes s) := by
  induction hlength : s.length using Nat.strong_induction_on generalizing s with
  | _ n ih =>
    cases s with
    | nil => exact Utf8.valid_nil
    | cons lead rest =>
      have hlt : rest.length < n := by rw [← hlength, List.length_cons]; omega
      rw [stripInvalidUtf8Bytes, stripFrom]
      split_ifs with hone
      · exact (Utf8.valid_singleton hone).append (ih rest.length hlt rest rfl)
      · cases hmore : continuations lead rest with
        | none => exact ih rest.length hlt rest rfl
        | some more =>
          obtain ⟨hle, hsequence⟩ := sequence_of_continuations hmore
          obtain ⟨c, hc⟩ := Utf8.exists_char_of_sequence hsequence
          simp only
          rw [stripFrom_copy hle, ← List.cons_append, hc]
          refine (Utf8.valid_encodeChar c).append (ih (rest.drop more).length ?_ _ rfl)
          rw [List.length_drop]
          omega

theorem stripInvalidUtf8Bytes_encode (text : List Char) : stripInvalidUtf8Bytes (Utf8.encode text) =
    Utf8.encode text := by
  induction text with
  | nil => rfl
  | cons c text ih => rw [Utf8.encode_cons, stripInvalidUtf8Bytes_encodeChar, ih]

theorem stripInvalidUtf8Bytes_eq_self {s : Bytes} : stripInvalidUtf8Bytes s = s ↔ Utf8.Valid s := by
  constructor
  · intro h
    rw [← h]
    exact valid_stripInvalidUtf8Bytes s
  · rintro ⟨text, rfl⟩
    exact stripInvalidUtf8Bytes_encode text

end Utf8Stripping

section JsonRepair

open JsonGrammar

def dropDel (s : Bytes) : Bytes := s.filter (· ≠ 0x7F)

theorem dropDel_append (s t : Bytes) : dropDel (s ++ t) = dropDel s ++ dropDel t := List.filter_append _ _

theorem dropDel_eq_self {s : Bytes} : dropDel s = s ↔ 0x7F ∉ s := by
  rw [dropDel, List.filter_eq_self]
  simp only [ne_eq, decide_eq_true_eq]
  exact ⟨fun h hmem => h 0x7F hmem rfl, fun h b hb heq => h (heq ▸ hb)⟩

def Passes (state state' : TextState) (text : List Char) : Prop :=
  ∀ rest, repairText state (Utf8.encode text ++ rest) = dropDel (Utf8.encode text) ++ repairText state' rest

variable {state state' state'' : TextState} {text text' : List Char} {c : Char}

theorem passes_nil (state : TextState) : Passes state state [] := fun _ => rfl

theorem Passes.append (h : Passes state state' text) (h' : Passes state' state'' text') :
    Passes state state'' (text ++ text') := by
  intro rest
  rw [Utf8.encode_append, List.append_assoc, h, h', dropDel_append, List.append_assoc]

theorem Passes.cons (h : Passes state state' [c]) (h' : Passes state' state'' text) :
    Passes state state'' (c :: text) := h.append h'

theorem passes_of_forall (h : ∀ c ∈ text, Passes state state [c]) : Passes state state text := by
  induction text with
  | nil => exact passes_nil state
  | cons c text ih => exact (h c List.mem_cons_self).cons (ih fun d hd => h d (List.mem_cons_of_mem _ hd))

theorem passes_ascii (hc : c.val.toNat ≤ 0x7F)
    (hbyte : repairedByte state (UInt8.ofNat c.val.toNat) = dropDel [UInt8.ofNat c.val.toNat])
    (hnext : state.next (UInt8.ofNat c.val.toNat) = state') : Passes state state' [c] := by
  intro rest
  rw [Utf8.encode_cons, Utf8.encode_nil, List.append_nil, Utf8.encodeChar_ascii hc, List.singleton_append, repairText,
    hbyte, hnext]

theorem repairText_high {bs : Bytes} (hstate : state ≠ .escaped) (h : ∀ b ∈ bs, 0x80 ≤ b.toNat) (rest : Bytes) :
    repairText state (bs ++ rest) = bs ++ repairText state rest := by
  induction bs with
  | nil => rfl
  | cons b bs ih =>
    have hb := h b List.mem_cons_self
    have hordinary : b ≠ 34 ∧ b ≠ 92 ∧ isDisallowedJsonControlByte b = false := by
      refine ⟨?_, ?_, ?_⟩
      · rintro rfl
        exact absurd hb (by decide)
      · rintro rfl
        exact absurd hb (by decide)
      · simp only [isDisallowedJsonControlByte, Bool.or_eq_false_iff, decide_eq_false_iff_not, UInt8.lt_iff_toNat_lt,
          ← UInt8.toNat_inj, UInt8.reduceToNat]
        omega
    obtain ⟨hquote, hbackslash, hcontrol⟩ := hordinary
    rw [List.cons_append, repairText]
    cases state with
    | outside =>
      rw [TextState.next, if_neg hquote, ih fun d hd => h d (List.mem_cons_of_mem _ hd)]
      simp [repairedByte, hcontrol]
    | inString =>
      rw [TextState.next, if_neg hbackslash, if_neg hquote, ih fun d hd => h d (List.mem_cons_of_mem _ hd)]
      simp [repairedByte, hcontrol]
    | escaped => exact absurd rfl hstate

theorem passes_high (hstate : state ≠ .escaped) (hc : 0x7F < c.val.toNat) : Passes state state [c] := by
  intro rest
  have hhigh : ∀ b ∈ String.utf8EncodeChar c, 0x80 ≤ b.toNat := fun b hb => Utf8.encodeChar_high hc hb
  have hdel : dropDel (String.utf8EncodeChar c) = String.utf8EncodeChar c :=
    dropDel_eq_self.mpr fun hmem => absurd (hhigh _ hmem) (by decide)
  rw [Utf8.encode_cons, Utf8.encode_nil, List.append_nil, hdel, repairText_high hstate hhigh]

theorem passes_outside (hc : c.val.toNat < 0x7F) (hquote : c.val.toNat ≠ 34)
    (hprintable : 0x20 ≤ c.val.toNat ∨ c.val.toNat ∈ [9, 10, 13]) : Passes .outside .outside [c] := by
  have hall : ∀ n : Fin 0x7F, n.val ≠ 34 → 0x20 ≤ n.val ∨ n.val ∈ [9, 10, 13] →
      repairedByte .outside (UInt8.ofNat n) = dropDel [UInt8.ofNat n] ∧
        TextState.outside.next (UInt8.ofNat n) = .outside := by decide
  obtain ⟨hbyte, hnext⟩ := hall ⟨c.val.toNat, hc⟩ hquote hprintable
  exact passes_ascii hc.le hbyte hnext

theorem passes_inString (hlow : 0x20 ≤ c.val.toNat) (hquote : c.val.toNat ≠ 34) (hbackslash : c.val.toNat ≠ 92) :
    Passes .inString .inString [c] := by
  by_cases hc : c.val.toNat ≤ 0x7F
  · have hall : ∀ n : Fin 0x80, 0x20 ≤ n.val → n.val ≠ 34 → n.val ≠ 92 →
        repairedByte .inString (UInt8.ofNat n) = dropDel [UInt8.ofNat n] ∧
          TextState.inString.next (UInt8.ofNat n) = .inString := by decide
    obtain ⟨hbyte, hnext⟩ := hall ⟨c.val.toNat, by omega⟩ hlow hquote hbackslash
    exact passes_ascii hc hbyte hnext
  · exact passes_high (by decide) (by omega)

theorem passes_escaped (hc : c.val.toNat < 0x7F) : Passes .escaped .inString [c] := by
  have hall : ∀ n : Fin 0x7F, repairedByte .escaped (UInt8.ofNat n) = dropDel [UInt8.ofNat n] := by decide
  exact passes_ascii hc.le (hall ⟨c.val.toNat, hc⟩) rfl

theorem passes_digits (h : ∀ d ∈ text, IsDigit d) : Passes .outside .outside text := by
  apply passes_of_forall
  intro d hd
  have hrange : 48 ≤ d.val.toNat ∧ d.val.toNat ≤ 57 := h d hd
  exact passes_outside (by omega) (by omega) (by omega)

theorem passes_whitespace (h : Whitespace text) : Passes .outside .outside text := by
  apply passes_of_forall
  intro c hc
  have hspace := h c hc
  simp only [List.mem_cons, List.not_mem_nil, or_false] at hspace
  obtain rfl | rfl | rfl | rfl := hspace <;> exact passes_outside (by decide) (by decide) (by decide)

theorem passes_literal (h : text ∈ literals) : Passes .outside .outside text := by
  apply passes_of_forall
  intro c hc
  have hletter : ∀ word ∈ literals, word.all (fun c => 97 ≤ c.val.toNat && c.val.toNat ≤ 122) = true := by decide
  have hrange := List.all_eq_true.mp (hletter text h) c hc
  simp only [Bool.and_eq_true, decide_eq_true_eq] at hrange
  exact passes_outside (by omega) (by omega) (by omega)

theorem passes_number (h : IsNumber text) : Passes .outside .outside text := by
  obtain ⟨sign, integer, fraction, exponent, rfl, hsign, hinteger, hfraction, hexponent⟩ := h
  have hminus : Passes .outside .outside ['-'] := passes_outside (by decide) (by decide) (by decide)
  have hplus : Passes .outside .outside ['+'] := passes_outside (by decide) (by decide) (by decide)
  have hsign' : Passes .outside .outside sign := by
    simp only [List.mem_cons, List.not_mem_nil, or_false] at hsign
    obtain rfl | rfl := hsign
    · exact passes_nil _
    · exact hminus
  have hinteger' : Passes .outside .outside integer := by
    cases hinteger with
    | zero => exact passes_outside (by decide) (by decide) (by decide)
    | @positive c rest hc h =>
      have hrange : 49 ≤ c.val.toNat ∧ c.val.toNat ≤ 57 := hc
      exact (passes_outside (by omega) (by omega) (by omega)).cons (passes_digits h)
  have hfraction' : Passes .outside .outside fraction := by
    cases hfraction with
    | none => exact passes_nil _
    | digits h => exact (passes_outside (by decide) (by decide) (by decide)).cons (passes_digits h.2)
  have hexponent' : Passes .outside .outside exponent := by
    cases hexponent with
    | none => exact passes_nil _
    | @digits e sign text he hsign h =>
      have hmark : Passes .outside .outside [e] := by
        simp only [List.mem_cons, List.not_mem_nil, or_false] at he
        obtain rfl | rfl := he <;> exact passes_outside (by decide) (by decide) (by decide)
      have hpower : Passes .outside .outside sign := by
        simp only [List.mem_cons, List.not_mem_nil, or_false] at hsign
        obtain rfl | rfl | rfl := hsign
        · exact passes_nil _
        · exact hplus
        · exact hminus
      exact (hmark.cons hpower).append (passes_digits h.2)
  exact ((hsign'.append hinteger').append hfraction').append hexponent'

theorem passes_stringChar (h : StringChar text) : Passes .inString .inString text := by
  have hbackslash : Passes .inString .escaped ['\\'] := passes_ascii (by decide) (by decide) (by decide)
  cases h with
  | @unescaped c hlow hquote hback =>
    have hlow' : 0x20 ≤ c.val.toNat := hlow
    refine passes_inString hlow' (fun h => hquote ?_) (fun h => hback ?_)
    · exact Char.ext (UInt32.toNat_inj.mp h)
    · exact Char.ext (UInt32.toNat_inj.mp h)
  | @escaped c h =>
    refine hbackslash.cons (passes_escaped ?_)
    simp only [List.mem_cons, List.not_mem_nil, or_false] at h
    obtain rfl | rfl | rfl | rfl | rfl | rfl | rfl | rfl := h <;> decide
  | @unicode digits hlength h =>
    refine hbackslash.cons ((passes_escaped (by decide)).cons (passes_of_forall fun d hd => ?_))
    have hrange : (48 ≤ d.val.toNat ∧ d.val.toNat ≤ 57) ∨ (97 ≤ d.val.toNat ∧ d.val.toNat ≤ 102) ∨
        65 ≤ d.val.toNat ∧ d.val.toNat ≤ 70 := h d hd
    exact passes_inString (by omega) (by omega) (by omega)

theorem passes_string (h : IsString text) : Passes .outside .outside text := by
  obtain ⟨chars, rfl, hchars⟩ := h
  have hopen : Passes .outside .inString ['"'] := passes_ascii (by decide) (by decide) (by decide)
  have hclose : Passes .inString .outside ['"'] := passes_ascii (by decide) (by decide) (by decide)
  refine hopen.cons (Passes.append ?_ hclose)
  induction chars with
  | nil => exact passes_nil _
  | cons char chars ih =>
    exact (passes_stringChar (hchars char List.mem_cons_self)).append
      (ih fun other hother => hchars other (List.mem_cons_of_mem _ hother))

theorem passes_derives {phrase : Phrase} (h : Derives phrase text) : Passes .outside .outside text := by
  have hopen : Passes .outside .outside ['\x7b'] := passes_outside (by decide) (by decide) (by decide)
  have hclose : Passes .outside .outside ['\x7d'] := passes_outside (by decide) (by decide) (by decide)
  have hbracket : Passes .outside .outside ['['] := passes_outside (by decide) (by decide) (by decide)
  have hbracket' : Passes .outside .outside [']'] := passes_outside (by decide) (by decide) (by decide)
  have hcomma : Passes .outside .outside [','] := passes_outside (by decide) (by decide) (by decide)
  have hcolon : Passes .outside .outside [':'] := passes_outside (by decide) (by decide) (by decide)
  induction h with
  | literal h => exact passes_literal h
  | number h => exact passes_number h
  | string h => exact passes_string h
  | emptyArray h => exact hbracket.cons ((passes_whitespace h).append hbracket')
  | array _ ih => exact hbracket.cons (ih.append hbracket')
  | emptyObject h => exact hopen.cons ((passes_whitespace h).append hclose)
  | object _ ih => exact hopen.cons (ih.append hclose)
  | text hbefore _ hafter ih => exact ((passes_whitespace hbefore).append ih).append (passes_whitespace hafter)
  | lastElement _ ih => exact ih
  | element _ _ ih ihrest => exact ih.append (hcomma.cons ihrest)
  | member hbefore hname hafter _ ih =>
    exact (((passes_whitespace hbefore).append (passes_string hname)).append (passes_whitespace hafter)).append
      (hcolon.cons ih)
  | lastMember _ ih => exact ih
  | nextMember _ _ ih ihrest => exact ih.append (hcomma.cons ihrest)

theorem sanitizeRequestJsonBytes_text (h : IsText text) :
    sanitizeRequestJsonBytes (Utf8.encode text) = dropDel (Utf8.encode text) := by
  have hpasses := passes_derives h []
  rw [List.append_nil] at hpasses
  rw [sanitizeRequestJsonBytes, stripInvalidUtf8Bytes_encode, escapeControlBytesInJsonStrings, hpasses, repairText,
    List.append_nil]

theorem request_sanitizing_sound (s : Bytes) :
    Utf8.Valid (stripInvalidUtf8Bytes s) ∧ (stripInvalidUtf8Bytes s = s ↔ Utf8.Valid s) ∧
    stripInvalidUtf8Bytes (stripInvalidUtf8Bytes s) = stripInvalidUtf8Bytes s ∧
    ∀ text, IsText text → s = Utf8.encode text →
      sanitizeRequestJsonBytes s = dropDel s ∧ (sanitizeRequestJsonBytes s = s ↔ 0x7F ∉ s) := by
  have hvalid := valid_stripInvalidUtf8Bytes s
  refine ⟨hvalid, stripInvalidUtf8Bytes_eq_self, stripInvalidUtf8Bytes_eq_self.mpr hvalid, ?_⟩
  rintro text htext rfl
  have hdrops := sanitizeRequestJsonBytes_text htext
  refine ⟨hdrops, ?_⟩
  rw [hdrops]
  exact dropDel_eq_self

theorem del_is_dropped : IsText ['"', Char.ofNat 0x7F, '"'] ∧
    Utf8.encode ['"', Char.ofNat 0x7F, '"'] = [34, 0x7F, 34] ∧ sanitizeRequestJsonBytes [34, 0x7F, 34] = [34, 34] := by
  refine ⟨?_, by decide, by decide⟩
  have hstring : IsString ['"', Char.ofNat 0x7F, '"'] :=
    ⟨[[Char.ofNat 0x7F]], rfl, by simpa using .unescaped (by decide) (by decide) (by decide)⟩
  have hspace : Whitespace [] := by simp [Whitespace]
  have htext : Derives .text ([] ++ ['"', Char.ofNat 0x7F, '"'] ++ []) := .text hspace (.string hstring) hspace
  exact htext

end JsonRepair

end Tightrope.Proxy.Openai
