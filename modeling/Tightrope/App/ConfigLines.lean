import Mathlib.Data.List.TakeWhile
import Tightrope.App.TomlTables

namespace Tightrope.App

open Headings

def inspectedSection (line : Text) : Option Text := parseSectionName (parseActiveTomlExpression line)

def inspectedKey (line : Text) : Option Text :=
  (parseTomlKeyValueExpression ((parseActiveTomlExpression line).getD [])).map Prod.fst

def StartsWithKey (key text : Text) : Prop :=
  ∃ blanks rest, text = key ++ blanks ++ '=' :: rest ∧ ∀ c ∈ blanks, isSpace c = true

section Trimming

variable {line text u v : Text} {c : Char}

theorem isSpace_of_isBlank (h : isBlank c = true) : isSpace c = true := by
  obtain h | h := Bool.or_eq_true_iff.mp h
  · rw [of_decide_eq_true h]
    decide
  · rw [of_decide_eq_true h]
    decide

theorem isSpace_eq_false (h : 32 < c.toNat ∧ c.toNat < 127) : isSpace c = false := by
  simp only [isSpace, Bool.or_eq_false_iff, Bool.and_eq_false_imp, decide_eq_true_eq, decide_eq_false_iff_not]
  omega

theorem isAlphanum_range (h : c.isAlphanum = true) : 32 < c.toNat ∧ c.toNat < 127 := by
  have hrange : (decide (c.val ≥ 65 ∧ c.val ≤ 90) || (c.val ≥ 97 && c.val ≤ 122) || (c.val ≥ 48 && c.val ≤ 57)) =
      true := h
  simp only [Bool.or_eq_true, Bool.and_eq_true, decide_eq_true_eq, ge_iff_le, UInt32.le_iff_toNat_le] at hrange
  have hval : c.toNat = c.val.toNat := rfl
  simp at hrange
  omega

theorem isKeyChar_range (h : isKeyChar c = true) : 32 < c.toNat ∧ c.toNat < 127 := by
  simp only [isKeyChar, Bool.or_eq_true, decide_eq_true_eq] at h
  obtain ((h | rfl) | rfl) | rfl := h
  · exact isAlphanum_range h
  · decide
  · decide
  · decide

theorem trimStart_dropBlanks : trimStart (line.dropWhile isBlank) = trimStart line := by
  induction line with
  | nil => rfl
  | cons c line ih =>
    rw [List.dropWhile_cons]
    split_ifs with hblank
    · rw [ih, trimStart, trimStart, List.dropWhile_cons, if_pos (isSpace_of_isBlank hblank)]
    · rfl

theorem trimStart_cons (h : isSpace c = false) : trimStart (c :: text) = c :: text := by
  rw [trimStart, List.dropWhile_cons, if_neg (by rw [h]; exact Bool.false_ne_true)]

theorem isSpace_of_head?_trimStart (h : (trimStart line).head? = some c) : isSpace c = false := by
  have hne := List.head?_dropWhile_not isSpace line
  rw [trimStart] at h
  rw [h] at hne
  exact hne

theorem exists_trimEnd (text : Text) : ∃ blanks, text = trimEnd text ++ blanks ∧ ∀ c ∈ blanks, isSpace c = true := by
  refine ⟨(text.reverse.takeWhile isSpace).reverse, ?_, fun c hc => ?_⟩
  · rw [trimEnd, ← List.reverse_append, List.takeWhile_append_dropWhile, List.reverse_reverse]
  · exact List.mem_takeWhile_imp (List.mem_reverse.mp hc)

theorem head?_trimEnd (h : text.head? = some c) (hc : isSpace c = false) : (trimEnd text).head? = some c := by
  obtain ⟨blanks, heq, hblanks⟩ := exists_trimEnd text
  cases htrimmed : trimEnd text with
  | nil =>
    rw [htrimmed, List.nil_append] at heq
    have hmem : c ∈ blanks := by
      rw [← heq]
      exact List.mem_of_mem_head? h
    rw [hblanks c hmem] at hc
    cases hc
  | cons d rest =>
    rw [heq, htrimmed] at h
    exact h

theorem head?_trim (line : Text) : (trim line).head? = (trimStart line).head? := by
  cases hhead : (trimStart line).head? with
  | none =>
    rw [trim, List.head?_eq_none_iff.mp hhead]
    rfl
  | some c => exact head?_trimEnd hhead (isSpace_of_head?_trimStart hhead)

theorem head?_stripInlineComment (h : text.head? = some c) (hspace : isSpace c = false) (hcomment : c ≠ '#') :
    (stripInlineComment text).head? = some c := by
  cases text with
  | nil => cases h
  | cons d rest =>
    obtain rfl := Option.some.inj h
    rw [stripInlineComment, head?_trim, List.takeWhile_cons, if_pos (decide_eq_true hcomment), trimStart_cons hspace]
    rfl

theorem trimStart_trimStart : trimStart (trimStart line) = trimStart line := by
  cases hline : trimStart line with
  | nil => rfl
  | cons c rest => exact trimStart_cons (isSpace_of_head?_trimStart (congrArg List.head? hline))

theorem trimStart_takeWhile {p : Char → Bool} : trimStart ((trimStart line).takeWhile p) =
    (trimStart line).takeWhile p := by
  cases hline : trimStart line with
  | nil => rfl
  | cons c rest =>
    rw [List.takeWhile_cons]
    split_ifs
    · exact trimStart_cons (isSpace_of_head?_trimStart (congrArg List.head? hline))
    · rfl

theorem parseActiveTomlExpression_eq_some (h : parseActiveTomlExpression line = some text) :
    text = stripInlineComment (trimStart line) ∧ text.head? = (trimStart line).head? := by
  unfold parseActiveTomlExpression at h
  simp only at h
  split_ifs at h with hnone
  obtain rfl := Option.some.inj h
  refine ⟨rfl, ?_⟩
  obtain ⟨hne, hcomment⟩ := not_or.mp hnone
  cases hhead : (trimStart line).head? with
  | none => exact absurd (List.head?_eq_none_iff.mp hhead) hne
  | some c => exact head?_stripInlineComment hhead (isSpace_of_head?_trimStart hhead) fun heq => hcomment (heq ▸ hhead)

end Trimming

section Headers

variable {line text name : Text}

theorem head?_of_bracketed (h : bracketed text = some name) : text.head? = some '[' := by
  cases text with
  | nil => cases h
  | cons c rest =>
    simp only [bracketed] at h
    split_ifs at h with hparts
    rw [List.head?_cons, hparts.1]

theorem head?_of_sectionNameForLine (h : sectionNameForLine line = some name) : (trimStart line).head? = some '[' := by
  unfold sectionNameForLine at h
  simp only at h
  split_ifs at h
  rw [← head?_trim]
  exact head?_of_bracketed h

theorem head?_of_inspectedSection (h : inspectedSection line = some name) : (trimStart line).head? = some '[' := by
  obtain ⟨expression, hexpression, hname⟩ := Option.bind_eq_some_iff.mp h
  rw [← (parseActiveTomlExpression_eq_some hexpression).2]
  exact head?_of_bracketed hname

theorem head?_of_opensTable {table : TomlTable} (h : opensTable line = some table) :
    (trimStart line).head? = some '[' := by
  rw [← trimStart_dropBlanks]
  unfold opensTable readLine at h
  by_cases hreturn : carriageReturn ∈ line
  · rw [if_pos hreturn] at h
    cases h
  · rw [if_neg hreturn] at h
    cases hline : line.dropWhile isBlank with
    | nil =>
      rw [hline] at h
      cases h
    | cons c rest =>
      rw [hline] at h
      by_cases hcomment : c = '#'
      · simp only [if_pos hcomment] at h
        cases h
      · by_cases hbracket : c = '['
        · rw [hbracket, trimStart_cons (by decide)]
          rfl
        · simp only [if_neg hcomment, if_neg hbracket, readEntry] at h
          split_ifs at h

end Headers

section Keys

variable {line text key u v : Text}

theorem StartsWithKey.append (h : StartsWithKey key u) (v : Text) : StartsWithKey key (u ++ v) := by
  obtain ⟨blanks, rest, rfl, hblanks⟩ := h
  exact ⟨blanks, rest ++ v, by rw [List.append_assoc, List.append_assoc, List.cons_append, List.append_assoc], hblanks⟩

theorem StartsWithKey.of_append (h : StartsWithKey key (u ++ v)) (hv : ∀ c ∈ v, isSpace c = true) :
    StartsWithKey key u := by
  obtain ⟨blanks, rest, heq, hblanks⟩ := h
  have hprefix : key ++ blanks ++ ['='] <+: u ++ v :=
      ⟨rest, by rw [heq, List.append_assoc _ ['='], List.singleton_append]⟩
  obtain hle | hlt := le_or_gt (key ++ blanks ++ ['=']).length u.length
  · obtain ⟨rest', hu⟩ := List.prefix_of_prefix_length_le hprefix (List.prefix_append u v) hle
    exact ⟨blanks, rest', by rw [← hu, List.append_assoc _ ['='], List.singleton_append], hblanks⟩
  · obtain ⟨rest', hu⟩ := List.prefix_of_prefix_length_le (List.prefix_append u v) hprefix hlt.le
    have hlast : '=' ∈ rest' := by
      have hne : rest' ≠ [] := by
        rintro rfl
        rw [List.append_nil] at hu
        rw [hu] at hlt
        exact lt_irrefl _ hlt
      have hgetLast := congrArg List.getLast? hu
      rw [List.getLast?_append_of_ne_nil _ hne, List.getLast?_concat] at hgetLast
      exact List.mem_of_getLast? hgetLast
    have hmem : '=' ∈ v := by
      have hsplit : u ++ v = u ++ (rest' ++ rest) := by
        rw [heq, ← List.append_assoc u, hu, List.append_assoc _ ['='], List.singleton_append]
      rw [List.append_cancel_left hsplit]
      exact List.mem_append_left _ hlast
    exact absurd (hv _ hmem) (by decide)

theorem startsWithKey_trimEnd : StartsWithKey key (trimEnd text) ↔ StartsWithKey key text := by
  obtain ⟨blanks, heq, hblanks⟩ := exists_trimEnd text
  constructor
  · intro h
    rw [heq]
    exact h.append blanks
  · intro h
    rw [heq] at h
    exact h.of_append hblanks

theorem takeWhile_of_head {α : Type} {p : α → Bool} {list : List α} (h : ∀ a ∈ list.head?, p a = false) :
    list.takeWhile p = [] ∧ list.dropWhile p = list := by
  cases list with
  | nil => exact ⟨rfl, rfl⟩
  | cons a rest =>
    have ha : ¬ p a = true := by
      rw [h a rfl]
      exact Bool.false_ne_true
    exact ⟨by rw [List.takeWhile_cons, if_neg ha], by rw [List.dropWhile_cons, if_neg ha]⟩

theorem startsWithKey_iff (hkey : ∀ c ∈ key, isKeyChar c = true) :
    StartsWithKey key text ↔ text.takeWhile isKeyChar = key ∧
      ((text.dropWhile isKeyChar).dropWhile isSpace).head? = some '=' := by
  constructor
  · rintro ⟨blanks, rest, rfl, hblanks⟩
    have hstop : ∀ c ∈ (blanks ++ '=' :: rest).head?, isKeyChar c = false := by
      intro c hc
      rw [← Bool.not_eq_true]
      intro hchar
      cases blanks with
      | nil =>
        obtain rfl := Option.some.inj hc
        exact absurd hchar (by decide)
      | cons d blanks =>
        obtain rfl := Option.some.inj hc
        have hspace := hblanks d List.mem_cons_self
        rw [isSpace_eq_false (isKeyChar_range hchar)] at hspace
        cases hspace
    obtain ⟨htake, hdrop⟩ := takeWhile_of_head hstop
    rw [List.append_assoc, List.takeWhile_append_of_pos hkey, List.dropWhile_append_of_pos hkey, htake, hdrop,
      List.append_nil, List.dropWhile_append_of_pos hblanks]
    exact ⟨rfl, rfl⟩
  · rintro ⟨htake, hdrop⟩
    obtain ⟨rest, hrest⟩ := List.head?_eq_some_iff.mp hdrop
    refine ⟨(text.dropWhile isKeyChar).takeWhile isSpace, rest, ?_, fun c hc => List.mem_takeWhile_imp hc⟩
    rw [← htake, ← hrest, List.append_assoc, List.takeWhile_append_dropWhile, List.takeWhile_append_dropWhile]

theorem head?_of_startsWithKey (hkey : ∀ c ∈ key, isKeyChar c = true) (hne : key ≠ []) (h : StartsWithKey key text) :
    ∃ c, text.head? = some c ∧ isKeyChar c = true := by
  obtain ⟨blanks, rest, rfl, -⟩ := h
  cases key with
  | nil => exact absurd rfl hne
  | cons c key => exact ⟨c, rfl, hkey c List.mem_cons_self⟩

theorem keyOfLine_eq_some_iff (hkey : ∀ c ∈ key, isKeyChar c = true) (hne : key ≠ []) :
    keyOfLine line = some key ↔ StartsWithKey key (trim line) := by
  rw [startsWithKey_iff hkey]
  unfold keyOfLine
  simp only
  constructor
  · intro h
    split_ifs at h with hnone hstart
    exact ⟨Option.some.inj h, hstart.2⟩
  · rintro ⟨htake, hdrop⟩
    have hhead : ∃ c, (trim line).head? = some c ∧ isKeyChar c = true :=
      head?_of_startsWithKey hkey hne ((startsWithKey_iff hkey).mpr ⟨htake, hdrop⟩)
    obtain ⟨c, hc, hchar⟩ := hhead
    rw [if_neg, if_pos ⟨htake ▸ hne, hdrop⟩, htake]
    rintro (hnil | hcomment)
    · rw [hnil] at hc
      cases hc
    · obtain rfl := Option.some.inj (hc.symm.trans hcomment)
      exact absurd hchar (by decide)

theorem isKeyChar_of_keyOfLine (h : keyOfLine line = some key) : (∀ c ∈ key, isKeyChar c = true) ∧ key ≠ [] := by
  unfold keyOfLine at h
  simp only at h
  split_ifs at h with _ hstart
  obtain rfl := Option.some.inj h
  exact ⟨fun c hc => List.mem_takeWhile_imp hc, hstart.1⟩

theorem isActiveKeyLine_iff (hkey : ∀ c ∈ key, isKeyChar c = true) (hne : key ≠ []) :
    isActiveKeyLine line key = true ↔ StartsWithKey key (trim line) := by
  unfold isActiveKeyLine
  simp only [Bool.and_eq_true, decide_eq_true_eq]
  constructor
  · rintro ⟨⟨-, hprefix⟩, hdrop⟩
    obtain ⟨rest, hrest⟩ := List.isPrefixOf_iff_prefix.mp hprefix
    rw [← hrest, List.drop_left] at hdrop
    obtain ⟨tail, htail⟩ := List.head?_eq_some_iff.mp hdrop
    refine ⟨rest.takeWhile isSpace, tail, ?_, fun c hc => List.mem_takeWhile_imp hc⟩
    rw [← hrest, ← htail, List.append_assoc, List.takeWhile_append_dropWhile]
  · intro h
    obtain ⟨c, hc, hchar⟩ := head?_of_startsWithKey hkey hne h
    obtain ⟨blanks, rest, heq, hblanks⟩ := h
    refine ⟨⟨⟨?_, ?_⟩, ?_⟩, ?_⟩
    · intro hnil
      rw [hnil] at hc
      cases hc
    · intro hcomment
      obtain rfl := Option.some.inj (hc.symm.trans hcomment)
      exact absurd hchar (by decide)
    · exact List.isPrefixOf_iff_prefix.mpr ⟨blanks ++ '=' :: rest, by rw [heq, List.append_assoc]⟩
    · rw [heq, List.append_assoc, List.drop_left, List.dropWhile_append_of_pos hblanks]
      rfl

theorem inspectedKey_startsWith (h : inspectedKey line = some key) :
    (∀ c ∈ key, isKeyChar c = true) ∧ key ≠ [] ∧ StartsWithKey key (trim line) := by
  obtain ⟨⟨key', rawValue⟩, hread, rfl⟩ := Option.map_eq_some_iff.mp h
  cases hactive : parseActiveTomlExpression line with
  | none =>
    rw [hactive] at hread
    cases hread
  | some expression =>
    rw [hactive, Option.getD_some] at hread
    have hstart : (∀ c ∈ key', isKeyChar c = true) ∧ key' ≠ [] ∧ StartsWithKey key' expression := by
      unfold parseTomlKeyValueExpression at hread
      simp only at hread
      split at hread
      · cases hread
      · rename_i c rest hrest
        split_ifs at hread with hnone
        all_goals
          obtain ⟨rfl, -⟩ := Prod.mk.inj (Option.some.inj hread)
          obtain ⟨hequals, hne⟩ := not_or.mp hnone
          have hchars : ∀ c ∈ expression.takeWhile isKeyChar, isKeyChar c = true :=
              fun c hc => List.mem_takeWhile_imp hc
          exact ⟨hchars, hne, (startsWithKey_iff hchars).mpr ⟨rfl, by rw [hrest, List.head?_cons, not_not.mp hequals]⟩⟩
    obtain ⟨hchars, hne, hstart⟩ := hstart
    refine ⟨hchars, hne, ?_⟩
    -- The expression is the line without its comment, so what it begins with the line does too.
    obtain ⟨hexpression, -⟩ := parseActiveTomlExpression_eq_some hactive
    have hline : StartsWithKey key' ((trimStart line).takeWhile (· ≠ '#')) := by
      rw [hexpression, stripInlineComment, trim, startsWithKey_trimEnd, trimStart_takeWhile] at hstart
      exact hstart
    rw [trim, startsWithKey_trimEnd, ← List.takeWhile_append_dropWhile (p := (· ≠ '#')) (l := trimStart line)]
    exact hline.append _

end Keys

section Agreement

variable {line key : Text} {name : Text}

theorem isKeyChar_modelProvider : ∀ c ∈ modelProvider, isKeyChar c = true :=
  List.all_eq_true.mp (by decide)

theorem modelProvider_ne_nil : modelProvider ≠ [] := by decide

theorem isActiveKeyLine_modelProvider_iff : isActiveKeyLine line modelProvider = true ↔
    keyOfLine line = some modelProvider := by
  rw [isActiveKeyLine_iff isKeyChar_modelProvider modelProvider_ne_nil,
    keyOfLine_eq_some_iff isKeyChar_modelProvider modelProvider_ne_nil]

theorem keyOfLine_of_inspectedKey (h : inspectedKey line = some key) : keyOfLine line = some key := by
  obtain ⟨hkey, hne, hstart⟩ := inspectedKey_startsWith h
  exact (keyOfLine_eq_some_iff hkey hne).mpr hstart

theorem noHeader_of_keyOfLine (h : keyOfLine line = some key) :
    sectionNameForLine line = none ∧ inspectedSection line = none ∧ opensTable line = none := by
  obtain ⟨hkey, hne⟩ := isKeyChar_of_keyOfLine h
  obtain ⟨c, hc, hchar⟩ := head?_of_startsWithKey hkey hne ((keyOfLine_eq_some_iff hkey hne).mp h)
  rw [head?_trim] at hc
  have hbracket : (trimStart line).head? ≠ some '[' := by
    intro hhead
    obtain rfl := Option.some.inj (hc.symm.trans hhead)
    exact absurd hchar (by decide)
  refine ⟨?_, ?_, ?_⟩
  · exact Option.eq_none_iff_forall_ne_some.mpr fun name hname => hbracket (head?_of_sectionNameForLine hname)
  · exact Option.eq_none_iff_forall_ne_some.mpr fun name hname => hbracket (head?_of_inspectedSection hname)
  · exact Option.eq_none_iff_forall_ne_some.mpr fun table htable => hbracket (head?_of_opensTable htable)

theorem inspectedSection_of_providerHeader (h : sectionNameForLine line = some tightropeProviderSection) :
    inspectedSection line = some tightropeProviderSection := by
  unfold sectionNameForLine at h
  simp only at h
  split_ifs at h with hnone
  have hheader : trim line = header tightropeProviderSection := by
    cases htrim : trim line with
    | nil => exact absurd htrim (not_or.mp hnone).1
    | cons c rest =>
      rw [htrim] at h
      simp only [bracketed] at h
      split_ifs at h with hparts
      rw [← Option.some.inj h, header, List.dropLast_append_getLast? _ hparts.2.1, hparts.1]
  obtain ⟨blanks, heq, hblanks⟩ := exists_trimEnd (trimStart line)
  have htrim : trimEnd (trimStart line) = header tightropeProviderSection := hheader
  rw [htrim] at heq
  -- There is no comment to strip.
  have hplain : (trimStart line).takeWhile (· ≠ '#') = trimStart line := by
    rw [List.takeWhile_eq_self_iff, heq]
    intro c hc
    obtain hc | hc := List.mem_append.mp hc
    · exact List.all_eq_true.mp (by decide : (header tightropeProviderSection).all (· ≠ '#') = true) c hc
    · refine decide_eq_true ?_
      rintro rfl
      exact absurd (hblanks _ hc) (by decide)
  have hexpression : stripInlineComment (trimStart line) = header tightropeProviderSection := by
    rw [stripInlineComment, hplain, trim, trimStart_trimStart]
    exact htrim
  have hactive : parseActiveTomlExpression line = some (header tightropeProviderSection) := by
    unfold parseActiveTomlExpression
    simp only
    rw [hexpression, if_neg, if_neg (by decide)]
    rw [heq]
    rintro (hnil | hcomment)
    · cases hnil
    · exact absurd (Option.some.inj hcomment) (by decide)
  rw [inspectedSection, hactive]
  decide

theorem readName_eq_some {array : Bool} {text : Text} {kind : TomlLine} (h : readName array text = some kind) :
    ∃ key, kind = .table array key := by
  obtain ⟨found, -, h⟩ := Option.bind_eq_some_iff.mp h
  by_cases hok : (array = true → found.2.head? = some ']') ∧ stripBlanks found.1 ≠ [] ∧
      endsLine (if array then found.2.tail else found.2) = true
  · rw [if_pos hok] at h
    exact ⟨_, (Option.some.inj h).symm⟩
  · rw [if_neg hok] at h
    cases h

theorem isBareKeyChar_range {c : Char} (h : isBareKeyChar c = true) :
    32 < c.toNat ∧ c.toNat < 127 ∧ c ≠ '[' ∧ isBlank c = false := by
  have hchar : isKeyChar c = true := by
    simp only [isBareKeyChar, Bool.or_eq_true, decide_eq_true_eq] at h
    simp only [isKeyChar, Bool.or_eq_true, decide_eq_true_eq]
    tauto
  obtain ⟨hlow, hhigh⟩ := isKeyChar_range hchar
  refine ⟨hlow, hhigh, ?_, ?_⟩
  · rintro rfl
    exact absurd hchar (by decide)
  · rw [← Bool.not_eq_true]
    intro hblank
    have hspace := isSpace_of_isBlank hblank
    rw [isSpace_eq_false ⟨hlow, hhigh⟩] at hspace
    cases hspace

theorem isQuote_range {c : Char} (h : isQuote c = true) : 32 < c.toNat ∧ c.toNat < 127 ∧ c ≠ '[' ∧
    isBlank c = false := by
  obtain h | h := Bool.or_eq_true_iff.mp h
  · rw [of_decide_eq_true h]
    decide
  · rw [of_decide_eq_true h]
    decide

theorem readEntry_eq_some {text : Text} {kind : TomlLine} (h : readEntry text = some kind) :
    kind = .entry (stripBlanks (text.takeWhile (· ≠ '='))) ∧ '=' ∈ text ∧
      (∃ c, text.head? = some c ∧ 32 < c.toNat ∧ c.toNat < 127 ∧ c ≠ '[' ∧ isBlank c = false) ∧
      ((text.takeWhile (· ≠ '=')).any isQuote = true ∨
        ∀ c ∈ text.takeWhile (· ≠ '='), isBareKeyChar c = true ∨ c = '.' ∨ isBlank c = true) := by
  unfold readEntry at h
  simp only at h
  split_ifs at h with hentry
  obtain ⟨hequals, hkeyed, -⟩ := hentry
  obtain ⟨hhead, hkey⟩ := Bool.and_eq_true_iff.mp hkeyed
  obtain ⟨c, hc, hfirst⟩ := (Option.any_eq_true _ _).mp hhead
  refine ⟨(Option.some.inj h).symm, hequals, ⟨c, hc, ?_⟩, ?_⟩
  · obtain hbare | hquote := Bool.or_eq_true_iff.mp hfirst
    · exact isBareKeyChar_range hbare
    · exact isQuote_range hquote
  · refine (Bool.or_eq_true_iff.mp hkey).imp_right fun hall c hmem => ?_
    have hc := List.all_eq_true.mp hall c hmem
    simp only [Bool.or_eq_true, decide_eq_true_eq] at hc
    tauto

theorem readLine_cases (hread : (readLine line).isSome = true) :
    (line.dropWhile isBlank = [] ∧ readLine line = some .blank) ∨
      ((line.dropWhile isBlank).head? = some '#' ∧ readLine line = some .comment) ∨
      ((line.dropWhile isBlank).head? = some '[' ∧ (opensTable line).isSome = true) ∨
      ((readLine line = readEntry (line.dropWhile isBlank)) ∧ (readEntry (line.dropWhile isBlank)).isSome = true) := by
  unfold opensTable
  unfold readLine at hread ⊢
  by_cases hreturn : carriageReturn ∈ line
  · rw [if_pos hreturn] at hread
    cases hread
  · rw [if_neg hreturn] at hread ⊢
    cases hline : line.dropWhile isBlank with
    | nil => exact .inl ⟨rfl, rfl⟩
    | cons c rest =>
      rw [hline] at hread
      by_cases hcomment : c = '#'
      · exact .inr (.inl ⟨congrArg some hcomment, if_pos hcomment⟩)
      · by_cases hbracket : c = '['
        · simp only [if_neg hcomment, if_pos hbracket] at hread ⊢
          obtain ⟨kind, hkind⟩ := Option.isSome_iff_exists.mp hread
          have htable : ∃ array key, kind = .table array key := by
            split_ifs at hkind
            · exact ⟨true, readName_eq_some hkind⟩
            · exact ⟨false, readName_eq_some hkind⟩
          obtain ⟨array, key, rfl⟩ := htable
          rw [hkind]
          exact .inr (.inr (.inl ⟨congrArg some hbracket, rfl⟩))
        · simp only [if_neg hcomment, if_neg hbracket] at hread ⊢
          exact .inr (.inr (.inr ⟨trivial, hread⟩))

theorem opensTable_of_inspectedSection (hread : (readLine line).isSome = true) (h : inspectedSection line = some name) :
    (opensTable line).isSome = true := by
  have hhead := head?_of_inspectedSection h
  rw [← trimStart_dropBlanks] at hhead
  obtain ⟨hnil, -⟩ | ⟨hcomment, -⟩ | ⟨-, hopens⟩ | ⟨-, hentry⟩ := readLine_cases hread
  · rw [hnil] at hhead
    cases hhead
  · obtain ⟨rest, hrest⟩ := List.head?_eq_some_iff.mp hcomment
    rw [hrest, trimStart_cons (by decide)] at hhead
    cases hhead
  · exact hopens
  · obtain ⟨kind, hkind⟩ := Option.isSome_iff_exists.mp hentry
    obtain ⟨-, -, ⟨c, hc, hlow, hhigh, hne, -⟩, -⟩ := readEntry_eq_some hkind
    obtain ⟨rest, hrest⟩ := List.head?_eq_some_iff.mp hc
    rw [hrest, trimStart_cons (isSpace_eq_false ⟨hlow, hhigh⟩)] at hhead
    exact absurd (Option.some.inj hhead) hne

theorem stripBlanks_append {blanks : Text} (hkey : ∀ c ∈ key, isBlank c = false)
    (hblanks : ∀ c ∈ blanks, isBlank c = true) (hne : key ≠ []) : stripBlanks (key ++ blanks) = key := by
  have hfront : ∀ c ∈ (key ++ blanks).head?, isBlank c = false := by
    cases key with
    | nil => exact absurd rfl hne
    | cons d key =>
      rintro c ⟨⟩
      exact hkey d List.mem_cons_self
  have hback : ∀ c ∈ key.reverse.head?, isBlank c = false :=
    fun c hc => hkey c (List.mem_reverse.mp (List.mem_of_mem_head? hc))
  rw [stripBlanks, (takeWhile_of_head hfront).2, List.reverse_append,
    List.dropWhile_append_of_pos fun c hc => hblanks c (List.mem_reverse.mp hc), (takeWhile_of_head hback).2,
    List.reverse_reverse]

theorem exists_stripBlanks (text : Text) : ∃ front back, text = front ++ stripBlanks text ++ back ∧
    (∀ c ∈ front, isBlank c = true) ∧ ∀ c ∈ back, isBlank c = true := by
  refine ⟨text.takeWhile isBlank, ((text.dropWhile isBlank).reverse.takeWhile isBlank).reverse, ?_,
    fun c hc => List.mem_takeWhile_imp hc, fun c hc => List.mem_takeWhile_imp (List.mem_reverse.mp hc)⟩
  rw [stripBlanks, List.append_assoc, ← List.reverse_append, List.takeWhile_append_dropWhile, List.reverse_reverse,
    List.takeWhile_append_dropWhile]

theorem plain_modelProvider : (∀ c ∈ modelProvider, isBlank c = false) ∧ (∀ c ∈ modelProvider, isQuote c = false) ∧
    '=' ∉ modelProvider := by
  refine ⟨fun c hc => ?_, fun c hc => ?_, by decide⟩
  · have hall := List.all_eq_true.mp (by decide : modelProvider.all (!isBlank ·) = true) c hc
    simpa using hall
  · have hall := List.all_eq_true.mp (by decide : modelProvider.all (!isQuote ·) = true) c hc
    simpa using hall

theorem readEntry_modelProvider_iff {text : Text} (hread : (readEntry text).isSome = true) :
    readEntry text = some (.entry modelProvider) ↔ StartsWithKey modelProvider text := by
  obtain ⟨hblank, hquote, hequals⟩ := plain_modelProvider
  obtain ⟨kind, hkind⟩ := Option.isSome_iff_exists.mp hread
  obtain ⟨rfl, hmem, ⟨first, hfirst, -, -, -, hnotBlank⟩, hkey⟩ := readEntry_eq_some hkind
  rw [hkind]
  constructor
  · intro h
    have hstrip : stripBlanks (text.takeWhile (· ≠ '=')) = modelProvider := by
      injection Option.some.inj h
    obtain ⟨front, back, hparts, hfront, hback⟩ := exists_stripBlanks (text.takeWhile (· ≠ '='))
    rw [hstrip] at hparts
    have hrest : ∃ rest, text.dropWhile (· ≠ '=') = '=' :: rest := by
      cases hdrop : text.dropWhile (· ≠ '=') with
      | nil =>
        have hall := List.dropWhile_eq_nil_iff.mp hdrop _ hmem
        exact absurd rfl (of_decide_eq_true hall)
      | cons c rest =>
        have hc := List.head?_dropWhile_not (· ≠ '=') text
        rw [hdrop] at hc
        exact ⟨rest, by rw [of_not_not (of_decide_eq_false hc)]⟩
    obtain ⟨rest, hrest⟩ := hrest
    have htext : text = front ++ modelProvider ++ back ++ '=' :: rest := by
      rw [← hparts, ← hrest, List.takeWhile_append_dropWhile]
    cases front with
    | nil => exact ⟨back, rest, htext, fun c hc => isSpace_of_isBlank (hback c hc)⟩
    | cons d front =>
      rw [htext] at hfirst
      obtain rfl := Option.some.inj hfirst
      rw [hfront _ List.mem_cons_self] at hnotBlank
      cases hnotBlank
  · rintro ⟨blanks, rest, rfl, hblanks⟩
    have hspaces : ∀ c ∈ blanks, (32 < c.toNat ∧ c.toNat < 127) → False := by
      intro c hc hrange
      have hspace := hblanks c hc
      rw [isSpace_eq_false hrange] at hspace
      cases hspace
    have htake : (modelProvider ++ blanks ++ '=' :: rest).takeWhile (· ≠ '=') = modelProvider ++ blanks := by
      rw [List.takeWhile_append_of_pos, List.takeWhile_cons_of_neg, List.append_nil]
      · simp
      · intro c hc
        refine decide_eq_true ?_
        rintro rfl
        obtain hc | hc := List.mem_append.mp hc
        · exact hequals hc
        · exact hspaces _ hc (by decide)
    rw [htake] at hkey ⊢
    have hplain : ∀ c ∈ blanks, isBlank c = true := by
      intro c hc
      obtain hquoted | hall := hkey
      · obtain ⟨d, hd, hdquote⟩ := List.any_eq_true.mp hquoted
        obtain hd | hd := List.mem_append.mp hd
        · rw [hquote d hd] at hdquote
          cases hdquote
        · obtain ⟨hlow, hhigh, -, -⟩ := isQuote_range hdquote
          exact (hspaces d hd ⟨hlow, hhigh⟩).elim
      · obtain hbare | rfl | hblankc := hall c (List.mem_append_right _ hc)
        · obtain ⟨hlow, hhigh, -, -⟩ := isBareKeyChar_range hbare
          exact (hspaces c hc ⟨hlow, hhigh⟩).elim
        · exact (hspaces _ hc (by decide)).elim
        · exact hblankc
    rw [stripBlanks_append hblank hplain modelProvider_ne_nil]

theorem assignsProvider_eq (hread : (readLine line).isSome = true) :
    assignsProvider line = isActiveKeyLine line modelProvider := by
  rw [Bool.eq_iff_iff, isActiveKeyLine_iff isKeyChar_modelProvider modelProvider_ne_nil, assignsProvider,
    decide_eq_true_iff, trim, startsWithKey_trimEnd, ← trimStart_dropBlanks]
  have hother : ∀ c, (trimStart (line.dropWhile isBlank)).head? = some c → isKeyChar c = false →
      ¬ StartsWithKey modelProvider (trimStart (line.dropWhile isBlank)) := by
    intro c hc hchar hstart
    obtain ⟨d, hd, hdchar⟩ := head?_of_startsWithKey isKeyChar_modelProvider modelProvider_ne_nil hstart
    obtain rfl := Option.some.inj (hc.symm.trans hd)
    rw [hchar] at hdchar
    cases hdchar
  obtain ⟨hnil, hline⟩ | ⟨hcomment, hline⟩ | ⟨hbracket, hopens⟩ | ⟨hline, hentry⟩ := readLine_cases hread
  · rw [hline, hnil]
    refine iff_of_false nofun ?_
    rintro ⟨blanks, rest, heq, -⟩
    simp [trimStart] at heq
  · obtain ⟨rest, hrest⟩ := List.head?_eq_some_iff.mp hcomment
    rw [hline]
    refine iff_of_false nofun (hother '#' ?_ (by decide))
    rw [hrest, trimStart_cons (by decide)]
    rfl
  · obtain ⟨rest, hrest⟩ := List.head?_eq_some_iff.mp hbracket
    refine iff_of_false (fun hassigns => ?_) (hother '[' ?_ (by decide))
    · rw [opensTable, hassigns] at hopens
      cases hopens
    · rw [hrest, trimStart_cons (by decide)]
      rfl
  · obtain ⟨kind, hkind⟩ := Option.isSome_iff_exists.mp hentry
    obtain ⟨-, -, ⟨c, hc, hlow, hhigh, -⟩, -⟩ := readEntry_eq_some hkind
    obtain ⟨rest, hrest⟩ := List.head?_eq_some_iff.mp hc
    have hstart : trimStart (line.dropWhile isBlank) = line.dropWhile isBlank := by
      rw [hrest, trimStart_cons (isSpace_eq_false ⟨hlow, hhigh⟩)]
    rw [hline, hstart]
    exact readEntry_modelProvider_iff hentry

end Agreement

end Tightrope.App
