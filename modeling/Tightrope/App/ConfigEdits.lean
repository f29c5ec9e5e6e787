import Tightrope.App.ConfigLines

namespace Tightrope.App

open Headings Separators

section Splitting

variable {text : Text} {lines : List Text}

theorem withoutReturns_cons {line : Text} (h : lines ≠ []) :
    withoutReturns (line :: lines) = withoutReturn line :: withoutReturns lines := by
  cases lines with
  | nil => exact absurd rfl h
  | cons next lines => rfl

theorem withoutReturns_eq_self (h : ∀ line ∈ lines, carriageReturn ∉ line) : withoutReturns lines = lines := by
  induction lines with
  | nil => rfl
  | cons line lines ih =>
    rw [List.forall_mem_cons] at h
    cases lines with
    | nil => rfl
    | cons next lines =>
      have hline : withoutReturn line = line := if_neg fun hlast => h.1 (List.mem_of_getLast? hlast)
      rw [withoutReturns, hline, ih h.2]

theorem head?_of_splitOn_nil {rest : List Text} (h : text.splitOn lineFeed = [] :: rest) (hrest : rest ≠ []) :
    text.head? = some lineFeed := by
  cases text with
  | nil =>
    rw [List.splitOn_nil] at h
    exact absurd (List.cons.inj h).2.symm hrest
  | cons c text =>
    rw [List.splitOn_cons_eq_if_modifyHead] at h
    split_ifs at h with hc
    · exact congrArg some (beq_iff_eq.mp hc)
    · obtain ⟨first, tail, hsplit⟩ := List.exists_cons_of_ne_nil (List.splitOn_ne_nil lineFeed text)
      rw [hsplit] at h
      cases h

theorem splitOn_replaceReturns (text : Text) : (replaceReturns text).splitOn lineFeed = splitLines text := by
  induction text with
  | nil => rfl
  | cons c text ih =>
    obtain ⟨first, rest, hsplit⟩ := List.exists_cons_of_ne_nil (List.splitOn_ne_nil lineFeed text)
    rw [splitLines] at ih
    rw [replaceReturns, splitLines, List.splitOn_cons_eq_if_modifyHead]
    by_cases hfeed : c = lineFeed
    · have hreturn : ¬ (c = carriageReturn ∧ text.head? = some lineFeed) := by
        rintro ⟨rfl, -⟩
        exact absurd hfeed (by decide)
      rw [if_neg hreturn, if_pos (beq_iff_eq.mpr hfeed), List.splitOn_cons_eq_if_modifyHead,
        if_pos (beq_iff_eq.mpr hfeed), ih, withoutReturns_cons (List.splitOn_ne_nil lineFeed text)]
      rfl
    · rw [if_neg (fun heq => hfeed (beq_iff_eq.mp heq))]
      by_cases hreturn : c = carriageReturn ∧ text.head? = some lineFeed
      · obtain ⟨rfl, hhead⟩ := hreturn
        obtain ⟨tail, rfl⟩ := List.head?_eq_some_iff.mp hhead
        rw [if_pos ⟨rfl, rfl⟩, ih, List.splitOn_cons_eq_if_modifyHead, if_pos (beq_self_eq_true _),
          List.modifyHead_cons,
          withoutReturns_cons (List.splitOn_ne_nil lineFeed tail),
            withoutReturns_cons (List.splitOn_ne_nil lineFeed tail)]
        rfl
      · rw [if_neg hreturn, List.splitOn_cons_eq_if_modifyHead,
          if_neg (fun heq => hfeed (beq_iff_eq.mp heq)), ih, hsplit,
          List.modifyHead_cons]
        by_cases hrest : rest = []
        · subst hrest
          rfl
        · have hline : withoutReturn (c :: first) = c :: withoutReturn first := by
            cases first with
            | nil =>
              have hne : c ≠ carriageReturn := fun heq => hreturn ⟨heq, head?_of_splitOn_nil hsplit hrest⟩
              exact if_neg fun heq => hne (Option.some.inj heq)
            | cons d first =>
              unfold withoutReturn
              rw [List.getLast?_cons_cons]
              split_ifs <;> rfl
          rw [withoutReturns_cons hrest, withoutReturns_cons hrest, List.modifyHead_cons, hline]

theorem lineFeed_notMem_splitLines {line : Text} (h : line ∈ splitLines text) : lineFeed ∉ line := by
  rw [← splitOn_replaceReturns] at h
  exact notMem_of_mem_splitOn h

theorem replaceReturns_eq_nil (h : replaceReturns text = []) : text = [] := by
  cases text with
  | nil => rfl
  | cons c text =>
    rw [replaceReturns] at h
    split_ifs at h with hreturn
    -- What follows the return is a line feed, which stays.
    · obtain ⟨tail, rfl⟩ := List.head?_eq_some_iff.mp hreturn.2
      rw [replaceReturns, if_neg (fun hfeed => absurd hfeed.1 (by decide))] at h
      cases h

theorem splitLines_join (hne : lines ≠ []) (hfeed : ∀ line ∈ lines, lineFeed ∉ line)
    (hreturn : ∀ line ∈ lines, carriageReturn ∉ line) : splitLines (join lineFeed lines) = lines := by
  rw [splitLines, splitOn_join hne hfeed, withoutReturns_eq_self hreturn]

theorem getLast?_join (hne : lines ≠ []) (hfeed : ∀ line ∈ lines, lineFeed ∉ line) :
    (join lineFeed lines).getLast? = some lineFeed ↔ lines.getLast? = some [] ∧ 2 ≤ lines.length := by
  induction lines using List.reverseRecOn with
  | nil => exact absurd rfl hne
  | append_singleton before last _ =>
    rw [List.getLast?_concat, Option.some_inj, List.length_append, List.length_singleton]
    by_cases hbefore : before = []
    · subst hbefore
      refine iff_of_false (fun hlast => ?_) (by simp)
      exact hfeed last (List.mem_singleton_self last) (List.mem_of_getLast? hlast)
    · have hlength : 0 < before.length := List.length_pos_iff.mpr hbefore
      rw [join_concat hbefore]
      cases hlast : last with
      | nil => simpa using Nat.succ_le_of_lt hlength
      | cons c last' =>
        refine iff_of_false (fun hget => ?_) (fun h => List.cons_ne_nil _ _ h.1)
        rw [List.getLast?_append_of_ne_nil _ (List.cons_ne_nil _ _), List.getLast?_cons_cons] at hget
        exact hfeed last (List.mem_append_right _ (List.mem_singleton_self last)) (hlast ▸ List.mem_of_getLast? hget)

end Splitting

section Provider

variable {lines before rest : List Text}

def isProviderLine (line : Text) : Bool := isActiveKeyLine line modelProvider

theorem replaceModelProvider_of_none (h : ∀ line ∈ lines, isProviderLine line = false) (seen : Bool) :
    replaceModelProvider seen lines = (lines, seen) := by
  induction lines with
  | nil => rfl
  | cons line lines ih =>
    rw [List.forall_mem_cons] at h
    rw [replaceModelProvider, if_pos (show isActiveKeyLine line modelProvider = false from h.1), ih h.2]

theorem replaceModelProvider_seen : replaceModelProvider true lines = (lines.filter (!isProviderLine ·), true) := by
  induction lines with
  | nil => rfl
  | cons line lines ih =>
    rw [replaceModelProvider, List.filter_cons, ih, isProviderLine]
    cases isActiveKeyLine line modelProvider <;> rfl

theorem replaceModelProvider_first {line : Text} (h : ∀ line ∈ before, isProviderLine line = false)
    (hline : isProviderLine line = true) : replaceModelProvider false (before ++ line :: rest) =
      (before ++ modelProviderLine :: rest.filter (!isProviderLine ·), true) := by
  induction before with
  | nil =>
    rw [List.nil_append, replaceModelProvider, if_neg (by rw [← isProviderLine, hline]; exact Bool.noConfusion),
      replaceModelProvider_seen]
    rfl
  | cons first before ih =>
    rw [List.forall_mem_cons] at h
    rw [List.cons_append, replaceModelProvider, if_pos (show isActiveKeyLine first modelProvider = false from h.1),
      ih h.2]
    rfl

theorem upsertModelProvider_cases (lines : List Text) :
    ((∀ line ∈ lines, isProviderLine line = false) ∧ ∃ before rest, lines = before ++ rest ∧
      before = lines.takeWhile (fun line => !isActiveSectionHeader line) ∧
        upsertModelProvider lines = before ++ modelProviderLine :: rest) ∨
      ∃ before line rest, lines = before ++ line :: rest ∧ (∀ line ∈ before, isProviderLine line = false) ∧
        isProviderLine line = true ∧
          upsertModelProvider lines = before ++ modelProviderLine :: rest.filter (!isProviderLine ·) := by
  by_cases hnone : ∀ line ∈ lines, isProviderLine line = false
  · left
    have hindex : (lines.findIdx? isActiveSectionHeader).getD lines.length =
        lines.findIdx fun line => !(!isActiveSectionHeader line) := by
      simp only [Bool.not_not]
      exact List.findIdx_eq_getD_findIdx?.symm
    refine ⟨hnone, lines.takeWhile (fun line => !isActiveSectionHeader line),
      lines.dropWhile (fun line => !isActiveSectionHeader line), List.takeWhile_append_dropWhile.symm, rfl, ?_⟩
    unfold upsertModelProvider
    simp only [replaceModelProvider_of_none hnone, Bool.false_eq_true, if_false]
    rw [splice, hindex, List.takeWhile_eq_take_findIdx_not, List.dropWhile_eq_drop_findIdx_not, List.append_assoc,
      List.singleton_append]
  · right
    have hsome : lines.dropWhile (!isProviderLine ·) ≠ [] := by
      intro hnil
      refine hnone fun line hline => ?_
      simpa using List.dropWhile_eq_nil_iff.mp hnil line hline
    obtain ⟨line, rest, hdrop⟩ := List.exists_cons_of_ne_nil hsome
    have hlines : lines = lines.takeWhile (!isProviderLine ·) ++ line :: rest := by
      rw [← hdrop, List.takeWhile_append_dropWhile]
    have hbefore : ∀ line ∈ lines.takeWhile (!isProviderLine ·), isProviderLine line = false := by
      intro line hline
      simpa using List.mem_takeWhile_imp hline
    have hline : isProviderLine line = true := by
      have hfirst := List.head?_dropWhile_not (!isProviderLine ·) lines
      rw [hdrop] at hfirst
      simpa using hfirst
    refine ⟨_, line, rest, hlines, hbefore, hline, ?_⟩
    unfold upsertModelProvider
    have hreplace := @replaceModelProvider_first _ rest _ hbefore hline
    rw [← hlines] at hreplace
    rw [hreplace]
    rfl

end Provider

section Section

variable {lines : List Text}

def isOtherLine (line : Text) : Bool := sectionNameForLine line ≠ some tightropeProviderSection

def isUnderHeader (line : Text) : Bool := sectionNameForLine line = none

def beforeSection (lines : List Text) : List Text := lines.takeWhile isOtherLine

def fromSection (lines : List Text) : List Text := lines.dropWhile isOtherLine

def sectionLines (lines : List Text) : List Text := (fromSection lines).tail.takeWhile isUnderHeader

def afterSection (lines : List Text) : List Text := (fromSection lines).tail.dropWhile isUnderHeader

def upToSectionEnd (lines : List Text) : List Text :=
  beforeSection lines ++ (fromSection lines).take 1 ++ sectionLines lines

def missingSettings (lines : List Text) : List (Text × Text) :=
  tightropeProviderSettings.filter fun setting => setting.1 ∉ (sectionLines lines).filterMap keyOfLine

theorem upToSectionEnd_append (lines : List Text) : upToSectionEnd lines ++ afterSection lines = lines := by
  have hsection : (fromSection lines).take 1 ++ (fromSection lines).tail = fromSection lines := by
    cases fromSection lines <;> rfl
  rw [upToSectionEnd, List.append_assoc, sectionLines, afterSection, List.takeWhile_append_dropWhile, List.append_assoc,
    hsection, beforeSection, fromSection, List.takeWhile_append_dropWhile]

theorem sectionBoundsFrom_some (start index : ℕ) : sectionBoundsFrom tightropeProviderSection (some start) index lines =
    some (start, index + (lines.takeWhile isUnderHeader).length) := by
  induction lines generalizing index with
  | nil => rfl
  | cons line lines ih =>
    cases hname : sectionNameForLine line with
    | none =>
      simp only [sectionBoundsFrom, hname, ih, List.takeWhile_cons, isUnderHeader, decide_true, if_true,
        List.length_cons]
      rw [Nat.add_assoc, Nat.add_comm 1]
    | some name => simp [sectionBoundsFrom, hname, isUnderHeader]

theorem sectionBoundsFrom_none (index : ℕ) : sectionBoundsFrom tightropeProviderSection none index lines =
    if fromSection lines = [] then none
    else some (index + (beforeSection lines).length,
      index + (beforeSection lines).length + 1 + (sectionLines lines).length) := by
  induction lines generalizing index with
  | nil => rfl
  | cons line lines ih =>
    by_cases hother : isOtherLine line = true
    · have hfrom : fromSection (line :: lines) = fromSection lines := List.dropWhile_cons_of_pos hother
      have hbefore : beforeSection (line :: lines) = line :: beforeSection lines := List.takeWhile_cons_of_pos hother
      have hstep : sectionBoundsFrom tightropeProviderSection none index (line :: lines) =
          sectionBoundsFrom tightropeProviderSection none (index + 1) lines := by
        cases hname : sectionNameForLine line with
        | none => simp only [sectionBoundsFrom, hname]
        | some name =>
          have hne : name ≠ tightropeProviderSection := by
            rintro rfl
            exact of_decide_eq_true hother hname
          simp only [sectionBoundsFrom, hname, if_neg hne]
      have hsection : sectionLines (line :: lines) = sectionLines lines := by
        rw [sectionLines, hfrom]
        rfl
      rw [hstep, ih, hfrom, hsection, hbefore, List.length_cons, Nat.add_assoc index 1, Nat.add_comm 1]
    · have hname : sectionNameForLine line = some tightropeProviderSection := by
        simpa [isOtherLine] using hother
      have hfrom : fromSection (line :: lines) = line :: lines := List.dropWhile_cons_of_neg hother
      have hbefore : beforeSection (line :: lines) = [] := List.takeWhile_cons_of_neg hother
      rw [sectionLines, hfrom, if_neg (List.cons_ne_nil _ _), hbefore, List.tail_cons]
      simp only [sectionBoundsFrom, hname, if_true]
      exact sectionBoundsFrom_some index (index + 1)

def insertedLines (lines : List Text) : List Text :=
  if fromSection lines = [] then
    (if lines.getLast?.any fun last => trim last ≠ [] then [[]] else []) ++ header tightropeProviderSection ::
      tightropeProviderSettings.map settingLine
  else (missingSettings lines).map settingLine

theorem section_of_none (h : fromSection lines = []) : upToSectionEnd lines = lines ∧ afterSection lines = [] := by
  have hafter : afterSection lines = [] := by
    rw [afterSection, h]
    rfl
  refine ⟨?_, hafter⟩
  nth_rw 2 [← upToSectionEnd_append lines]
  rw [hafter, List.append_nil]

theorem upsertTightropeProviderSection_eq (lines : List Text) :
    upsertTightropeProviderSection lines = upToSectionEnd lines ++ insertedLines lines ++ afterSection lines := by
  unfold upsertTightropeProviderSection findSectionBounds insertedLines
  rw [sectionBoundsFrom_none]
  by_cases hnone : fromSection lines = []
  · obtain ⟨hup, hafter⟩ := section_of_none hnone
    simp only [if_pos hnone, hup, hafter, List.append_nil]
    split_ifs
    · rw [List.append_assoc, List.append_assoc]
      rfl
    · rw [List.append_assoc, List.nil_append, List.singleton_append]
  · simp only [if_neg hnone]
    have hhead : ((fromSection lines).take 1).length = 1 := by
      obtain ⟨line, rest, hfrom⟩ := List.exists_cons_of_ne_nil hnone
      rw [hfrom]
      rfl
    have hlength : (upToSectionEnd lines).length =
        0 + (beforeSection lines).length + 1 + (sectionLines lines).length := by
      rw [upToSectionEnd, List.length_append, List.length_append, hhead, Nat.zero_add]
    have htake : lines.take (0 + (beforeSection lines).length + 1 + (sectionLines lines).length) =
        upToSectionEnd lines := by
      rw [← hlength]
      exact (congrArg (List.take _) (upToSectionEnd_append lines)).symm.trans List.take_left
    have hdrop : lines.drop (0 + (beforeSection lines).length + 1 + (sectionLines lines).length) =
        afterSection lines := by
      rw [← hlength]
      exact (congrArg (List.drop _) (upToSectionEnd_append lines)).symm.trans List.drop_left
    have hsection : (upToSectionEnd lines).drop (0 + (beforeSection lines).length + 1) = sectionLines lines := by
      rw [upToSectionEnd, List.drop_left']
      rw [List.length_append, hhead, Nat.zero_add]
    rw [htake, hsection, ← missingSettings, splice, htake, hdrop]
    split_ifs with hmissing
    · rw [hmissing, List.map_nil, List.append_nil, upToSectionEnd_append]
    · rfl

end Section

end Tightrope.App
