import Tightrope.App.ConfigEdits
import Tightrope.App.ConfigInspection

namespace Tightrope.App

open Headings Separators

section ProviderLines

variable {H : Type} {heading : Text → Option H} {line key : Text} {lines : List Text}

theorem keyOfLine_of_isProviderLine (h : isProviderLine line = true) : keyOfLine line = some modelProvider :=
  isActiveKeyLine_modelProvider_iff.mp h

theorem isProviderLine_of_inspectedKey (h : inspectedKey line = some modelProvider) : isProviderLine line = true :=
  isActiveKeyLine_modelProvider_iff.mpr (keyOfLine_of_inspectedKey h)

theorem providerLine_neutral (h : isProviderLine line = true) :
    isOtherLine line = true ∧ isUnderHeader line = true ∧ inspectedSection line = none ∧ opensTable line = none := by
  obtain ⟨hname, hsection, htable⟩ := noHeader_of_keyOfLine (keyOfLine_of_isProviderLine h)
  refine ⟨?_, ?_, hsection, htable⟩
  · rw [isOtherLine, hname]
    rfl
  · rw [isUnderHeader, hname]
    rfl

theorem modelProvider_notMem_required : modelProvider ∉ requiredSettingKeys := by decide

def otherLines (lines : List Text) : List Text := lines.filter (!isProviderLine ·)

theorem inspectedSection_of_dropped (h : (!isProviderLine line) = false) : inspectedSection line = none :=
  (providerLine_neutral (by simpa using h)).2.2.1

theorem takeWhile_filter {p q : Text → Bool} (h : ∀ line, q line = false → p line = true) :
    (lines.filter q).takeWhile p = (lines.takeWhile p).filter q := by
  induction lines with
  | nil => rfl
  | cons line lines ih =>
    rw [List.filter_cons, List.takeWhile_cons]
    cases hq : q line with
    | true =>
      rw [if_pos rfl, List.takeWhile_cons]
      split_ifs
      · rw [List.filter_cons, if_pos hq, ih]
      · rfl
    | false => rw [if_neg Bool.false_ne_true, if_pos (h line hq), List.filter_cons, hq, if_neg Bool.false_ne_true, ih]

theorem dropWhile_filter {p q : Text → Bool} (h : ∀ line, q line = false → p line = true) :
    (lines.filter q).dropWhile p = (lines.dropWhile p).filter q := by
  induction lines with
  | nil => rfl
  | cons line lines ih =>
    rw [List.filter_cons, List.dropWhile_cons]
    cases hq : q line with
    | true =>
      rw [if_pos rfl, List.dropWhile_cons]
      split_ifs
      · exact ih
      · rw [List.filter_cons, if_pos hq]
    | false => rw [if_neg Bool.false_ne_true, if_pos (h line hq), ih]

theorem isOtherLine_of_dropped (line : Text) (h : (!isProviderLine line) = false) : isOtherLine line = true :=
  (providerLine_neutral (by simpa using h)).1

theorem isUnderHeader_of_dropped (line : Text) (h : (!isProviderLine line) = false) : isUnderHeader line = true :=
  (providerLine_neutral (by simpa using h)).2.1

theorem head_fromSection {rest : List Text} (h : fromSection lines = line :: rest) :
    sectionNameForLine line = some tightropeProviderSection := by
  have hfirst := List.head?_dropWhile_not isOtherLine lines
  rw [← fromSection, h] at hfirst
  simpa [isOtherLine] using hfirst

theorem isProviderLine_of_header (h : (sectionNameForLine line).isSome = true) : isProviderLine line = false := by
  rw [← Bool.not_eq_true]
  intro hline
  rw [(noHeader_of_keyOfLine (keyOfLine_of_isProviderLine hline)).1] at h
  cases h

theorem fromSection_otherLines (lines : List Text) : fromSection (otherLines lines) = otherLines (fromSection lines) :=
  dropWhile_filter isOtherLine_of_dropped

theorem tail_otherLines_fromSection (lines : List Text) :
    (otherLines (fromSection lines)).tail = otherLines (fromSection lines).tail := by
  cases hfrom : fromSection lines with
  | nil => rfl
  | cons line rest =>
    have hline : isProviderLine line = false := isProviderLine_of_header (by rw [head_fromSection hfrom]; rfl)
    rw [otherLines, List.filter_cons, hline]
    rfl

theorem sectionLines_otherLines (lines : List Text) : sectionLines (otherLines lines) =
    otherLines (sectionLines lines) := by
  rw [sectionLines, fromSection_otherLines, tail_otherLines_fromSection]
  exact takeWhile_filter isUnderHeader_of_dropped

theorem upToSectionEnd_otherLines (lines : List Text) :
    upToSectionEnd (otherLines lines) = otherLines (upToSectionEnd lines) := by
  have hhead : (otherLines (fromSection lines)).take 1 = otherLines ((fromSection lines).take 1) := by
    cases hfrom : fromSection lines with
    | nil => rfl
    | cons line rest =>
      have hline : isProviderLine line = false := isProviderLine_of_header (by rw [head_fromSection hfrom]; rfl)
      simp [otherLines, hline]
  have hbefore : beforeSection (otherLines lines) = otherLines (beforeSection lines) :=
    takeWhile_filter isOtherLine_of_dropped
  rw [upToSectionEnd, hbefore, fromSection_otherLines, hhead, sectionLines_otherLines, upToSectionEnd, otherLines,
    otherLines, otherLines, otherLines, List.filter_append, List.filter_append]

theorem fromSection_eq_nil_iff (lines : List Text) : fromSection (otherLines lines) = [] ↔ fromSection lines = [] := by
  rw [fromSection_otherLines]
  cases hfrom : fromSection lines with
  | nil => exact Iff.rfl
  | cons line rest =>
    have hline : isProviderLine line = false := isProviderLine_of_header (by rw [head_fromSection hfrom]; rfl)
    refine iff_of_false ?_ (List.cons_ne_nil _ _)
    rw [otherLines, List.filter_cons, hline]
    exact List.cons_ne_nil _ _

theorem mem_keys_otherLines (hkey : key ∈ requiredSettingKeys) :
    key ∈ (otherLines lines).filterMap keyOfLine ↔ key ∈ lines.filterMap keyOfLine := by
  simp only [otherLines, List.mem_filterMap, List.mem_filter]
  constructor
  · rintro ⟨line, ⟨hline, -⟩, hread⟩
    exact ⟨line, hline, hread⟩
  · rintro ⟨line, hline, hread⟩
    refine ⟨line, ⟨hline, ?_⟩, hread⟩
    rw [Bool.not_eq_true', ← Bool.not_eq_true]
    intro hprovider
    rw [keyOfLine_of_isProviderLine hprovider] at hread
    obtain rfl := Option.some.inj hread
    exact modelProvider_notMem_required hkey

theorem missingSettings_otherLines (lines : List Text) : missingSettings (otherLines lines) =
    missingSettings lines := by
  unfold missingSettings
  rw [sectionLines_otherLines]
  apply List.filter_congr
  intro setting hsetting
  have hkey : setting.1 ∈ requiredSettingKeys := List.mem_map_of_mem hsetting
  rw [decide_eq_decide, not_iff_not]
  exact mem_keys_otherLines hkey

theorem inspectedSetting_otherLines (hkey : key ∈ requiredSettingKeys) :
    InspectedSetting (otherLines lines) key ↔ InspectedSetting lines key := by
  unfold InspectedSetting otherLines
  rw [placed_filter fun line => inspectedSection_of_dropped]
  constructor
  · rintro ⟨place, hplace, hsetting⟩
    exact ⟨place, (List.mem_filter.mp hplace).1, hsetting⟩
  · rintro ⟨place, hplace, hsection, hread⟩
    refine ⟨place, List.mem_filter.mpr ⟨hplace, ?_⟩, hsection, hread⟩
    rw [Bool.not_eq_true', ← Bool.not_eq_true]
    intro hprovider
    have hboth := (keyOfLine_of_inspectedKey hread).symm.trans (keyOfLine_of_isProviderLine hprovider)
    obtain rfl := Option.some.inj hboth
    exact modelProvider_notMem_required hkey

end ProviderLines

section Insertions

variable {H : Type} {heading : Text → Option H} {lines : List Text} {line : Text}

def beforeProvider (lines : List Text) : List Text :=
  if lines.any isProviderLine then lines.takeWhile (!isProviderLine ·) else lines.takeWhile (!isActiveSectionHeader ·)

def afterProvider (lines : List Text) : List Text :=
  if lines.any isProviderLine then otherLines (lines.dropWhile (!isProviderLine ·))
  else lines.dropWhile (!isActiveSectionHeader ·)

theorem isProviderLine_modelProviderLine : isProviderLine modelProviderLine = true := by decide

theorem otherLines_eq_self (h : ∀ line ∈ lines, isProviderLine line = false) : otherLines lines = lines :=
  List.filter_eq_self.mpr fun line hline => by rw [h line hline]; rfl

theorem beforeProvider_append (lines : List Text) : beforeProvider lines ++ afterProvider lines = otherLines lines := by
  unfold beforeProvider afterProvider
  by_cases hany : lines.any isProviderLine = true
  · have hbefore : otherLines (lines.takeWhile (!isProviderLine ·)) = lines.takeWhile (!isProviderLine ·) :=
      otherLines_eq_self fun line hline => by simpa using List.mem_takeWhile_imp hline
    rw [if_pos hany, if_pos hany]
    nth_rw 1 [← hbefore]
    rw [otherLines, otherLines, otherLines, ← List.filter_append, List.takeWhile_append_dropWhile]
  · have hnone : ∀ line ∈ lines, isProviderLine line = false := by simpa using hany
    rw [if_neg hany, if_neg hany, List.takeWhile_append_dropWhile, otherLines_eq_self hnone]

theorem upsertModelProvider_eq (lines : List Text) :
    upsertModelProvider lines = beforeProvider lines ++ modelProviderLine :: afterProvider lines := by
  unfold beforeProvider afterProvider
  obtain ⟨hnone, before, rest, rfl, hbefore, hupdated⟩ | ⟨before, line, rest, rfl, hbefore, hline, hupdated⟩ :=
    upsertModelProvider_cases lines
  · have hany : ¬ (before ++ rest).any isProviderLine = true := by
      rw [List.any_eq_true]
      rintro ⟨line, hmem, hline⟩
      rw [hnone line hmem] at hline
      cases hline
    have hrest : rest = (before ++ rest).dropWhile (!isActiveSectionHeader ·) := by
      apply @List.append_cancel_left _ before
      nth_rw 2 [hbefore]
      rw [List.takeWhile_append_dropWhile]
    rw [if_neg hany, if_neg hany, hupdated, ← hbefore, ← hrest]
  · have hany : (before ++ line :: rest).any isProviderLine = true :=
      List.any_eq_true.mpr ⟨line, List.mem_append_right _ List.mem_cons_self, hline⟩
    have hpass : ∀ line ∈ before, (!isProviderLine line) = true := fun line hmem => by rw [hbefore line hmem]; rfl
    have hstop : ∀ c ∈ (line :: rest).head?, (!isProviderLine c) = false := by
      rintro c ⟨⟩
      rw [hline]
      rfl
    obtain ⟨htake, hdrop⟩ := takeWhile_of_head hstop
    rw [if_pos hany, if_pos hany, hupdated, List.takeWhile_append_of_pos hpass,
      List.dropWhile_append_of_pos hpass, htake,
      hdrop, List.append_nil, otherLines, List.filter_cons_of_neg (p := (!isProviderLine ·)) (by simp [hline])]

theorem otherLines_upsertModelProvider (lines : List Text) :
    otherLines (upsertModelProvider lines) = otherLines lines := by
  have hline : ¬ (!isProviderLine modelProviderLine) = true := by
    rw [isProviderLine_modelProviderLine]
    exact Bool.false_ne_true
  have hfilter : otherLines (upsertModelProvider lines) = otherLines (otherLines lines) := by
    rw [upsertModelProvider_eq, ← beforeProvider_append lines, otherLines, otherLines, List.filter_append,
      List.filter_cons_of_neg (p := (!isProviderLine ·)) hline, List.filter_append]
  rw [hfilter, otherLines, otherLines, List.filter_filter]
  simp only [Bool.and_self]

theorem filter_upsertModelProvider (lines : List Text) :
    (upsertModelProvider lines).filter isProviderLine = [modelProviderLine] := by
  have hnone : (beforeProvider lines ++ afterProvider lines).filter isProviderLine = [] := by
    rw [beforeProvider_append, otherLines, List.filter_filter]
    simp
  rw [List.filter_append] at hnone
  obtain ⟨hbefore, hafter⟩ := List.append_eq_nil_iff.mp hnone
  rw [upsertModelProvider_eq, List.filter_append, hbefore, List.filter_cons_of_pos isProviderLine_modelProviderLine,
    hafter]
  rfl

theorem upsertModelProvider_of_filter (h : lines.filter isProviderLine = [modelProviderLine]) :
    upsertModelProvider lines = lines := by
  obtain ⟨hnone, -⟩ | ⟨before, line, rest, rfl, hbefore, hline, hupdated⟩ := upsertModelProvider_cases lines
  · have hmem : modelProviderLine ∈ lines.filter isProviderLine := h ▸ List.mem_cons_self
    obtain ⟨hmem, hprovider⟩ := List.mem_filter.mp hmem
    rw [hnone _ hmem] at hprovider
    cases hprovider
  · rw [List.filter_append, List.filter_cons_of_pos hline, List.filter_eq_nil_iff.mpr, List.nil_append] at h
    · obtain ⟨rfl, hrest⟩ := List.cons.inj h
      rw [hupdated, List.filter_eq_self.mpr]
      intro line hmem
      simpa using List.filter_eq_nil_iff.mp hrest line hmem
    · intro line hmem
      rw [hbefore line hmem]
      exact Bool.false_ne_true

end Insertions

section EditedLines

variable {lines : List Text} {line key : Text} {text : Text} {c : Char}

def tableLines : List Text := [] :: header tightropeProviderSection :: tightropeProviderSettings.map settingLine

def addedLines : List Text := modelProviderLine :: tableLines

def updatedLines (lines : List Text) : List Text := upsertTightropeProviderSection (upsertModelProvider lines)

def editedLines (lines : List Text) : List Text :=
  updatedLines lines ++ if (updatedLines lines).getLast? = some [] then [] else [[]]

theorem exists_editedLines (lines : List Text) :
    ∃ trail, editedLines lines = updatedLines lines ++ trail ∧ ∀ line ∈ trail, line = [] := by
  refine ⟨_, rfl, ?_⟩
  split_ifs
  · exact nofun
  · exact fun line => List.mem_singleton.mp

theorem mem_otherLines_of_mem (h : line ∈ otherLines lines) : line ∈ lines := List.mem_of_mem_filter h

theorem mem_upsertModelProvider (h : line ∈ upsertModelProvider lines) : line ∈ lines ∨ line ∈ addedLines := by
  rw [upsertModelProvider_eq] at h
  have hother : line = modelProviderLine ∨ line ∈ otherLines lines := by
    rw [← beforeProvider_append]
    obtain h | h := List.mem_append.mp h
    · exact .inr (List.mem_append_left _ h)
    · exact (List.mem_cons.mp h).imp_right (List.mem_append_right _)
  obtain rfl | hother := hother
  · exact .inr List.mem_cons_self
  · exact .inl (mem_otherLines_of_mem hother)

theorem mem_insertedLines (h : line ∈ insertedLines lines) : line ∈ tableLines := by
  have hsettings : ∀ settings ⊆ tightropeProviderSettings, line ∈ settings.map settingLine → line ∈ tableLines :=
    fun settings hsub hmem => List.mem_cons_of_mem _ (List.mem_cons_of_mem _ (List.map_subset settingLine hsub hmem))
  unfold insertedLines at h
  by_cases hnone : fromSection lines = []
  · rw [if_pos hnone] at h
    obtain h | h := List.mem_append.mp h
    · split_ifs at h
      · exact List.mem_singleton.mp h ▸ List.mem_cons_self
      · cases h
    · obtain rfl | h := List.mem_cons.mp h
      · exact List.mem_cons_of_mem _ List.mem_cons_self
      · exact hsettings _ (List.Subset.refl _) h
  · rw [if_neg hnone] at h
    exact hsettings _ (List.filter_subset_self _) h

theorem mem_upsertTightropeProviderSection (h : line ∈ upsertTightropeProviderSection lines) :
    line ∈ lines ∨ line ∈ addedLines := by
  rw [upsertTightropeProviderSection_eq] at h
  rw [← upToSectionEnd_append lines]
  obtain h | h := List.mem_append.mp h
  · exact (List.mem_append.mp h).imp (List.mem_append_left _) fun hmem =>
      List.mem_cons_of_mem _ (mem_insertedLines hmem)
  · exact .inl (List.mem_append_right _ h)

theorem subset_upsertTightropeProviderSection : lines ⊆ upsertTightropeProviderSection lines := by
  rw [upsertTightropeProviderSection_eq]
  nth_rw 1 [← upToSectionEnd_append lines]
  exact List.append_subset.mpr ⟨fun line h => List.mem_append_left _ (List.mem_append_left _ h),
    List.subset_append_right _ _⟩

theorem mem_editedLines (h : line ∈ editedLines lines) : line ∈ lines ∨ line ∈ addedLines := by
  obtain h | h := List.mem_append.mp h
  · obtain h | h := mem_upsertTightropeProviderSection h
    · exact mem_upsertModelProvider h
    · exact .inr h
  · split_ifs at h
    · cases h
    · exact .inr (List.mem_singleton.mp h ▸ List.mem_cons_of_mem _ List.mem_cons_self)

theorem inspectedKey_settingLine : ∀ setting ∈ tightropeProviderSettings,
    inspectedKey (settingLine setting) = some setting.1 ∧
      lineFeed ∉ settingLine setting ∧ carriageReturn ∉ settingLine setting := by
  decide

theorem lineEnds_notMem_addedLines : ∀ line ∈ addedLines, lineFeed ∉ line ∧ carriageReturn ∉ line := by
  have hclosed : ∀ line ∈ [modelProviderLine, [], header tightropeProviderSection],
      lineFeed ∉ line ∧ carriageReturn ∉ line := by
    decide
  rw [addedLines, tableLines, List.forall_mem_cons, List.forall_mem_cons, List.forall_mem_cons, List.forall_mem_map]
  rw [List.forall_mem_cons, List.forall_mem_cons, List.forall_mem_singleton] at hclosed
  exact ⟨hclosed.1, hclosed.2.1, hclosed.2.2, fun setting h => (inspectedKey_settingLine setting h).2⟩

theorem modelProviderLine_mem_updatedLines (lines : List Text) : modelProviderLine ∈ updatedLines lines := by
  refine subset_upsertTightropeProviderSection ?_
  rw [upsertModelProvider_eq]
  exact List.mem_append_right _ List.mem_cons_self

section LineEnds

variable (hends : ∀ line ∈ lines, lineFeed ∉ line ∧ carriageReturn ∉ line)
include hends

theorem lineEnds_notMem_editedLines : ∀ line ∈ editedLines lines, lineFeed ∉ line ∧ carriageReturn ∉ line := by
  intro line hline
  obtain hline | hline := mem_editedLines hline
  · exact hends line hline
  · exact lineEnds_notMem_addedLines line hline

theorem join_editedLines : join lineFeed (editedLines lines) =
    if (join lineFeed (updatedLines lines)).getLast? = some lineFeed then join lineFeed (updatedLines lines)
    else join lineFeed (updatedLines lines) ++ [lineFeed] := by
  have hmp := modelProviderLine_mem_updatedLines lines
  have hnil : updatedLines lines ≠ [] := List.ne_nil_of_mem hmp
  have htwo : (updatedLines lines).getLast? = some [] → 2 ≤ (updatedLines lines).length := by
    intro hlast
    -- The line of the provider is not the blank one at the end.
    have hblank : [] ∈ updatedLines lines := List.mem_of_getLast? hlast
    by_contra hlt
    have hone : (updatedLines lines).length = 1 := by
      have hpos := List.length_pos_iff.mpr hnil
      omega
    obtain ⟨only, honly⟩ := List.length_eq_one_iff.mp hone
    rw [honly, List.mem_singleton] at hmp hblank
    exact absurd (hmp.trans hblank.symm) (by decide)
  have hend := getLast?_join hnil fun line hline =>
    (lineEnds_notMem_editedLines hends line (List.mem_append_left _ hline)).1
  rw [editedLines]
  by_cases hlast : (updatedLines lines).getLast? = some []
  · rw [if_pos (hend.mpr ⟨hlast, htwo hlast⟩), if_pos hlast, List.append_nil]
  · rw [if_neg fun hjoined => hlast (hend.mp hjoined).1, if_neg hlast, join_concat hnil]

theorem splitLines_editedLines : splitLines (join lineFeed (editedLines lines)) = editedLines lines := by
  have hfree := lineEnds_notMem_editedLines hends
  have hmp : modelProviderLine ∈ editedLines lines :=
    List.mem_append_left _ (modelProviderLine_mem_updatedLines lines)
  exact splitLines_join (List.ne_nil_of_mem hmp) (fun line hline => (hfree line hline).1)
    fun line hline => (hfree line hline).2

end LineEnds

theorem buildUpdatedConfig_eq (hreturn : ∀ line ∈ splitLines text, carriageReturn ∉ line) (hne : text ≠ []) :
    buildUpdatedConfig text = join lineFeed (editedLines (splitLines text)) ∧
      splitLines (buildUpdatedConfig text) = editedLines (splitLines text) := by
  have hends : ∀ line ∈ splitLines text, lineFeed ∉ line ∧ carriageReturn ∉ line :=
    fun line hline => ⟨lineFeed_notMem_splitLines hline, hreturn line hline⟩
  have hnormalized : replaceReturns text ≠ [] := mt replaceReturns_eq_nil hne
  have hbuild : buildUpdatedConfig text = join lineFeed (editedLines (splitLines text)) := by
    unfold buildUpdatedConfig
    simp only [if_neg hnormalized, splitOn_replaceReturns]
    rw [join_editedLines hends]
    rfl
  rw [hbuild]
  exact ⟨rfl, splitLines_editedLines hends⟩

end EditedLines

section SecondEdit

variable {lines front rest : List Text} {line key : Text} {text : Text} {setting : Text × Text}

theorem settingLine_reads (h : setting ∈ tightropeProviderSettings) : keyOfLine (settingLine setting) = some setting.1 ∧
    inspectedKey (settingLine setting) = some setting.1 ∧ isProviderLine (settingLine setting) = false := by
  have hread := (inspectedKey_settingLine setting h).1
  have hkey := keyOfLine_of_inspectedKey hread
  refine ⟨hkey, hread, ?_⟩
  rw [← Bool.not_eq_true]
  intro hprovider
  have hmodel := Option.some.inj (hkey.symm.trans (keyOfLine_of_isProviderLine hprovider))
  exact modelProvider_notMem_required (hmodel ▸ List.mem_map_of_mem h)

theorem sectionNameForLine_header : sectionNameForLine (header tightropeProviderSection) =
    some tightropeProviderSection := by
  decide

theorem settingLine_neutral : ∀ line ∈ tightropeProviderSettings.map settingLine, isUnderHeader line = true ∧
    isProviderLine line = false ∧ inspectedSection line = none ∧ opensTable line = none := by
  intro line hline
  obtain ⟨setting, hsetting, rfl⟩ := List.mem_map.mp hline
  obtain ⟨hkey, -, hprovider⟩ := settingLine_reads hsetting
  obtain ⟨hname, hsection, htable⟩ := noHeader_of_keyOfLine hkey
  refine ⟨?_, hprovider, hsection, htable⟩
  rw [isUnderHeader, hname]
  rfl

theorem complete_of_parts {section_ after : List Text} (hfront : ∀ line ∈ front, isOtherLine line = true)
    (hline : sectionNameForLine line = some tightropeProviderSection)
    (hsection : ∀ line ∈ section_, isUnderHeader line = true)
    (hafter : ∀ line ∈ after.head?, isUnderHeader line = false)
    (hkeys : ∀ setting ∈ tightropeProviderSettings, setting.1 ∈ section_.filterMap keyOfLine) :
    fromSection (front ++ line :: (section_ ++ after)) ≠ [] ∧
      missingSettings (front ++ line :: (section_ ++ after)) = [] := by
  have hstop : ∀ c ∈ (line :: (section_ ++ after)).head?, isOtherLine c = false := by
    rintro c ⟨⟩
    simp [isOtherLine, hline]
  have hfrom : fromSection (front ++ line :: (section_ ++ after)) = line :: (section_ ++ after) := by
    rw [fromSection, List.dropWhile_append_of_pos hfront, (takeWhile_of_head hstop).2]
  have hlines : sectionLines (front ++ line :: (section_ ++ after)) = section_ := by
    rw [sectionLines, hfrom, List.tail_cons, List.takeWhile_append_of_pos hsection, (takeWhile_of_head hafter).1,
      List.append_nil]
  refine ⟨fun hnil => List.cons_ne_nil _ _ (hfrom.symm.trans hnil), ?_⟩
  rw [missingSettings, hlines, List.filter_eq_nil_iff]
  exact fun setting hsetting hmissing => of_decide_eq_true hmissing (hkeys setting hsetting)

theorem beforeSection_other (lines : List Text) : ∀ line ∈ beforeSection lines, isOtherLine line = true :=
  fun _ hline => List.mem_takeWhile_imp hline

theorem sectionLines_under (lines : List Text) : ∀ line ∈ sectionLines lines, isUnderHeader line = true :=
  fun _ hline => List.mem_takeWhile_imp hline

theorem afterSection_head (lines : List Text) : ∀ line ∈ (afterSection lines).head?, isUnderHeader line = false := by
  intro line hline
  have hfirst := List.head?_dropWhile_not isUnderHeader (fromSection lines).tail
  rw [← afterSection, Option.mem_def.mp hline] at hfirst
  exact hfirst

theorem isNeutral_nil : isOtherLine [] = true ∧ isUnderHeader [] = true ∧ isProviderLine [] = false ∧
    inspectedSection [] = none ∧ opensTable [] = none ∧ inspectedKey [] = none ∧ trim [] = [] := by decide

theorem complete_upsertTightropeProviderSection {trail : List Text} (htrail : ∀ line ∈ trail, line = []) :
    fromSection (upsertTightropeProviderSection lines ++ trail) ≠ [] ∧
      missingSettings (upsertTightropeProviderSection lines ++ trail) = [] := by
  have hunder : ∀ line ∈ trail, isUnderHeader line = true := fun line hline => htrail line hline ▸ isNeutral_nil.2.1
  rw [upsertTightropeProviderSection_eq]
  by_cases hnone : fromSection lines = []
  · obtain ⟨hup, hafter⟩ := section_of_none hnone
    have hlines : ∀ line ∈ lines, isOtherLine line = true := List.dropWhile_eq_nil_iff.mp hnone
    have hgap : ∀ line ∈ (if lines.getLast?.any fun last => trim last ≠ [] then [[]] else []),
        isOtherLine line = true := by
      split_ifs
      · exact List.forall_mem_singleton.mpr isNeutral_nil.1
      · exact nofun
    rw [hup, hafter, List.append_nil, insertedLines, if_pos hnone, ← List.append_assoc, List.append_assoc,
      List.cons_append,
      ← List.append_nil (List.map _ _ ++ trail)]
    refine complete_of_parts (List.forall_mem_append.mpr ⟨hlines, hgap⟩) sectionNameForLine_header
      (List.forall_mem_append.mpr ⟨fun line hline => (settingLine_neutral line hline).1, hunder⟩) nofun
      fun setting hsetting => ?_
    exact List.mem_filterMap.mpr ⟨settingLine setting, List.mem_append_left _ (List.mem_map_of_mem hsetting),
      (settingLine_reads hsetting).1⟩
  · obtain ⟨line, rest, hfrom⟩ := List.exists_cons_of_ne_nil hnone
    have hhead : (fromSection lines).take 1 = [line] := by rw [hfrom]; rfl
    have hline : sectionNameForLine line = some tightropeProviderSection := head_fromSection hfrom
    have hmissing : ∀ line ∈ (missingSettings lines).map settingLine, isUnderHeader line = true :=
      fun line hmem => (settingLine_neutral line (List.map_subset _ (List.filter_subset_self _) hmem)).1
    have hkeys : ∀ setting ∈ tightropeProviderSettings,
        setting.1 ∈ (sectionLines lines ++ (missingSettings lines).map settingLine).filterMap keyOfLine := by
      intro setting hsetting
      rw [List.filterMap_append, List.mem_append]
      by_cases hpresent : setting.1 ∈ (sectionLines lines).filterMap keyOfLine
      · exact .inl hpresent
      · have hmem : setting ∈ missingSettings lines := List.mem_filter.mpr ⟨hsetting, decide_eq_true hpresent⟩
        exact .inr (List.mem_filterMap.mpr ⟨_, List.mem_map_of_mem hmem, (settingLine_reads hsetting).1⟩)
    have hsection : ∀ line ∈ sectionLines lines ++ (missingSettings lines).map settingLine, isUnderHeader line = true :=
      List.forall_mem_append.mpr ⟨sectionLines_under lines, hmissing⟩
    rw [insertedLines, if_neg hnone, upToSectionEnd, hhead, List.append_assoc, List.append_assoc, List.append_assoc,
      List.append_assoc, List.singleton_append, ← List.append_assoc (sectionLines lines)]
    -- The blank lines belong to the section where nothing comes after it.
    by_cases hafter : afterSection lines = []
    · rw [hafter, List.nil_append, ← List.append_nil (_ ++ trail)]
      refine complete_of_parts (beforeSection_other lines) hline (List.forall_mem_append.mpr ⟨hsection, hunder⟩) nofun
        fun setting hsetting => ?_
      rw [List.filterMap_append]
      exact List.mem_append_left _ (hkeys setting hsetting)
    · refine complete_of_parts (beforeSection_other lines) hline hsection (fun line hmem => ?_) hkeys
      rw [List.head?_append_of_ne_nil _ hafter] at hmem
      exact afterSection_head lines line hmem

theorem upsertTightropeProviderSection_of_complete (hsome : fromSection lines ≠ [])
    (hmissing : missingSettings lines = []) :
    upsertTightropeProviderSection lines = lines := by
  rw [upsertTightropeProviderSection_eq, insertedLines, if_neg hsome, hmissing, List.map_nil, List.append_nil,
    upToSectionEnd_append]

theorem filter_insertedLines {p : Text → Bool} (h : ∀ line ∈ tableLines, p line = false) :
    (upsertTightropeProviderSection lines).filter p = lines.filter p := by
  have hnone : (insertedLines lines).filter p = [] := by
    rw [List.filter_eq_nil_iff]
    intro line hline
    rw [h line (mem_insertedLines hline)]
    exact Bool.false_ne_true
  rw [upsertTightropeProviderSection_eq, List.filter_append, List.filter_append, hnone, List.append_nil,
    ← List.filter_append, upToSectionEnd_append]

theorem isProviderLine_tableLines : ∀ line ∈ tableLines, isProviderLine line = false := by
  have hheader : isProviderLine (header tightropeProviderSection) = false := by decide
  rw [tableLines, List.forall_mem_cons, List.forall_mem_cons]
  exact ⟨isNeutral_nil.2.2.1, hheader, fun line hline => (settingLine_neutral line hline).2.1⟩

theorem filter_editedLines (lines : List Text) : (editedLines lines).filter isProviderLine = [modelProviderLine] := by
  obtain ⟨trail, hedited, htrail⟩ := exists_editedLines lines
  have hnone : trail.filter isProviderLine = [] := by
    rw [List.filter_eq_nil_iff]
    intro line hline
    rw [htrail line hline, isNeutral_nil.2.2.1]
    exact Bool.false_ne_true
  rw [hedited, List.filter_append, hnone, updatedLines, filter_insertedLines isProviderLine_tableLines,
    filter_upsertModelProvider, List.append_nil]

theorem updatedLines_editedLines (lines : List Text) : updatedLines (editedLines lines) = editedLines lines := by
  obtain ⟨trail, hedited, htrail⟩ := exists_editedLines lines
  obtain ⟨hsome, hmissing⟩ := @complete_upsertTightropeProviderSection (upsertModelProvider lines) trail htrail
  rw [updatedLines, upsertModelProvider_of_filter (filter_editedLines lines), hedited]
  exact upsertTightropeProviderSection_of_complete hsome hmissing

theorem editedLines_editedLines (lines : List Text) : editedLines (editedLines lines) = editedLines lines := by
  have hlast : (editedLines lines).getLast? = some [] := by
    unfold editedLines
    split_ifs with hlast
    · rw [List.append_nil, hlast]
    · rw [List.getLast?_concat]
  rw [editedLines, updatedLines_editedLines, if_pos hlast, List.append_nil]

end SecondEdit

structure ReadsTables {H : Type} (heading : Text → Option H) (part : H) : Prop where
  provider : ∀ line, isProviderLine line = true → heading line = none
  blank : heading [] = none
  table : heading (header tightropeProviderSection) = some part
  setting : ∀ line ∈ tightropeProviderSettings.map settingLine, heading line = none

theorem readsTables_opensTable : ReadsTables opensTable providerTable where
  provider _ hline := (providerLine_neutral hline).2.2.2
  blank := isNeutral_nil.2.2.2.2.1
  table := by decide
  setting line hline := (settingLine_neutral line hline).2.2.2

theorem readsTables_inspectedSection : ReadsTables inspectedSection tightropeProviderSection where
  provider _ hline := (providerLine_neutral hline).2.2.1
  blank := isNeutral_nil.2.2.2.1
  table := inspectedSection_of_providerHeader sectionNameForLine_header
  setting line hline := (settingLine_neutral line hline).2.2.1

namespace ReadsTables

variable {H : Type} {heading : Text → Option H} {part : H} (reads : ReadsTables heading part) {lines : List Text}
include reads

theorem placed_upsertModelProvider (lines : List Text) :
    (placed heading none (otherLines lines)).Sublist (placed heading none (upsertModelProvider lines)) ∧
      (placed heading none (upsertModelProvider lines)).Perm
        (placed heading none (otherLines lines) ++
          [(after heading none (beforeProvider lines), modelProviderLine)]) := by
  have hnone : ∀ line ∈ [modelProviderLine], heading line = none :=
    List.forall_mem_singleton.mpr (reads.provider _ isProviderLine_modelProviderLine)
  rw [upsertModelProvider_eq, ← beforeProvider_append, List.append_cons]
  exact ⟨sublist_placed_insert hnone, perm_placed_insert hnone⟩

theorem heading_of_dropped (line : Text) (h : (!isProviderLine line) = false) : heading line = none :=
  reads.provider line (by simpa using h)

theorem placed_otherLines (lines : List Text) :
    placed heading none (otherLines lines) = (placed heading none lines).filter fun place => !isProviderLine place.2 :=
  placed_filter reads.heading_of_dropped

theorem after_upToSectionEnd (lines : List Text) :
    after heading none (upToSectionEnd (upsertModelProvider lines)) = after heading none (upToSectionEnd lines) := by
  calc after heading none (upToSectionEnd (upsertModelProvider lines))
      = after heading none (otherLines (upToSectionEnd (upsertModelProvider lines))) :=
        (after_filter reads.heading_of_dropped).symm
    _ = after heading none (otherLines (upToSectionEnd lines)) := by
        rw [← upToSectionEnd_otherLines, otherLines_upsertModelProvider, upToSectionEnd_otherLines]
    _ = after heading none (upToSectionEnd lines) := after_filter reads.heading_of_dropped

theorem insertedLines_cases (lines : List Text) :
    afterSection lines = [] ∨ ∀ line ∈ insertedLines lines, heading line = none := by
  by_cases hnone : fromSection lines = []
  · exact .inl (section_of_none hnone).2
  · right
    rw [insertedLines, if_neg hnone]
    exact fun line hline => reads.setting line (List.map_subset _ (List.filter_subset_self _) hline)

theorem placed_upsertTightropeProviderSection (lines : List Text) :
    (placed heading none lines).Sublist (placed heading none (upsertTightropeProviderSection lines)) ∧
      (placed heading none (upsertTightropeProviderSection lines)).Perm
        (placed heading none lines ++ placed heading (after heading none (upToSectionEnd lines))
          (insertedLines lines)) := by
  rw [upsertTightropeProviderSection_eq]
  obtain hend | hnone := reads.insertedLines_cases lines
  · have hlines := upToSectionEnd_append lines
    rw [hend, List.append_nil] at hlines
    rw [hend, List.append_nil, placed_append, hlines]
    exact ⟨List.sublist_append_left _ _, List.Perm.refl _⟩
  · have hsublist : (placed heading none (upToSectionEnd lines ++ afterSection lines)).Sublist
        (placed heading none (upToSectionEnd lines ++ insertedLines lines ++ afterSection lines)) :=
      sublist_placed_insert hnone
    have hperm : (placed heading none (upToSectionEnd lines ++ insertedLines lines ++ afterSection lines)).Perm
        (placed heading none (upToSectionEnd lines ++ afterSection lines) ++
          (insertedLines lines).map fun line => (after heading none (upToSectionEnd lines), line)) :=
      perm_placed_insert hnone
    rw [upToSectionEnd_append] at hsublist hperm
    rw [placed_of_none hnone]
    exact ⟨hsublist, hperm⟩

theorem placed_editedLines (lines : List Text) : ∃ blanks, (∀ place ∈ blanks, place.2 = []) ∧
    (placed heading none (upsertModelProvider lines)).Sublist (placed heading none (editedLines lines)) ∧
      (placed heading none (editedLines lines)).Perm (placed heading none (upsertModelProvider lines) ++
        (placed heading (after heading none (upToSectionEnd lines)) (insertedLines (upsertModelProvider lines)) ++
          blanks)) := by
  obtain ⟨trail, hedited, htrail⟩ := exists_editedLines lines
  obtain ⟨hsublist, hperm⟩ := reads.placed_upsertTightropeProviderSection (upsertModelProvider lines)
  rw [reads.after_upToSectionEnd] at hperm
  refine ⟨placed heading (after heading none (updatedLines lines)) trail, fun place hplace =>
    htrail _ (mem_of_mem_placed hplace), ?_, ?_⟩
  · rw [hedited, placed_append]
    exact hsublist.trans (List.sublist_append_left _ _)
  · rw [hedited, placed_append, ← List.append_assoc]
    exact hperm.append_right _

theorem mem_placed_upsertModelProvider {place : Option H × Text} {lines : List Text}
    (h : place ∈ placed heading none (upsertModelProvider lines)) : place ∈ placed heading none (otherLines lines) ∨
      place = (after heading none (beforeProvider lines), modelProviderLine) :=
  (List.mem_append.mp ((reads.placed_upsertModelProvider lines).2.mem_iff.mp h)).imp_right List.mem_singleton.mp

theorem mem_placed_editedLines {place : Option H × Text} {lines : List Text}
    (h : place ∈ placed heading none (editedLines lines)) : place ∈ placed heading none (upsertModelProvider lines) ∨
      place ∈ placed heading (after heading none (upToSectionEnd lines)) (insertedLines (upsertModelProvider lines)) ∨
        place.2 = [] := by
  obtain ⟨blanks, hblanks, -, hperm⟩ := reads.placed_editedLines lines
  refine (List.mem_append.mp (hperm.mem_iff.mp h)).imp_right fun h => ?_
  exact (List.mem_append.mp h).imp_right (hblanks place)

theorem providerPlace {place : Option H × Text} {lines : List Text}
    (h : place ∈ placed heading none (upsertModelProvider lines)) (hline : isProviderLine place.2 = true) :
    place = (after heading none (beforeProvider lines), modelProviderLine) := by
  obtain h | h := reads.mem_placed_upsertModelProvider h
  · have hother := (List.mem_filter.mp (mem_of_mem_placed h)).2
    rw [hline] at hother
    cases hother
  · exact h

theorem providerPlace_editedLines {place : Option H × Text} {lines : List Text}
    (h : place ∈ placed heading none (editedLines lines)) (hline : isProviderLine place.2 = true) :
    place = (after heading none (beforeProvider lines), modelProviderLine) := by
  obtain h | h | h := reads.mem_placed_editedLines h
  · exact reads.providerPlace h hline
  · rw [isProviderLine_tableLines _ (mem_insertedLines (mem_of_mem_placed h))] at hline
    cases hline
  · rw [h, isNeutral_nil.2.2.1] at hline
    cases hline

end ReadsTables

end Tightrope.App
