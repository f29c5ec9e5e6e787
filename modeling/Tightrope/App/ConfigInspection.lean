import Tightrope.App.ConfigLines

namespace Tightrope.App

open Headings

def InspectedSetting (lines : List Text) (key : Text) : Prop :=
  ∃ place ∈ placed inspectedSection none lines, place.1 = some tightropeProviderSection ∧
    inspectedKey place.2 = some key

instance (lines : List Text) (key : Text) : Decidable (InspectedSetting lines key) :=
  inferInstanceAs (Decidable (∃ place ∈ placed inspectedSection none lines, _))

section Steps

variable {s : Inspection} {line key : Text} {lines : List Text}

theorem parseActive_of_parseCommented {expression : Text} (h : parseCommentedTomlExpression line = some expression) :
    parseActiveTomlExpression line = none := by
  unfold parseCommentedTomlExpression at h
  simp only at h
  split_ifs at h with hcomment
  unfold parseActiveTomlExpression
  exact if_pos (.inr (not_not.mp hcomment))

theorem inspection_cases (s : Inspection) (line : Text) :
    (∃ name, inspectedSection line = some name ∧ inspectedKey line = none ∧ s.line line = s.activeSection name) ∨
      (∃ key rawValue, inspectedSection line = none ∧ inspectedKey line = some key ∧
        parseTomlKeyValueExpression ((parseActiveTomlExpression line).getD []) = some (key, rawValue) ∧
          s.line line = s.activeEntry key rawValue) ∨
      (inspectedSection line = none ∧ inspectedKey line = none ∧
        (s.line line).activeSectionName = s.activeSectionName ∧
        (s.line line).activeModelProvider = s.activeModelProvider ∧
        (s.line line).hasActiveProviderSection = s.hasActiveProviderSection ∧
        (s.line line).activeSettingKeys = s.activeSettingKeys) := by
  have hkeyless : ∀ name, inspectedSection line = some name → inspectedKey line = none := by
    intro name hname
    refine Option.eq_none_iff_forall_ne_some.mpr fun key hkey => ?_
    rw [(noHeader_of_keyOfLine (keyOfLine_of_inspectedKey hkey)).2.1] at hname
    cases hname
  unfold Inspection.line
  simp only
  cases hsection : parseSectionName (parseActiveTomlExpression line) with
  | some name => exact .inl ⟨name, hsection, hkeyless name hsection, rfl⟩
  | none =>
    simp only
    cases hentry : parseTomlKeyValueExpression ((parseActiveTomlExpression line).getD []) with
    | some entry =>
      obtain ⟨key, rawValue⟩ := entry
      right
      left
      -- A line with an active entry is no comment.
      have hcommented : parseCommentedTomlExpression line = none := by
        refine Option.eq_none_iff_forall_ne_some.mpr fun expression hexpression => ?_
        rw [parseActive_of_parseCommented hexpression] at hentry
        cases hentry
      have hkey : inspectedKey line = some key := by
        rw [inspectedKey, hentry]
        rfl
      rw [hcommented]
      exact ⟨key, rawValue, hsection, hkey, rfl, rfl⟩
    | none =>
      right
      right
      have hkey : inspectedKey line = none := by
        rw [inspectedKey, hentry]
        rfl
      refine ⟨hsection, hkey, ?_⟩
      split
      · exact ⟨rfl, rfl, rfl, rfl⟩
      · simp only
        split <;> exact ⟨rfl, rfl, rfl, rfl⟩

theorem activeSectionName_line : (s.line line).activeSectionName = (inspectedSection line).or s.activeSectionName := by
  obtain ⟨name, hname, -, heq⟩ | ⟨key, rawValue, hname, -, -, heq⟩ | ⟨hname, -, heq, -⟩ := inspection_cases s line
  · rw [heq, hname]
    rfl
  · rw [heq, hname]
    rfl
  · rw [heq, hname]
    rfl

theorem mem_activeSettingKeys_line (hkey : key ∈ requiredSettingKeys) : key ∈ (s.line line).activeSettingKeys ↔
    key ∈ s.activeSettingKeys ∨
      ((inspectedSection line).or s.activeSectionName = some tightropeProviderSection ∧
        inspectedKey line = some key) := by
  obtain ⟨name, hname, hnone, heq⟩ | ⟨key', rawValue, hname, hfound, -, heq⟩ | ⟨hname, hnone, -, -, -, heq⟩ :=
    inspection_cases s line
  · rw [heq, hnone]
    simp [Inspection.activeSection]
  · rw [heq, hname, hfound, Option.none_or, Option.some_inj]
    unfold Inspection.activeEntry
    simp only
    by_cases hactive : s.activeSectionName = some tightropeProviderSection ∧ key' ∈ requiredSettingKeys
    · rw [if_pos hactive, List.mem_cons]
      constructor
      · rintro (rfl | h)
        · exact .inr ⟨hactive.1, rfl⟩
        · exact .inl h
      · rintro (h | ⟨-, rfl⟩)
        · exact .inr h
        · exact .inl rfl
    · rw [if_neg hactive]
      refine ⟨.inl, ?_⟩
      rintro (h | ⟨hsection, rfl⟩)
      · exact h
      · exact absurd ⟨hsection, hkey⟩ hactive
  · rw [heq, hnone]
    simp

theorem hasActiveProviderSection_line : (s.line line).hasActiveProviderSection = true ↔
    s.hasActiveProviderSection = true ∨ inspectedSection line = some tightropeProviderSection := by
  obtain ⟨name, hname, -, heq⟩ | ⟨key, rawValue, hname, -, -, heq⟩ | ⟨hname, -, -, -, heq, -⟩ := inspection_cases s line
  · rw [heq, hname]
    simp [Inspection.activeSection]
  · rw [heq, hname]
    simp [Inspection.activeEntry]
  · rw [heq, hname]
    simp

theorem activeModelProvider_line (h : (inspectedSection line).or s.activeSectionName = none →
    inspectedKey line ≠ some modelProvider) : (s.line line).activeModelProvider = s.activeModelProvider := by
  obtain ⟨name, hname, -, heq⟩ | ⟨key, rawValue, hname, hfound, -, heq⟩ | ⟨-, -, -, heq, -⟩ := inspection_cases s line
  · rw [heq]
    rfl
  · rw [hname, hfound, Option.none_or] at h
    rw [heq]
    exact if_neg fun hboth => h hboth.1 (congrArg some hboth.2)
  · exact heq

end Steps

section Scans

variable {s : Inspection} {key : Text} {lines before rest : List Text}

theorem activeSectionName_foldl : (lines.foldl Inspection.line s).activeSectionName =
    after inspectedSection s.activeSectionName lines := by
  induction lines generalizing s with
  | nil => rfl
  | cons line lines ih =>
    rw [List.foldl_cons, ih, activeSectionName_line]
    rfl

theorem mem_activeSettingKeys_foldl (hkey : key ∈ requiredSettingKeys) :
    key ∈ (lines.foldl Inspection.line s).activeSettingKeys ↔ key ∈ s.activeSettingKeys ∨
      ∃ place ∈ placed inspectedSection s.activeSectionName lines,
        place.1 = some tightropeProviderSection ∧ inspectedKey place.2 = some key := by
  induction lines generalizing s with
  | nil => simp [placed]
  | cons line lines ih =>
    rw [List.foldl_cons, ih, mem_activeSettingKeys_line hkey, activeSectionName_line, placed, or_assoc]
    simp only [List.mem_cons, exists_eq_or_imp]

theorem hasActiveProviderSection_foldl : (lines.foldl Inspection.line s).hasActiveProviderSection = true ↔
    s.hasActiveProviderSection = true ∨ ∃ line ∈ lines, inspectedSection line = some tightropeProviderSection := by
  induction lines generalizing s with
  | nil => simp
  | cons line lines ih =>
    rw [List.foldl_cons, ih, hasActiveProviderSection_line, or_assoc]
    simp only [List.mem_cons, exists_eq_or_imp]

theorem activeModelProvider_foldl (h : ∀ place ∈ placed inspectedSection s.activeSectionName lines,
    place.1 = none → inspectedKey place.2 ≠ some modelProvider) :
    (lines.foldl Inspection.line s).activeModelProvider = s.activeModelProvider := by
  induction lines generalizing s with
  | nil => rfl
  | cons line lines ih =>
    rw [placed, List.forall_mem_cons, ← activeSectionName_line] at h
    rw [List.foldl_cons, ih h.2]
    exact activeModelProvider_line fun hnone => h.1 (activeSectionName_line ▸ hnone)

theorem inspectedKey_modelProviderLine : inspectedSection modelProviderLine = none ∧
    parseTomlKeyValueExpression ((parseActiveTomlExpression modelProviderLine).getD []) =
      some (modelProvider, inQuotes tightropeProviderName) ∧
    parseTomlStringValue (inQuotes tightropeProviderName) = some tightropeProviderName := by
  decide

theorem activeModelProvider_iff (hbefore : ∀ line ∈ before, inspectedKey line ≠ some modelProvider)
    (hrest : ∀ line ∈ rest, inspectedKey line ≠ some modelProvider) :
    (inspectLines (before ++ modelProviderLine :: rest)).activeModelProvider = some tightropeProviderName ↔
      after inspectedSection none before = none := by
  obtain ⟨hsection, hentry, hvalue⟩ := inspectedKey_modelProviderLine
  have hfirst : (inspectLines before).activeModelProvider = none :=
    activeModelProvider_foldl fun place hplace _ => hbefore _ (mem_of_mem_placed hplace)
  have hlast : (inspectLines (before ++ modelProviderLine :: rest)).activeModelProvider =
      ((inspectLines before).line modelProviderLine).activeModelProvider := by
    rw [inspectLines, List.foldl_append, List.foldl_cons]
    exact activeModelProvider_foldl fun place hplace _ => hrest _ (mem_of_mem_placed hplace)
  obtain ⟨name, hname, -⟩ | ⟨key, rawValue, -, -, hread, heq⟩ | ⟨-, hnone, -⟩ :=
    inspection_cases (inspectLines before) modelProviderLine
  · rw [hsection] at hname
    cases hname
  · obtain ⟨rfl, rfl⟩ := Prod.mk.inj (Option.some.inj (hentry.symm.trans hread))
    rw [hlast, heq, ← activeSectionName_foldl (s := {})]
    unfold Inspection.activeEntry
    simp only [and_true]
    split_ifs with htop
    · exact iff_of_true hvalue htop
    · rw [hfirst]
      exact iff_of_false nofun htop
  · rw [inspectedKey, hentry] at hnone
    cases hnone

theorem configured_iff {text : Text} : (inspectTightropeSetup text).configured = true ↔
    (inspectLines (splitLines text)).activeModelProvider = some tightropeProviderName ∧
      (∃ line ∈ splitLines text, inspectedSection line = some tightropeProviderSection) ∧
      ∀ key ∈ requiredSettingKeys, InspectedSetting (splitLines text) key := by
  unfold inspectTightropeSetup
  simp only [Bool.and_eq_true, decide_eq_true_eq, List.all_eq_true, and_assoc]
  have hsection : (inspectLines (splitLines text)).hasActiveProviderSection = true ↔
      ∃ line ∈ splitLines text, inspectedSection line = some tightropeProviderSection := by
    rw [inspectLines, hasActiveProviderSection_foldl]
    simp
  have hkeys : (∀ key ∈ requiredSettingKeys, key ∈ (inspectLines (splitLines text)).activeSettingKeys) ↔
      ∀ key ∈ requiredSettingKeys, InspectedSetting (splitLines text) key := by
    refine forall₂_congr fun key hkey => ?_
    rw [inspectLines, mem_activeSettingKeys_foldl hkey]
    simp [InspectedSetting]
  rw [hsection, hkeys]

end Scans

end Tightrope.App
