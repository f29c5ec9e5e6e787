import Tightrope.App.EditedConfig

namespace Tightrope.App

open Headings Separators

section Inserted

variable {H : Type} {heading : Text → Option H} {part : H} {lines : List Text}

theorem fromSection_upsertModelProvider : fromSection (upsertModelProvider lines) = [] ↔ fromSection lines = [] := by
  rw [← fromSection_eq_nil_iff, otherLines_upsertModelProvider, fromSection_eq_nil_iff]

theorem missingSettings_upsertModelProvider : missingSettings (upsertModelProvider lines) = missingSettings lines := by
  rw [← missingSettings_otherLines, otherLines_upsertModelProvider, missingSettings_otherLines]

theorem mem_missingSettings {key : Text} : key ∈ (missingSettings lines).map Prod.fst ↔
    key ∈ requiredSettingKeys ∧ key ∉ (sectionLines lines).filterMap keyOfLine := by
  unfold missingSettings requiredSettingKeys
  simp only [List.mem_map, List.mem_filter, decide_eq_true_eq]
  constructor
  · rintro ⟨setting, ⟨hsetting, hmissing⟩, rfl⟩
    exact ⟨⟨setting, hsetting, rfl⟩, hmissing⟩
  · rintro ⟨⟨setting, hsetting, rfl⟩, hmissing⟩
    exact ⟨setting, ⟨hsetting, hmissing⟩, rfl⟩

theorem ReadsTables.placed_wholeTable (reads : ReadsTables heading part) (owner : Option H)
    (hnone : fromSection lines = []) :
    ∃ gap, (∀ place ∈ gap, place.2 = []) ∧
      placed heading owner (insertedLines (upsertModelProvider lines)) = gap ++
        (some part, header tightropeProviderSection) ::
          (tightropeProviderSettings.map settingLine).map fun line => (some part, line) := by
  rw [insertedLines, if_pos (fromSection_upsertModelProvider.mpr hnone), placed_append, placed, reads.table,
    placed_of_none reads.setting]
  refine ⟨_, fun place hplace => ?_, rfl⟩
  have hblank := mem_of_mem_placed hplace
  split_ifs at hblank
  · exact List.mem_singleton.mp hblank
  · cases hblank

theorem ReadsTables.placed_missing (reads : ReadsTables heading part) (owner : Option H)
    (hsome : fromSection lines ≠ []) :
    placed heading owner (insertedLines (upsertModelProvider lines)) =
      (missingSettings lines).map fun setting => (owner, settingLine setting) := by
  have hlines : ∀ line ∈ (missingSettings lines).map settingLine, heading line = none :=
    fun line hline => reads.setting line (List.map_subset _ (List.filter_subset_self _) hline)
  rw [insertedLines, if_neg (mt fromSection_upsertModelProvider.mp hsome), missingSettings_upsertModelProvider,
    placed_of_none hlines, List.map_map]
  rfl

end Inserted

section Configured

variable {lines : List Text} {key text : Text}

theorem activeModelProvider_editedLines (lines : List Text) :
    (inspectLines (editedLines lines)).activeModelProvider = some tightropeProviderName ↔
      after inspectedSection none (beforeProvider lines) = none := by
  have hfilter := filter_editedLines lines
  have hmem : modelProviderLine ∈ editedLines lines := List.mem_of_mem_filter (hfilter ▸ List.mem_cons_self)
  obtain ⟨before, rest, hlines⟩ := List.append_of_mem hmem
  have hplace : (after inspectedSection none before, modelProviderLine) ∈ placed inspectedSection none
      (editedLines lines) := by
    rw [hlines, placed_append, placed, inspectedKey_modelProviderLine.1, Option.none_or]
    exact List.mem_append_right _ List.mem_cons_self
  -- The only assignment is where the edit put it.
  have hsame := readsTables_inspectedSection.providerPlace_editedLines hplace isProviderLine_modelProviderLine
  rw [hlines, List.filter_append, List.filter_cons_of_pos isProviderLine_modelProviderLine] at hfilter
  have hcount := congrArg List.length hfilter
  rw [List.length_append, List.length_cons, List.length_singleton] at hcount
  have hnone : ∀ part : List Text, (part.filter isProviderLine).length = 0 → ∀ line ∈ part,
      inspectedKey line ≠ some modelProvider := by
    intro part hpart line hline hkey
    have hprovider : line ∈ part.filter isProviderLine :=
      List.mem_filter.mpr ⟨hline, isProviderLine_of_inspectedKey hkey⟩
    rw [List.length_eq_zero_iff.mp hpart] at hprovider
    cases hprovider
  rw [hlines, activeModelProvider_iff (hnone before (by omega)) (hnone rest (by omega)), (Prod.mk.inj hsame).1]

theorem inspectedKey_neutral : inspectedKey modelProviderLine = some modelProvider ∧
    inspectedKey (header tightropeProviderSection) = none ∧ inspectedKey [] = none := by decide

theorem inspectedSetting_editedLines (hkey : key ∈ requiredSettingKeys) : InspectedSetting (editedLines lines) key ↔
    fromSection lines = [] ∨ InspectedSetting lines key ∨ (key ∉ (sectionLines lines).filterMap keyOfLine ∧
      after inspectedSection none (upToSectionEnd lines) = some tightropeProviderSection) := by
  obtain ⟨blanks, hblanks, -, hperm⟩ := readsTables_inspectedSection.placed_editedLines lines
  by_cases hnone : fromSection lines = []
  · refine iff_of_true ?_ (.inl hnone)
    obtain ⟨gap, -, hplaced⟩ := readsTables_inspectedSection.placed_wholeTable
      (after inspectedSection none (upToSectionEnd lines)) hnone
    obtain ⟨setting, hsetting, rfl⟩ := List.mem_map.mp hkey
    refine ⟨(some tightropeProviderSection, settingLine setting), hperm.mem_iff.mpr ?_, rfl,
      (settingLine_reads hsetting).2.1⟩
    rw [hplaced]
    exact List.mem_append_right _ (List.mem_append_left _ (List.mem_append_right _ (List.mem_cons_of_mem _
      (List.mem_map_of_mem (List.mem_map_of_mem hsetting)))))
  · constructor
    · rintro ⟨place, hplace, hsection, hread⟩
      obtain h | h | h := readsTables_inspectedSection.mem_placed_editedLines hplace
      · obtain h | rfl := readsTables_inspectedSection.mem_placed_upsertModelProvider h
        · exact .inr (.inl ((inspectedSetting_otherLines hkey).mp ⟨place, h, hsection, hread⟩))
        · obtain rfl := Option.some.inj (inspectedKey_neutral.1.symm.trans hread)
          exact absurd hkey modelProvider_notMem_required
      · rw [readsTables_inspectedSection.placed_missing _ hnone] at h
        obtain ⟨setting, hsetting, rfl⟩ := List.mem_map.mp h
        have hreads := settingLine_reads (List.mem_of_mem_filter hsetting)
        obtain rfl := Option.some.inj (hreads.2.1.symm.trans hread)
        exact .inr (.inr ⟨(mem_missingSettings.mp (List.mem_map_of_mem hsetting)).2, hsection⟩)
      · rw [h, inspectedKey_neutral.2.2] at hread
        cases hread
    · rintro (h | h | ⟨hmissing, hsection⟩)
      · exact absurd h hnone
      · obtain ⟨place, hplace, hfound⟩ := (inspectedSetting_otherLines hkey).mpr h
        refine ⟨place, hperm.mem_iff.mpr (List.mem_append_left _ ?_), hfound⟩
        exact (readsTables_inspectedSection.placed_upsertModelProvider lines).1.subset hplace
      · obtain ⟨setting, hsetting, rfl⟩ := List.mem_map.mp (mem_missingSettings.mpr ⟨hkey, hmissing⟩)
        have hreads := settingLine_reads (List.mem_of_mem_filter hsetting)
        refine ⟨(some tightropeProviderSection, settingLine setting), hperm.mem_iff.mpr ?_, rfl, hreads.2.1⟩
        rw [readsTables_inspectedSection.placed_missing _ hnone, hsection]
        exact List.mem_append_right _ (List.mem_append_left _ (List.mem_map_of_mem hsetting))

theorem exists_providerHeader (lines : List Text) :
    ∃ line ∈ editedLines lines, inspectedSection line = some tightropeProviderSection := by
  obtain ⟨trail, hedited, htrail⟩ := exists_editedLines lines
  obtain ⟨hsome, -⟩ := @complete_upsertTightropeProviderSection (upsertModelProvider lines) trail htrail
  rw [← updatedLines, ← hedited] at hsome
  obtain ⟨line, rest, hfrom⟩ := List.exists_cons_of_ne_nil hsome
  have hmem : line ∈ fromSection (editedLines lines) := hfrom ▸ List.mem_cons_self
  exact ⟨line, (List.dropWhile_sublist _).subset hmem, inspectedSection_of_providerHeader (head_fromSection hfrom)⟩

theorem configured_editedLines (h : splitLines text = editedLines lines) :
    (inspectTightropeSetup text).configured = true ↔
    after inspectedSection none (beforeProvider lines) = none ∧ ∀ key ∈ requiredSettingKeys, fromSection lines = [] ∨
      InspectedSetting lines key ∨ (key ∉ (sectionLines lines).filterMap keyOfLine ∧
        after inspectedSection none (upToSectionEnd lines) = some tightropeProviderSection) := by
  rw [configured_iff, h, activeModelProvider_editedLines, and_iff_right (exists_providerHeader lines)]
  exact and_congr_right fun _ => forall₂_congr fun key hkey => inspectedSetting_editedLines hkey

end Configured

section Places

variable {lines : List Text} {owner : Option TomlTable} {setting : Text × Text}

theorem mayAdd_provider : MayAdd (owner, modelProviderLine) ↔ owner = none := by
  have hother : modelProviderLine ≠ [] ∧ modelProviderLine ∉ tableLines := by decide
  constructor
  · rintro (h | h | ⟨-, h⟩)
    · exact absurd h hother.1
    · exact (Prod.mk.inj h).1
    · exact absurd (List.mem_cons_of_mem _ (List.mem_cons.mpr h)) hother.2
  · rintro rfl
    exact .inr (.inl rfl)

theorem mayAdd_setting (h : setting ∈ tightropeProviderSettings) :
    MayAdd (owner, settingLine setting) ↔ owner = some providerTable := by
  have hother : ∀ setting ∈ tightropeProviderSettings, settingLine setting ≠ [] ∧
      settingLine setting ≠ modelProviderLine := by
    decide
  constructor
  · rintro (hblank | hprovider | ⟨howner, -⟩)
    · exact absurd hblank (hother setting h).1
    · exact absurd (Prod.mk.inj hprovider).2 (hother setting h).2
    · exact howner
  · exact fun howner => .inr (.inr ⟨howner, .inr (List.mem_map_of_mem h)⟩)

theorem mayAdd_insertedLines (lines : List Text) :
    (∀ place ∈ placed opensTable (after opensTable none (upToSectionEnd lines))
        (insertedLines (upsertModelProvider lines)),
      MayAdd place) ↔ fromSection lines = [] ∨ ∀ key ∈ requiredSettingKeys,
        key ∉ (sectionLines lines).filterMap keyOfLine →
          after opensTable none (upToSectionEnd lines) = some providerTable := by
  by_cases hnone : fromSection lines = []
  · refine iff_of_true ?_ (.inl hnone)
    obtain ⟨gap, hgap, hplaced⟩ := readsTables_opensTable.placed_wholeTable _ hnone
    rw [hplaced, List.forall_mem_append, List.forall_mem_cons]
    refine ⟨fun place hplace => .inl (hgap place hplace), .inr (.inr ⟨rfl, .inl rfl⟩), fun place hplace => ?_⟩
    obtain ⟨line, hline, rfl⟩ := List.mem_map.mp hplace
    exact .inr (.inr ⟨rfl, .inr hline⟩)
  · rw [readsTables_opensTable.placed_missing _ hnone, or_iff_right hnone]
    constructor
    · intro h key hkey hmissing
      obtain ⟨setting, hsetting, rfl⟩ := List.mem_map.mp (mem_missingSettings.mpr ⟨hkey, hmissing⟩)
      exact (mayAdd_setting (List.mem_of_mem_filter hsetting)).mp (h _ (List.mem_map_of_mem hsetting))
    · intro h place hplace
      obtain ⟨setting, hsetting, rfl⟩ := List.mem_map.mp hplace
      obtain ⟨hkey, hmissing⟩ := mem_missingSettings.mp (List.mem_map_of_mem hsetting)
      exact (mayAdd_setting (List.mem_of_mem_filter hsetting)).mpr (h _ hkey hmissing)

section Definitions

variable {table : TomlTable}

theorem countP_eq_zero_of_none (h : ∀ line ∈ lines, opensTable line = none) :
    lines.countP (fun line => opensTable line = some table) = 0 := by
  rw [List.countP_eq_zero]
  intro line hline
  rw [h line hline]
  exact Bool.false_ne_true

theorem countP_upsertModelProvider (lines : List Text) :
    (upsertModelProvider lines).countP (fun line => opensTable line = some table) =
      lines.countP fun line => opensTable line = some table := by
  have hfilter : (otherLines lines).countP (fun line => opensTable line = some table) =
      lines.countP fun line => opensTable line = some table := by
    rw [otherLines, List.countP_filter]
    refine List.countP_congr fun line _ => ?_
    simp only [Bool.and_eq_true, decide_eq_true_eq, Bool.not_eq_true']
    refine and_iff_left_of_imp fun htable => ?_
    rw [← Bool.not_eq_true]
    intro hprovider
    rw [readsTables_opensTable.provider line hprovider] at htable
    cases htable
  rw [upsertModelProvider_eq, List.countP_append, List.countP_cons_of_neg, ← List.countP_append,
    beforeProvider_append, hfilter]
  rw [readsTables_opensTable.provider _ isProviderLine_modelProviderLine]
  exact Bool.false_ne_true

theorem countP_insertedLines (lines : List Text) :
    (insertedLines (upsertModelProvider lines)).countP (fun line => opensTable line = some table) =
      if fromSection lines = [] ∧ table = providerTable then 1 else 0 := by
  have hsettings := @countP_eq_zero_of_none _ table readsTables_opensTable.setting
  unfold insertedLines
  by_cases hnone : fromSection lines = []
  · have hgap : ∀ gap : List Text, (∀ line ∈ gap, line = []) →
        gap.countP (fun line => opensTable line = some table) = 0 :=
      fun gap hgap => countP_eq_zero_of_none fun line hline => hgap line hline ▸ readsTables_opensTable.blank
    rw [if_pos (fromSection_upsertModelProvider.mpr hnone), List.countP_append, hgap, List.countP_cons, hsettings,
      readsTables_opensTable.table]
    · simp [hnone, eq_comm]
    · split_ifs
      · exact fun line => List.mem_singleton.mp
      · exact nofun
  · rw [if_neg (mt fromSection_upsertModelProvider.mp hnone), if_neg fun h => hnone h.1]
    refine countP_eq_zero_of_none fun line hline => readsTables_opensTable.setting line ?_
    exact List.map_subset _ (List.filter_subset_self _) hline

theorem countP_editedLines (lines : List Text) :
    (editedLines lines).countP (fun line => opensTable line = some table) =
      lines.countP (fun line => opensTable line = some table) +
        if fromSection lines = [] ∧ table = providerTable then 1 else 0 := by
  obtain ⟨trail, hedited, htrail⟩ := exists_editedLines lines
  have hblank : trail.countP (fun line => opensTable line = some table) = 0 :=
    countP_eq_zero_of_none fun line hline => htrail line hline ▸ readsTables_opensTable.blank
  rw [hedited, List.countP_append, hblank, Nat.add_zero, updatedLines, upsertTightropeProviderSection_eq,
    List.countP_append, List.countP_append, countP_insertedLines, Nat.add_right_comm, ← List.countP_append,
    upToSectionEnd_append, countP_upsertModelProvider]

end Definitions

end Places

section Conditions

/-- The provider's line goes to the top: the assignments are there, or no header before the one that the scan sees is
another one for TOML. The assignment for Tightrope may also be alone in a table that the inspecting scan does not see.
-/
def FitsTop (lines : List Text) : Prop :=
  if lines.any assignsProvider then
    (∀ place ∈ placed opensTable none lines, assignsProvider place.2 = true → place.1 = none) ∨
      (lines.filter assignsProvider = [modelProviderLine] ∧
        ∀ place ∈ placed inspectedSection none lines, assignsProvider place.2 = true → place.1 = none)
  else after opensTable none (lines.takeWhile (!isActiveSectionHeader ·)) = none

/-- The settings go to the provider's table: without the header that the scan looks for, TOML has not just one either;
with it, every key is set where the inspecting scan finds it, or is put in where it and TOML both have the table open.
-/
def FitsTable (lines : List Text) : Prop :=
  if fromSection lines = [] then lines.countP (fun line => opensTable line = some providerTable) ≠ 1
  else ∀ key ∈ requiredSettingKeys,
    (InspectedSetting lines key ∨ (key ∉ (sectionLines lines).filterMap keyOfLine ∧
      after inspectedSection none (upToSectionEnd lines) = some tightropeProviderSection)) ∧
    (key ∉ (sectionLines lines).filterMap keyOfLine → after opensTable none (upToSectionEnd lines) = some providerTable)

instance (lines : List Text) : Decidable (FitsTop lines) := by
  unfold FitsTop
  infer_instance

instance (lines : List Text) : Decidable (FitsTable lines) := by
  unfold FitsTable
  infer_instance

variable {text : Text} {lines : List Text}

theorem assignsProvider_lines (htext : IsTomlText text) : ∀ line ∈ splitLines text,
    assignsProvider line = isProviderLine line :=
  fun line hline => assignsProvider_eq (htext line hline)

theorem inspected_of_opens (hread : ∀ line ∈ lines, (readLine line).isSome = true)
    (h : after opensTable none lines = none) :
    after inspectedSection none lines = none := by
  rw [after_eq_none_iff] at h ⊢
  intro line hline
  refine Option.eq_none_iff_forall_ne_some.mpr fun name hname => ?_
  have hopens := opensTable_of_inspectedSection (hread line hline) hname
  rw [h line hline] at hopens
  cases hopens

theorem fitsTable_iff (lines : List Text) : FitsTable lines ↔
    (∀ key ∈ requiredSettingKeys, fromSection lines = [] ∨ InspectedSetting lines key ∨
      (key ∉ (sectionLines lines).filterMap keyOfLine ∧
        after inspectedSection none (upToSectionEnd lines) = some tightropeProviderSection)) ∧
    (fromSection lines = [] ∨ ∀ key ∈ requiredSettingKeys, key ∉ (sectionLines lines).filterMap keyOfLine →
      after opensTable none (upToSectionEnd lines) = some providerTable) ∧
    (fromSection lines = [] → lines.countP (fun line => opensTable line = some providerTable) ≠ 1) := by
  unfold FitsTable
  by_cases hnone : fromSection lines = []
  · simp only [hnone, if_true, true_or, implies_true, true_and, forall_const]
  · simp only [hnone, if_false, false_or, false_implies, and_true, ← forall₂_and]

end Conditions

section Conservative

variable {text : Text}

theorem carriageReturn_notMem (htext : IsTomlText text) : ∀ line ∈ splitLines text, carriageReturn ∉ line := by
  intro line hline hreturn
  have hread := htext line hline
  rw [readLine, if_pos hreturn] at hread
  cases hread

theorem idempotent_of_text (htext : IsTomlText text) (hne : text ≠ []) :
    buildUpdatedConfig (buildUpdatedConfig text) = buildUpdatedConfig text := by
  obtain ⟨hbuild, hlines⟩ := buildUpdatedConfig_eq (carriageReturn_notMem htext) hne
  have hreturn : ∀ line ∈ splitLines (buildUpdatedConfig text), carriageReturn ∉ line := by
    rw [hlines]
    intro line hline
    obtain hline | hline := mem_editedLines hline
    · exact carriageReturn_notMem htext line hline
    · exact (lineEnds_notMem_addedLines line hline).2
  have hnonempty : buildUpdatedConfig text ≠ [] := by
    intro hnil
    rw [hnil] at hlines
    have hprovider := congrArg (List.filter isProviderLine) hlines
    rw [filter_editedLines] at hprovider
    exact absurd hprovider (by decide)
  have hagain := (buildUpdatedConfig_eq hreturn hnonempty).1
  rw [hlines, editedLines_editedLines] at hagain
  rw [hagain, hbuild]

theorem defined_iff (htext : IsTomlText text) (hne : text ≠ []) :
    (∀ table, 2 ≤ definitions table (buildUpdatedConfig text) → 2 ≤ definitions table text) ↔
      (fromSection (splitLines text) = [] →
        (splitLines text).countP (fun line => opensTable line = some providerTable) ≠ 1) := by
  obtain ⟨-, hlines⟩ := buildUpdatedConfig_eq (carriageReturn_notMem htext) hne
  unfold definitions
  rw [hlines]
  constructor
  · intro h hnone hone
    have hprovider : 2 ≤ (editedLines (splitLines text)).countP (fun line => opensTable line = some providerTable) →
        2 ≤ (splitLines text).countP fun line => opensTable line = some providerTable := h providerTable.2
    rw [countP_editedLines, if_pos ⟨hnone, rfl⟩, hone] at hprovider
    exact absurd (hprovider le_rfl) (by decide)
  · intro h table htwo
    rw [countP_editedLines] at htwo
    split_ifs at htwo with hprovider
    · obtain ⟨hnone, htable⟩ := hprovider
      have hother := h hnone
      rw [← htable] at hother
      omega
    · exact htwo

theorem keptLines_of_top (htext : IsTomlText text)
    (htop : ∀ place ∈ placed opensTable none (splitLines text), isProviderLine place.2 = true → place.1 = none) :
    keptLines text = placed opensTable none (otherLines (splitLines text)) := by
  rw [readsTables_opensTable.placed_otherLines]
  refine List.filter_congr fun place hplace => ?_
  rw [assignsProvider_lines htext _ (mem_of_mem_placed hplace)]
  cases hprovider : isProviderLine place.2 with
  | true => rw [htop place hplace hprovider]; rfl
  | false => rw [Bool.and_false]

theorem keptLines_of_inside (htext : IsTomlText text)
    (hinside : ∀ place ∈ placed opensTable none (splitLines text), isProviderLine place.2 = true → place.1 ≠ none) :
    keptLines text = placed opensTable none (splitLines text) := by
  refine List.filter_eq_self.mpr fun place hplace => ?_
  rw [assignsProvider_lines htext _ (mem_of_mem_placed hplace)]
  cases hprovider : isProviderLine place.2 with
  | true =>
    obtain ⟨table, htable⟩ := Option.ne_none_iff_exists'.mp (hinside place hplace hprovider)
    rw [htable]
    rfl
  | false => rw [Bool.and_false, Bool.not_false]

theorem added_iff {kept extras places : List (Option TomlTable × Text)} (h : places.Perm (kept ++ extras)) :
    (∃ added, places.Perm (kept ++ added) ∧ ∀ place ∈ added, MayAdd place) ↔ ∀ place ∈ extras, MayAdd place := by
  constructor
  · rintro ⟨added, hperm, hadded⟩ place hplace
    have hsame : extras.Perm added := (List.perm_append_left_iff kept).mp (h.symm.trans hperm)
    exact hadded place (hsame.mem_iff.mp hplace)
  · exact fun hextras => ⟨extras, h, hextras⟩

end Conservative

section Edits

variable {text : Text}

def insertedPlaces (lines : List Text) : List (Option TomlTable × Text) :=
  placed opensTable (after opensTable none (upToSectionEnd lines)) (insertedLines (upsertModelProvider lines))

theorem tomlLines_edited (htext : IsTomlText text) (hne : text ≠ []) :
    tomlLines (buildUpdatedConfig text) = placed opensTable none (editedLines (splitLines text)) := by
  rw [tomlLines, (buildUpdatedConfig_eq (carriageReturn_notMem htext) hne).2]

theorem kept_of_top (htext : IsTomlText text) (hne : text ≠ [])
    (htop : ∀ place ∈ placed opensTable none (splitLines text), isProviderLine place.2 = true → place.1 = none) :
    (keptLines text).Sublist (tomlLines (buildUpdatedConfig text)) ∧
      ((∃ added, (tomlLines (buildUpdatedConfig text)).Perm (keptLines text ++ added) ∧ ∀ place ∈ added, MayAdd place) ↔
        after opensTable none (beforeProvider (splitLines text)) = none ∧
          ∀ place ∈ insertedPlaces (splitLines text), MayAdd place) := by
  obtain ⟨blanks, hblanks, hsublist, hperm⟩ := readsTables_opensTable.placed_editedLines (splitLines text)
  obtain ⟨hsublist', hperm'⟩ := readsTables_opensTable.placed_upsertModelProvider (splitLines text)
  rw [tomlLines_edited htext hne, keptLines_of_top htext htop]
  refine ⟨hsublist'.trans hsublist, ?_⟩
  have hboth := hperm.trans (hperm'.append_right _)
  rw [List.append_assoc, List.singleton_append] at hboth
  rw [added_iff hboth, List.forall_mem_cons, List.forall_mem_append, mayAdd_provider]
  exact and_congr_right fun _ => and_iff_left fun place hplace => .inl (hblanks place hplace)

theorem kept_of_inside (htext : IsTomlText text) (hne : text ≠ [])
    (hinside : ∀ place ∈ placed opensTable none (splitLines text), isProviderLine place.2 = true → place.1 ≠ none)
    (hfilter : (splitLines text).filter isProviderLine = [modelProviderLine]) :
    (keptLines text).Sublist (tomlLines (buildUpdatedConfig text)) ∧
      ((∃ added, (tomlLines (buildUpdatedConfig text)).Perm (keptLines text ++ added) ∧ ∀ place ∈ added, MayAdd place) ↔
        ∀ place ∈ insertedPlaces (splitLines text), MayAdd place) := by
  obtain ⟨blanks, hblanks, hsublist, hperm⟩ := readsTables_opensTable.placed_editedLines (splitLines text)
  have hsame := upsertModelProvider_of_filter hfilter
  rw [tomlLines_edited htext hne, keptLines_of_inside htext hinside]
  unfold insertedPlaces
  rw [hsame] at hsublist hperm ⊢
  refine ⟨hsublist, ?_⟩
  rw [added_iff hperm, List.forall_mem_append]
  exact and_iff_left fun place hplace => .inl (hblanks place hplace)

theorem placed_ne_none {current : Option TomlTable} {lines : List Text} (h : current ≠ none) :
    ∀ place ∈ placed opensTable current lines, place.1 ≠ none := by
  induction lines generalizing current with
  | nil => exact nofun
  | cons line lines ih =>
    have hopen : (opensTable line).or current ≠ none := by
      rw [Ne, Option.or_eq_none_iff, not_and]
      exact fun _ => h
    exact List.forall_mem_cons.mpr ⟨hopen, ih hopen⟩

variable {lines : List Text}

theorem any_of_place {place : Option TomlTable × Text} (h : place ∈ placed opensTable none lines)
    (hline : isProviderLine place.2 = true) : lines.any isProviderLine = true :=
  List.any_eq_true.mpr ⟨_, mem_of_mem_placed h, hline⟩

theorem inside_of_before (h : after opensTable none (beforeProvider lines) ≠ none) :
    ∀ place ∈ placed opensTable none lines, isProviderLine place.2 = true → place.1 ≠ none := by
  intro place hplace hline
  rw [beforeProvider, if_pos (any_of_place hplace hline)] at h
  rw [← List.takeWhile_append_dropWhile (p := (!isProviderLine ·)) (l := lines), placed_append] at hplace
  obtain hplace | hplace := List.mem_append.mp hplace
  · have hother := List.mem_takeWhile_imp (mem_of_mem_placed hplace)
    rw [hline] at hother
    cases hother
  · exact placed_ne_none h place hplace

theorem filter_of_kept (htext : IsTomlText text) (hne : text ≠ []) {place : Option TomlTable × Text}
    (hplace : place ∈ placed opensTable none (splitLines text)) (hline : isProviderLine place.2 = true)
    (hinside : place.1 ≠ none) (hkept : (keptLines text).Sublist (tomlLines (buildUpdatedConfig text))) :
    (splitLines text).filter isProviderLine = [modelProviderLine] := by
  rw [tomlLines_edited htext hne] at hkept
  have hmem : place ∈ keptLines text := by
    refine List.mem_filter.mpr ⟨hplace, ?_⟩
    obtain ⟨table, htable⟩ := Option.ne_none_iff_exists'.mp hinside
    rw [htable]
    rfl
  have hwhere := readsTables_opensTable.providerPlace_editedLines (hkept.subset hmem) hline
  rw [hwhere] at hinside
  rw [keptLines_of_inside htext (inside_of_before hinside)] at hkept
  have hlines := (hkept.map Prod.snd).filter isProviderLine
  rw [map_snd_placed, map_snd_placed, filter_editedLines] at hlines
  obtain hnil | hone := List.sublist_singleton.mp hlines
  · have hprovider : place.2 ∈ (splitLines text).filter isProviderLine :=
      List.mem_filter.mpr ⟨mem_of_mem_placed hplace, hline⟩
    rw [hnil] at hprovider
    cases hprovider
  · exact hone

theorem inside_of_filter (hfilter : lines.filter isProviderLine = [modelProviderLine]) {place : Option TomlTable × Text}
    (hplace : place ∈ placed opensTable none lines) (hline : isProviderLine place.2 = true) (hinside : place.1 ≠ none) :
    ∀ place ∈ placed opensTable none lines, isProviderLine place.2 = true → place.1 ≠ none := by
  have honly : ∀ place ∈ placed opensTable none lines, isProviderLine place.2 = true →
      place = (after opensTable none (beforeProvider lines), modelProviderLine) := by
    intro place hplace hline
    refine readsTables_opensTable.providerPlace ?_ hline
    rw [upsertModelProvider_of_filter hfilter]
    exact hplace
  intro other hother hotherLine
  rw [honly other hother hotherLine, ← honly place hplace hline]
  exact hinside

end Edits

section Result

variable {text : Text} {lines : List Text}

theorem before_of_top (hany : lines.any isProviderLine = true)
    (htop : ∀ place ∈ placed opensTable none lines, isProviderLine place.2 = true → place.1 = none) :
    after opensTable none (beforeProvider lines) = none := by
  by_contra hopen
  obtain ⟨line, hmem, hline⟩ := List.any_eq_true.mp hany
  obtain ⟨place, hplace, rfl⟩ : ∃ place ∈ placed opensTable none lines, place.2 = line := by
    rw [← @map_snd_placed _ _ opensTable none lines] at hmem
    exact List.mem_map.mp hmem
  exact inside_of_before hopen place hplace hline (htop place hplace hline)

theorem any_assignsProvider (htext : IsTomlText text) :
    (splitLines text).any assignsProvider = (splitLines text).any isProviderLine := by
  rw [Bool.eq_iff_iff, List.any_eq_true, List.any_eq_true]
  refine exists_congr fun line => and_congr_right fun hline => ?_
  rw [assignsProvider_lines htext line hline]

theorem fitsTop_of_top (htext : IsTomlText text)
    (htop : ∀ place ∈ placed opensTable none (splitLines text), isProviderLine place.2 = true → place.1 = none) :
    FitsTop (splitLines text) ↔ after opensTable none (beforeProvider (splitLines text)) = none := by
  unfold FitsTop
  rw [any_assignsProvider htext]
  by_cases hany : (splitLines text).any isProviderLine = true
  · rw [if_pos hany]
    refine iff_of_true (.inl fun place hplace hassigns => htop place hplace ?_) (before_of_top hany htop)
    rw [← assignsProvider_lines htext _ (mem_of_mem_placed hplace), hassigns]
  · rw [if_neg hany, beforeProvider, if_neg hany]

theorem fitsTop_of_inside (htext : IsTomlText text) {place : Option TomlTable × Text}
    (hplace : place ∈ placed opensTable none (splitLines text)) (hline : isProviderLine place.2 = true)
    (hinside : place.1 ≠ none) : FitsTop (splitLines text) ↔
      (splitLines text).filter isProviderLine = [modelProviderLine] ∧
        after inspectedSection none (beforeProvider (splitLines text)) = none := by
  have hfilter : (splitLines text).filter assignsProvider = (splitLines text).filter isProviderLine :=
    List.filter_congr (assignsProvider_lines htext)
  have htop : ¬ ∀ place ∈ placed opensTable none (splitLines text), assignsProvider place.2 = true →
      place.1 = none := by
    intro htop
    refine hinside (htop place hplace ?_)
    rw [assignsProvider_lines htext _ (mem_of_mem_placed hplace), hline]
  unfold FitsTop
  rw [any_assignsProvider htext, if_pos (any_of_place hplace hline), or_iff_right htop, hfilter]
  refine and_congr_right fun hone => ?_
  have hsame := upsertModelProvider_of_filter hone
  constructor
  · intro h
    have hmem : (after inspectedSection none (beforeProvider (splitLines text)), modelProviderLine) ∈
        placed inspectedSection none (splitLines text) := by
      have hperm := (readsTables_inspectedSection.placed_upsertModelProvider (splitLines text)).2
      rw [hsame] at hperm
      exact hperm.mem_iff.mpr (List.mem_append_right _ (List.mem_singleton_self _))
    refine h _ hmem ?_
    rw [assignsProvider_lines htext _ (mem_of_mem_placed hmem), isProviderLine_modelProviderLine]
  · intro h other hother hassigns
    rw [assignsProvider_lines htext _ (mem_of_mem_placed hother)] at hassigns
    rw [← hsame] at hother
    rw [readsTables_inspectedSection.providerPlace hother hassigns, h]

theorem inspected_before (htext : IsTomlText text)
    (h : after opensTable none (beforeProvider (splitLines text)) = none) :
    after inspectedSection none (beforeProvider (splitLines text)) = none := by
  refine inspected_of_opens (fun line hline => htext line ?_) h
  refine mem_otherLines_of_mem ?_
  rw [← beforeProvider_append]
  exact List.mem_append_left _ hline

theorem conservative_parts (htext : IsTomlText text) (hne : text ≠ []) : Conservative text ↔
    (after inspectedSection none (beforeProvider (splitLines text)) = none ∧
      (keptLines text).Sublist (tomlLines (buildUpdatedConfig text)) ∧
        ∃ added, (tomlLines (buildUpdatedConfig text)).Perm (keptLines text ++ added) ∧ ∀ place ∈ added, MayAdd place) ∧
    (∀ key ∈ requiredSettingKeys, fromSection (splitLines text) = [] ∨ InspectedSetting (splitLines text) key ∨
      (key ∉ (sectionLines (splitLines text)).filterMap keyOfLine ∧
        after inspectedSection none (upToSectionEnd (splitLines text)) = some tightropeProviderSection)) ∧
    (fromSection (splitLines text) = [] →
      (splitLines text).countP (fun line => opensTable line = some providerTable) ≠ 1) := by
  have hlines := (buildUpdatedConfig_eq (carriageReturn_notMem htext) hne).2
  rw [← defined_iff htext hne]
  constructor
  · intro h
    obtain ⟨hprovider, hsettings⟩ := (configured_editedLines hlines).mp h.configured
    exact ⟨⟨hprovider, h.kept, h.added⟩, hsettings, h.defined⟩
  · rintro ⟨⟨hprovider, hkept, hadded⟩, hsettings, hdefined⟩
    exact {
      configured := (configured_editedLines hlines).mpr ⟨hprovider, hsettings⟩
      idempotent := idempotent_of_text htext hne
      kept := hkept
      added := hadded
      defined := hdefined }

theorem conservative_iff_of_ne_nil (htext : IsTomlText text) (hne : text ≠ []) :
    Conservative text ↔ FitsTop (splitLines text) ∧ FitsTable (splitLines text) := by
  have hinserted := mayAdd_insertedLines (splitLines text)
  rw [conservative_parts htext hne, fitsTable_iff]
  by_cases htop : ∀ place ∈ placed opensTable none (splitLines text), isProviderLine place.2 = true → place.1 = none
  · obtain ⟨hkept, hadded⟩ := kept_of_top htext hne htop
    rw [fitsTop_of_top htext htop, hadded, insertedPlaces, hinserted]
    constructor
    · rintro ⟨⟨-, -, htable, hinside⟩, hsettings, hdefined⟩
      exact ⟨htable, hsettings, hinside, hdefined⟩
    · rintro ⟨htable, hsettings, hinside, hdefined⟩
      exact ⟨⟨inspected_before htext htable, hkept, htable, hinside⟩, hsettings, hdefined⟩
  · obtain ⟨place, hplace, hline, hinside⟩ : ∃ place ∈ placed opensTable none (splitLines text),
        isProviderLine place.2 = true ∧ place.1 ≠ none := by
      simpa only [not_forall, exists_prop] using htop
    rw [fitsTop_of_inside htext hplace hline hinside]
    by_cases hfilter : (splitLines text).filter isProviderLine = [modelProviderLine]
    · obtain ⟨hkept, hadded⟩ := kept_of_inside htext hne (inside_of_filter hfilter hplace hline hinside) hfilter
      rw [hadded, insertedPlaces, hinserted]
      constructor
      · rintro ⟨⟨hinspected, -, hadds⟩, hsettings, hdefined⟩
        exact ⟨⟨hfilter, hinspected⟩, hsettings, hadds, hdefined⟩
      · rintro ⟨⟨-, hinspected⟩, hsettings, hadds, hdefined⟩
        exact ⟨⟨hinspected, hkept, hadds⟩, hsettings, hdefined⟩
    · refine iff_of_false (fun h => hfilter ?_) fun h => hfilter h.1.1
      exact filter_of_kept htext hne hplace hline hinside h.1.2.1

def emptyTextPlaces : List (Option TomlTable × Text) :=
  (none, modelProviderLine) :: (some providerTable, header tightropeProviderSection) ::
    ((tightropeProviderSettings.map settingLine).map fun line => (some providerTable, line)) ++
      [(some providerTable, [])]

theorem editedLines_nil : editedLines [] = modelProviderLine :: (tableLines ++ [[]]) := by
  have hother : isOtherLine modelProviderLine = true := (providerLine_neutral isProviderLine_modelProviderLine).1
  have hfrom : fromSection [modelProviderLine] = [] := by
    rw [fromSection, List.dropWhile_cons_of_pos hother, List.dropWhile_nil]
  have hblank : ([modelProviderLine].getLast?.any fun last => trim last ≠ []) = true := by decide
  have hupdated : updatedLines [] = modelProviderLine :: tableLines := by
    obtain ⟨hup, hafter⟩ := section_of_none hfrom
    have hstart : upsertModelProvider [] = [modelProviderLine] := rfl
    rw [updatedLines, hstart, upsertTightropeProviderSection_eq, hup, hafter, insertedLines, if_pos hfrom,
      if_pos hblank]
    rfl
  have hlast : (modelProviderLine :: tableLines).getLast? ≠ some [] := by decide
  rw [editedLines, hupdated, if_neg hlast, List.cons_append]

theorem emptyText_edited : buildUpdatedConfig [] = join lineFeed (editedLines []) ∧
    splitLines (buildUpdatedConfig []) = editedLines [] := by
  have hends : ∀ line ∈ ([] : List Text), lineFeed ∉ line ∧ carriageReturn ∉ line := nofun
  have hbuild : buildUpdatedConfig [] = join lineFeed (editedLines []) := (join_editedLines hends).symm
  rw [hbuild]
  exact ⟨rfl, splitLines_editedLines hends⟩

theorem idempotent_nil : buildUpdatedConfig (buildUpdatedConfig []) = buildUpdatedConfig [] := by
  obtain ⟨hbuild, hlines⟩ := emptyText_edited
  have hfree := @lineEnds_notMem_editedLines [] nofun
  have hne : buildUpdatedConfig [] ≠ [] := by
    intro hnil
    rw [hnil, editedLines_nil] at hlines
    have hfirst : [] = modelProviderLine := (List.cons.inj hlines).1
    exact absurd hfirst (by decide)
  rw [(buildUpdatedConfig_eq (hlines ▸ fun line hline => (hfree line hline).2) hne).1, hlines, editedLines_editedLines,
    ← hbuild]

theorem emptyText_places : tomlLines (buildUpdatedConfig []) = (none, modelProviderLine) :: (none, []) ::
    (some providerTable, header tightropeProviderSection) ::
      ((tightropeProviderSettings.map settingLine ++ [[]]).map fun line => (some providerTable, line)) := by
  have hneutral : ∀ line ∈ tightropeProviderSettings.map settingLine ++ [[]], opensTable line = none :=
    List.forall_mem_append.mpr ⟨readsTables_opensTable.setting, List.forall_mem_singleton.mpr readsTables_opensTable.blank⟩
  rw [tomlLines, emptyText_edited.2, editedLines_nil, tableLines, List.cons_append, List.cons_append, placed, placed,
    placed, readsTables_opensTable.provider _ isProviderLine_modelProviderLine, readsTables_opensTable.blank,
    readsTables_opensTable.table, placed_of_none hneutral]
  rfl

theorem emptyText_fits : FitsTop (splitLines []) ∧ FitsTable (splitLines []) := by
  have hlines : splitLines [] = [[]] := rfl
  have hfrom : fromSection [[]] = [] := by
    rw [fromSection, List.dropWhile_cons_of_pos isNeutral_nil.1, List.dropWhile_nil]
  have hcount : [[]].countP (fun line => opensTable line = some providerTable) = 0 :=
    countP_eq_zero_of_none fun line hline => List.mem_singleton.mp hline ▸ readsTables_opensTable.blank
  rw [hlines, FitsTable, if_pos hfrom, hcount]
  decide

theorem conservative_nil : Conservative [] := by
  have hkept : keptLines [] = [(none, [])] := by decide
  refine ⟨(configured_editedLines emptyText_edited.2).mpr ⟨rfl, fun key _ => .inl rfl⟩, idempotent_nil, ?_,
    ⟨emptyTextPlaces, ?_, ?_⟩, fun table htwo => ?_⟩
  · rw [hkept, emptyText_places, List.singleton_sublist]
    exact List.mem_cons_of_mem _ List.mem_cons_self
  · rw [hkept, emptyText_places, List.map_append]
    exact .swap _ _ _
  · rw [emptyTextPlaces, List.forall_mem_append, List.forall_mem_cons, List.forall_mem_cons, List.forall_mem_map,
      List.forall_mem_singleton]
    exact ⟨⟨.inr (.inl rfl), .inr (.inr ⟨rfl, .inl rfl⟩), fun line hline => .inr (.inr ⟨rfl, .inr hline⟩)⟩, .inl rfl⟩
  · rw [definitions, emptyText_edited.2, countP_editedLines, List.countP_nil, Nat.zero_add] at htwo
    split_ifs at htwo
    · exact absurd htwo (by decide)
    · exact absurd htwo (by decide)

def plainConfig : Text :=
  join lineFeed ["# settings".toList, "model_provider = \"other\"".toList, [], "[[projects]] # mine".toList,
    "trust = true".toList, "[model_providers.tightrope]".toList, "name = \"mine\"".toList]

def commentedHeader : Text := "[projects] # mine".toList ++ [lineFeed]

end Result

end Tightrope.App
