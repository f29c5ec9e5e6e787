import Tightrope.Db.SqlitePool

namespace Tightrope.Db

open Runs Threads

variable {Row : Type}

section Definitions

namespace PoolPhase

def migrates : PoolPhase Row → Bool
  | sourcing _ | attaching _ _ | exporting _ _ _ | closing _ | staging _ | replacing _ _ | restoring _ _ | cleaning _
  | discarding _ => true
  | _ => false

def betweenRenames : PoolPhase Row → Bool
  | replacing _ _ | restoring _ _ => true
  | _ => false

def holdsCopy : PoolPhase Row → Bool
  | closing _ | staging _ | replacing _ _ => true
  | _ => false

def Careful (s : State (PoolShared Row) (PoolPhase Row)) (moment : PoolMoment Row) : PoolPhase Row → Prop
  | copying => ∀ other ∈ s.threads, other.migrates = false
  | restoring _ _ => moment.fails = false
  | keying => ∀ other ∈ s.threads, other.betweenRenames = false
  | opened file _ => moment.row.isSome = true →
      s.shared.directory.names .database = some file ∧ ∀ other ∈ s.threads, other.holdsCopy = false
  | _ => True

end PoolPhase

/-- A process does not stop between the two renames of a migration. -/
def CarefulStep (s : State (PoolShared Row) (PoolPhase Row)) : PoolAction Row → Prop
  | .crash => ∀ phase ∈ s.threads, phase.betweenRenames = false
  | .act (.spawn _) => True
  | .act (.move i moment) => ∀ phase ∈ s.threads[i]?, phase.Careful s moment

instance (s : State (PoolShared Row) (PoolPhase Row)) (moment : PoolMoment Row) (phase : PoolPhase Row) :
    Decidable (phase.Careful s moment) := by
  cases phase <;> unfold PoolPhase.Careful <;> infer_instance

instance (s : State (PoolShared Row) (PoolPhase Row)) (action : PoolAction Row) : Decidable (CarefulStep s action) := by
  rcases action with (call | ⟨i, moment⟩) | _ <;> unfold CarefulStep <;> infer_instance

def DatabaseFile.Extends (found left : DatabaseFile Row) : Prop :=
  found.rows <:+ left.rows ∧ (found.isPlain = true → left.isPlain = true)

def Unchanged (found left : Option (Snapshot Row)) : Prop :=
  ∀ original ∈ found, ∃ now ∈ left, now.file = original.file ∧ original.content.Extends now.content

/-- An open under the passphrase that returned true lacks no committed row, and a failed migration left the file that it
found. -/
def LosesNothing (shared : PoolShared Row) : Prop :=
  (∀ rows ∈ shared.missing, rows = []) ∧ ∀ pair ∈ shared.refused, Unchanged pair.1 pair.2

end Definitions

section Invariant

def migrating (phase : PoolPhase Row) : ℕ := if phase.migrates then 1 else 0

section Fits

variable (database : Option ℕ) (directory : DatabaseDirectory Row) (committed : List Row)

def Found (migration : Migration Row) : Prop :=
  ∀ original, migration.original = some original →
    database = some original.file ∧ original.content.Extends (directory.contents original.file)

def Written (file : ℕ) : Prop := database = some file ∧ directory.contents file ≠ .empty

def PlainSource : Prop := ∃ file, database = some file ∧ (directory.contents file).isPlain = true

def Copied (migration : Migration Row) : Prop :=
  ∃ copy rows, directory.names (.exported migration.tick) = some copy ∧ directory.contents copy = .encrypted rows ∧
    ∀ row ∈ committed, row ∈ rows

def Staged (backup : ℕ) : Prop := directory.names .database = none ∧ directory.names (.backup backup) = database

def Fits : PoolPhase Row → Prop
  | .asking plaintext => plaintext = true → ∃ file, Written database directory file
  | .copying => ∃ file, Written database directory file
  | .sourcing migration => Found database directory migration ∧ ∃ file, Written database directory file
  | .attaching migration source => Found database directory migration ∧ Written database directory source
  | .exporting migration source encrypted => Found database directory migration ∧ Written database directory source ∧
      directory.names (.exported migration.tick) = some encrypted ∧ directory.contents encrypted = .empty
  | .closing migration | .staging migration =>
      Found database directory migration ∧ PlainSource database directory ∧ Copied directory committed migration
  | .replacing migration backup => Found database directory migration ∧ PlainSource database directory ∧
      Copied directory committed migration ∧ Staged database directory backup
  | .restoring migration backup =>
      Found database directory migration ∧ PlainSource database directory ∧ Staged database directory backup
  | .cleaning migration => Found database directory migration
  | .configuring file =>
      file < directory.next ∧ (database = some file ∨ (directory.contents file).isPlain = true)
  | _ => True

end Fits

structure PoolKept (database : Option ℕ) (s : State (PoolShared Row) (PoolPhase Row)) : Prop where
  exclusive : total migrating s ≤ 1
  live : ∀ file, database = some file → file < s.shared.directory.next
  complete : ∀ row ∈ s.shared.committed, ∃ file, database = some file ∧ row ∈ (s.shared.directory.contents file).rows
  path : (∀ phase ∈ s.threads, phase.betweenRenames = false) → s.shared.directory.names .database = database
  fits : ∀ phase ∈ s.threads, Fits database s.shared.directory s.shared.committed phase
  loses : LosesNothing s.shared

variable {database database' : Option ℕ} {directory directory' : DatabaseDirectory Row}
  {committed committed' : List Row}
  {shared' : PoolShared Row} {phase phase' : PoolPhase Row} {s : State (PoolShared Row) (PoolPhase Row)} {i : ℕ}

theorem betweenRenames_of_migrates (h : phase.migrates = false) : phase.betweenRenames = false := by
  cases phase with
  | replacing migration backup | restoring migration backup => cases h
  | _ => rfl

theorem DatabaseFile.Extends.refl (content : DatabaseFile Row) : content.Extends content := ⟨List.suffix_rfl, id⟩

theorem DatabaseFile.Extends.trans {a b c : DatabaseFile Row} (h : a.Extends b) (h' : b.Extends c) : a.Extends c :=
  ⟨h.1.trans h'.1, fun hplain => h'.2 (h.2 hplain)⟩

theorem fits_of_bystander (hidle : phase.migrates = false) (h : Fits database directory committed phase)
    (hwritten : ∀ file, Written database directory file → ∃ file', Written database' directory' file')
    (hconfiguring : ∀ file < directory.next, database = some file ∨ (directory.contents file).isPlain = true →
      file < directory'.next ∧ (database' = some file ∨ (directory'.contents file).isPlain = true)) :
    Fits database' directory' committed' phase := by
  cases phase with
  | asking plaintext =>
    intro hplain
    obtain ⟨file, hfile⟩ := h hplain
    exact hwritten file hfile
  | copying =>
    obtain ⟨file, hfile⟩ := h
    exact hwritten file hfile
  | configuring file => exact hconfiguring file h.1 h.2
  | setting _ | checking | keying | opened _ _ | finished => trivial
  | _ => cases hidle

section Moves

theorem kept_same (h : PoolKept database s) (hphase : s.threads[i]? = some phase)
    (hweight : total migrating s + migrating phase' ≤ 1 + migrating phase)
    (hbetween : phase'.betweenRenames = false → phase.betweenRenames = false)
    (hmover : Fits database s.shared.directory s.shared.committed phase')
    (hdirectory : shared'.directory = s.shared.directory) (hcommitted : shared'.committed = s.shared.committed)
    (hloses : LosesNothing shared') : PoolKept database ⟨shared', s.threads.set i phase'⟩ where
  exclusive := by
    have htotal := total_set migrating phase' shared' hphase
    omega
  live := by
    rw [hdirectory]
    exact h.live
  complete := by
    rw [hdirectory, hcommitted]
    exact h.complete
  path := by
    intro hnone
    rw [hdirectory]
    apply h.path
    intro other hmem
    obtain rfl | hset := mem_set_of_mem hphase hmem
    · exact hbetween (hnone phase' (List.mem_set (List.getElem?_eq_some_iff.mp hphase).1 phase'))
    · exact hnone other hset
  fits := by
    rw [hdirectory, hcommitted]
    intro other hmem
    obtain hold | rfl := List.mem_or_eq_of_mem_set hmem
    · exact h.fits other hold
    · exact hmover
  loses := hloses

theorem others_idle (h : PoolKept database s) (hphase : s.threads[i]? = some phase) (hmigrates : phase.migrates = true)
    (phase' : PoolPhase Row) :
    ∀ other ∈ s.threads.set i phase', other = phase' ∨ other ∈ s.threads ∧ other.migrates = false := by
  have hone : migrating phase = 1 := by simp [migrating, hmigrates]
  intro other hmem
  obtain heq | ⟨hold, hzero⟩ := weight_of_mem_set hphase (hone ▸ h.exclusive) other hmem
  · exact .inl heq
  · unfold migrating at hzero
    split_ifs at hzero with hother
    exact .inr ⟨hold, Bool.eq_false_iff.mpr hother⟩

theorem kept_alone (h : PoolKept database s) (hphase : s.threads[i]? = some phase) (hmigrates : phase.migrates = true)
    (hlive : ∀ file, database' = some file → file < shared'.directory.next)
    (hcomplete : ∀ row ∈ shared'.committed, ∃ file, database' = some file ∧
      row ∈ (shared'.directory.contents file).rows)
    (hpath : phase'.betweenRenames = false → shared'.directory.names .database = database')
    (hwritten : ∀ file, Written database s.shared.directory file → ∃ file', Written database' shared'.directory file')
    (hconfiguring : ∀ file < s.shared.directory.next,
      database = some file ∨ (s.shared.directory.contents file).isPlain = true →
        file < shared'.directory.next ∧
          (database' = some file ∨ (shared'.directory.contents file).isPlain = true))
    (hmover : Fits database' shared'.directory shared'.committed phase') (hloses : LosesNothing shared') :
    PoolKept database' ⟨shared', s.threads.set i phase'⟩ where
  exclusive := by
    have htotal := total_set migrating phase' shared' hphase
    have hone : migrating phase = 1 := by simp [migrating, hmigrates]
    have hle : migrating phase' ≤ 1 := by
      unfold migrating
      split_ifs <;> omega
    have hexclusive := h.exclusive
    omega
  live := hlive
  complete := hcomplete
  path := fun hnone => hpath (hnone phase' (List.mem_set (List.getElem?_eq_some_iff.mp hphase).1 phase'))
  fits := by
    intro other hmem
    obtain rfl | ⟨hold, hidle⟩ := others_idle h hphase hmigrates phase' other hmem
    · exact hmover
    · exact fits_of_bystander hidle (h.fits other hold) hwritten hconfiguring
  loses := hloses

theorem names_of_alone (h : PoolKept database s) (hphase : s.threads[i]? = some phase)
    (hmigrates : phase.migrates = true)
    (hbetween : phase.betweenRenames = false) : s.shared.directory.names .database = database := by
  apply h.path
  intro other hmem
  obtain rfl | hset := mem_set_of_mem hphase hmem
  · exact hbetween
  · obtain rfl | ⟨-, hidle⟩ := others_idle h hphase hmigrates phase other hset
    · exact hbetween
    · exact betweenRenames_of_migrates hidle

theorem database_of_names {file : ℕ} (h : PoolKept database s)
    (hnames : s.shared.directory.names .database = some file) : database = some file := by
  by_cases hnone : ∀ phase ∈ s.threads, phase.betweenRenames = false
  · exact (h.path hnone).symm.trans hnames
  · simp only [not_forall, Bool.not_eq_false] at hnone
    obtain ⟨phase, hmem, hbetween⟩ := hnone
    have hfits := h.fits phase hmem
    have hmissing : s.shared.directory.names .database = none := by
      cases phase with
      | replacing migration backup => exact hfits.2.2.2.1
      | restoring migration backup => exact hfits.2.2.1
      | _ => cases hbetween
    rw [hmissing] at hnames
    cases hnames

theorem found_snapshot (h : PoolKept database s) (tick : ℕ) :
    Found database s.shared.directory ⟨tick, snapshotOf s.shared.directory⟩ := by
  intro original horiginal
  obtain ⟨file, hnames, rfl⟩ := Option.map_eq_some_iff.mp horiginal
  exact ⟨database_of_names h hnames, .refl _⟩

theorem losesNothing_refuse {original : Option (Snapshot Row)} (h : LosesNothing s.shared)
    (hunchanged : Unchanged original (snapshotOf shared'.directory)) (hmissing : shared'.missing = s.shared.missing)
    (hrefused : shared'.refused = s.shared.refused) : LosesNothing (shared'.refuse original) := by
  constructor
  · exact hmissing ▸ h.1
  · intro pair hpair
    obtain rfl | hpair := List.mem_cons.mp hpair
    · exact hunchanged
    · exact h.2 pair (hrefused ▸ hpair)

theorem kept_copying (h : PoolKept database s) (hphase : s.threads[i]? = some .copying)
    (halone : ∀ other ∈ s.threads, other.migrates = false) :
    PoolKept database ⟨(copyAct s.shared).1, s.threads.set i (copyAct s.shared).2⟩ := by
  have hzero : total migrating s = 0 := by
    apply List.sum_eq_zero
    intro weight hweight
    obtain ⟨other, hmem, rfl⟩ := List.mem_map.mp hweight
    simp [migrating, halone other hmem]
  have hfound := found_snapshot h s.shared.clock
  have hwritten := h.fits _ (List.mem_of_getElem? hphase)
  simp only [copyAct]
  split_ifs
  · refine kept_same h hphase ?_ (fun _ => rfl) ⟨hfound, hwritten⟩ rfl rfl h.loses
    rw [hzero]
    exact le_refl 1
  · refine kept_same h hphase ?_ (fun _ => rfl) trivial rfl rfl ?_
    · rw [hzero]
      exact Nat.zero_le _
    · apply losesNothing_refuse h.loses ?_ rfl rfl
      intro original horiginal
      exact ⟨original, horiginal, rfl, .refl _⟩

theorem kept_sourcing {migration : Migration Row} (h : PoolKept database s)
    (hphase : s.threads[i]? = some (.sourcing migration)) :
    PoolKept database ⟨(sourceAct s.shared migration).1, s.threads.set i (sourceAct s.shared migration).2⟩ := by
  obtain ⟨hfound, file, hwritten⟩ := h.fits _ (List.mem_of_getElem? hphase)
  have hnames := (names_of_alone h hphase rfl rfl).trans hwritten.1
  have hopen := Directory.openFile_of_some DatabaseFile.empty hnames
  have hexclusive := h.exclusive
  simp only [sourceAct, hopen]
  exact kept_same h hphase (Nat.add_le_add_right hexclusive 1) (fun _ => rfl) ⟨hfound, hwritten⟩ rfl rfl h.loses

theorem kept_attaching {migration : Migration Row} {source : ℕ} (h : PoolKept database s)
    (hphase : s.threads[i]? = some (.attaching migration source)) :
    PoolKept database
      ⟨(attachAct s.shared migration source).1, s.threads.set i (attachAct s.shared migration source).2⟩ := by
  obtain ⟨hfound, hwritten⟩ := h.fits _ (List.mem_of_getElem? hphase)
  have hnames := names_of_alone h hphase rfl rfl
  have hsame : ∀ file < s.shared.directory.next,
      (s.shared.directory.create (.exported migration.tick) .empty).contents file = s.shared.directory.contents file :=
    fun file hlt => Directory.contents_create_of_lt hlt
  have hkept : ∀ file, Written database s.shared.directory file →
      Written database (s.shared.directory.create (.exported migration.tick) .empty) file := by
    rintro file ⟨hdatabase, hne⟩
    exact ⟨hdatabase, by rwa [hsame file (h.live file hdatabase)]⟩
  refine kept_alone h hphase rfl ?_ ?_ ?_ ?_ ?_ ?_ h.loses
  · intro file hfile
    exact Nat.lt_succ_of_lt (h.live file hfile)
  · intro row hrow
    obtain ⟨file, hfile, hmem⟩ := h.complete row hrow
    refine ⟨file, hfile, ?_⟩
    change row ∈ ((s.shared.directory.create (.exported migration.tick) .empty).contents file).rows
    rwa [hsame file (h.live file hfile)]
  · intro _
    refine (Directory.names_create_of_ne ?_).trans hnames
    exact nofun
  · intro file hfile
    exact ⟨file, hkept file hfile⟩
  · intro file hlt hfile
    refine ⟨Nat.lt_succ_of_lt hlt, hfile.imp_right fun hplain => ?_⟩
    change ((s.shared.directory.create (.exported migration.tick) .empty).contents file).isPlain = true
    rwa [hsame file hlt]
  · refine ⟨?_, hkept source hwritten, Directory.names_create_self, Directory.contents_create_next⟩
    intro original horiginal
    obtain ⟨hdatabase, hextends⟩ := hfound original horiginal
    refine ⟨hdatabase, ?_⟩
    change original.content.Extends
      ((s.shared.directory.create (.exported migration.tick) .empty).contents original.file)
    rwa [hsame original.file (h.live original.file hdatabase)]

theorem isPlain_of_written {content : DatabaseFile Row} (hne : content ≠ .empty) (hkey : ¬ content.isEncrypted = true) :
    content.isPlain = true := by
  cases content with
  | empty => exact absurd rfl hne
  | plain rows => rfl
  | encrypted rows => exact absurd rfl hkey

theorem kept_exporting {migration : Migration Row} {source encrypted : ℕ} (h : PoolKept database s)
    (hphase : s.threads[i]? = some (.exporting migration source encrypted)) :
    PoolKept database
      ⟨(exportAct s.shared migration source encrypted).1,
        s.threads.set i (exportAct s.shared migration source encrypted).2⟩ := by
  obtain ⟨hfound, hwritten, hcopy, hempty⟩ := h.fits _ (List.mem_of_getElem? hphase)
  have hnames := names_of_alone h hphase rfl rfl
  simp only [exportAct]
  split_ifs with hkey
  · exact kept_same h hphase (Nat.add_le_add_right h.exclusive 1) (fun _ => rfl) hfound rfl rfl h.loses
  have hplain := isPlain_of_written hwritten.2 hkey
  -- The copy is empty and the files that the calls know are not.
  have hsame : ∀ file, s.shared.directory.contents file ≠ .empty → ∀ content,
      (s.shared.directory.write encrypted content).contents file = s.shared.directory.contents file := by
    intro file hne content
    refine Directory.contents_write_of_ne ?_
    rintro rfl
    exact hne hempty
  have hnonempty : ∀ file, database = some file → s.shared.directory.contents file ≠ .empty := by
    intro file hfile
    obtain rfl := Option.some.inj (hwritten.1.symm.trans hfile)
    exact hwritten.2
  refine kept_alone h hphase rfl h.live ?_ (fun _ => hnames) ?_ ?_ ⟨?_, ⟨source, hwritten.1, ?_⟩, ?_⟩ h.loses
  · intro row hrow
    obtain ⟨file, hfile, hmem⟩ := h.complete row hrow
    exact ⟨file, hfile, by rwa [hsame file (hnonempty file hfile)]⟩
  · intro file hfile
    exact ⟨file, hfile.1, by rw [hsame file hfile.2]; exact hfile.2⟩
  · intro file hlt hfile
    refine ⟨hlt, hfile.imp_right fun hplain => ?_⟩
    rwa [hsame file fun hnone => by rw [hnone] at hplain; cases hplain]
  · intro original horiginal
    obtain ⟨hdatabase, hextends⟩ := hfound original horiginal
    exact ⟨hdatabase, by rwa [hsame original.file (hnonempty original.file hdatabase)]⟩
  · rwa [hsame source hwritten.2]
  · refine ⟨encrypted, _, hcopy, Directory.contents_write_self, ?_⟩
    intro row hrow
    obtain ⟨file, hfile, hmem⟩ := h.complete row hrow
    obtain rfl := Option.some.inj (hwritten.1.symm.trans hfile)
    exact hmem

theorem kept_staging {migration : Migration Row} (h : PoolKept database s)
    (hphase : s.threads[i]? = some (.staging migration)) :
    PoolKept database ⟨(stageAct s.shared migration).1, s.threads.set i (stageAct s.shared migration).2⟩ := by
  obtain ⟨hfound, hplain, copy, rows, hcopy, hcontent, hrows⟩ := h.fits _ (List.mem_of_getElem? hphase)
  have hnames := names_of_alone h hphase rfl rfl
  unfold stageAct
  split_ifs
  · refine kept_alone h hphase rfl h.live h.complete nofun (fun file hfile => ⟨file, hfile⟩)
      (fun file hlt hfile => ⟨hlt, hfile⟩) ⟨hfound, hplain, ⟨copy, rows, ?_, hcontent, hrows⟩, ?_, ?_⟩ h.loses
    · refine (Directory.names_rename_of_ne ?_ ?_).trans hcopy <;> exact nofun
    · refine Directory.names_rename_source ?_
      exact nofun
    · exact Directory.names_rename_target.trans hnames
  · exact kept_same h hphase (Nat.add_le_add_right h.exclusive 1) (fun _ => rfl) hfound rfl rfl h.loses

theorem kept_replacing {migration : Migration Row} {backup : ℕ} (h : PoolKept database s)
    (hphase : s.threads[i]? = some (.replacing migration backup)) : ∃ database', PoolKept database'
      ⟨(replaceSource s.shared migration backup).1, s.threads.set i (replaceSource s.shared migration backup).2⟩ := by
  obtain ⟨-, ⟨source, hsource, hplain⟩, ⟨copy, rows, hcopy, hcontent, hrows⟩, -⟩ :=
    h.fits _ (List.mem_of_getElem? hphase)
  have hsome : (s.shared.directory.names (.exported migration.tick)).isSome = true := by rw [hcopy]; rfl
  simp only [replaceSource, hsome, if_true]
  refine ⟨some copy, kept_alone h hphase rfl ?_ ?_ ?_ ?_ ?_ trivial h.loses⟩
  · rintro file ⟨⟩
    exact s.shared.directory.bound _ copy hcopy
  · intro row hrow
    refine ⟨copy, rfl, ?_⟩
    change row ∈ (s.shared.directory.contents copy).rows
    rw [hcontent]
    exact hrows row hrow
  · intro _
    exact Directory.names_rename_target.trans hcopy
  · intro file hfile
    refine ⟨copy, rfl, ?_⟩
    change s.shared.directory.contents copy ≠ .empty
    rw [hcontent]
    exact nofun
  · intro file hlt hfile
    refine ⟨hlt, .inr ?_⟩
    obtain hdatabase | hfile := hfile
    · obtain rfl := Option.some.inj (hsource.symm.trans hdatabase)
      exact hplain
    · exact hfile

theorem kept_restoring {migration : Migration Row} {backup : ℕ} (h : PoolKept database s)
    (hphase : s.threads[i]? = some (.restoring migration backup)) :
    PoolKept database
      ⟨(restoreAct s.shared migration backup).1, s.threads.set i (restoreAct s.shared migration backup).2⟩ := by
  obtain ⟨hfound, ⟨source, hsource, -⟩, -, hbackup⟩ := h.fits _ (List.mem_of_getElem? hphase)
  have hsome : (s.shared.directory.names (.backup backup)).isSome = true := by rw [hbackup, hsource]; rfl
  simp only [restoreAct, hsome, if_true]
  refine kept_alone h hphase rfl h.live h.complete ?_ (fun file hfile => ⟨file, hfile⟩)
    (fun file hlt hfile => ⟨hlt, hfile⟩) hfound h.loses
  intro _
  exact Directory.names_rename_target.trans hbackup

theorem unchanged_of_found {migration : Migration Row} (hfound : Found database directory migration)
    (hnames : directory.names .database = database) : Unchanged migration.original (snapshotOf directory) := by
  intro original horiginal
  obtain ⟨hdatabase, hextends⟩ := hfound original horiginal
  refine ⟨⟨original.file, directory.contents original.file⟩, ?_, rfl, hextends⟩
  exact Option.map_eq_some_iff.mpr ⟨original.file, hnames.trans hdatabase, rfl⟩

theorem kept_removed (h : PoolKept database s) (hphase : s.threads[i]? = some phase) (hmigrates : phase.migrates = true)
    (hbetween : phase.betweenRenames = false) (hcommitted : shared'.committed = s.shared.committed)
    (hcontents : shared'.directory.contents = s.shared.directory.contents)
    (hnext : shared'.directory.next = s.shared.directory.next)
    (hnames : shared'.directory.names .database = s.shared.directory.names .database)
    (hmover : Fits database shared'.directory shared'.committed phase') (hloses : LosesNothing shared') :
    PoolKept database ⟨shared', s.threads.set i phase'⟩ := by
  refine kept_alone h hphase hmigrates ?_ ?_ ?_ ?_ ?_ hmover hloses
  · rw [hnext]
    exact h.live
  · rw [hcommitted, hcontents]
    exact h.complete
  · intro _
    exact hnames.trans (names_of_alone h hphase hmigrates hbetween)
  · intro file hfile
    exact ⟨file, hfile.1, by rw [hcontents]; exact hfile.2⟩
  · intro file hlt hfile
    rw [hnext, hcontents]
    exact ⟨hlt, hfile⟩

theorem kept_cleaning {migration : Migration Row} (h : PoolKept database s)
    (hphase : s.threads[i]? = some (.cleaning migration)) (moment : PoolMoment Row) :
    PoolKept database
      ⟨(cleanAct s.shared migration moment).1, s.threads.set i (cleanAct s.shared migration moment).2⟩ := by
  have hfound := h.fits _ (List.mem_of_getElem? hphase)
  have hnames := names_of_alone h hphase rfl rfl
  simp only [cleanAct]
  split_ifs
  · exact kept_removed h hphase rfl rfl rfl rfl rfl rfl trivial
      (losesNothing_refuse h.loses (unchanged_of_found hfound hnames) rfl rfl)
  · have hkept : (s.shared.directory.remove (.exported migration.tick)).names .database =
        s.shared.directory.names .database := by
      refine Directory.names_remove_of_ne ?_
      exact nofun
    exact kept_removed h hphase rfl rfl rfl rfl rfl hkept trivial
      (losesNothing_refuse h.loses (unchanged_of_found hfound (hkept.trans hnames)) rfl rfl)

theorem kept_discarding {backup : ℕ} (h : PoolKept database s) (hphase : s.threads[i]? = some (.discarding backup))
    (moment : PoolMoment Row) : PoolKept database ⟨discardAct s.shared backup moment, s.threads.set i .keying⟩ := by
  unfold discardAct
  split_ifs
  · exact kept_removed h hphase rfl rfl rfl rfl rfl rfl trivial h.loses
  · refine kept_removed h hphase rfl rfl rfl rfl rfl ?_ trivial h.loses
    refine Directory.names_remove_of_ne ?_
    exact nofun

section Grown

variable {file : ℕ} {content : DatabaseFile Row}

theorem written_grown {other : ℕ} (hdatabase : database = some file) (hne : content ≠ .empty)
    (h : Written database directory other) : Written database (directory.write file content) other := by
  obtain rfl := Option.some.inj (hdatabase.symm.trans h.1)
  exact ⟨hdatabase, by rwa [Directory.contents_write_self]⟩

theorem found_grown {migration : Migration Row} (hdatabase : database = some file)
    (hextends : (directory.contents file).Extends content) (h : Found database directory migration) :
    Found database (directory.write file content) migration := by
  intro original horiginal
  obtain ⟨hfile, hfound⟩ := h original horiginal
  obtain rfl := Option.some.inj (hdatabase.symm.trans hfile)
  exact ⟨hfile, by rw [Directory.contents_write_self]; exact hfound.trans hextends⟩

theorem plainSource_grown (hdatabase : database = some file) (hextends : (directory.contents file).Extends content)
    (h : PlainSource database directory) : PlainSource database (directory.write file content) := by
  obtain ⟨source, hsource, hplain⟩ := h
  obtain rfl := Option.some.inj (hdatabase.symm.trans hsource)
  exact ⟨file, hsource, by rw [Directory.contents_write_self]; exact hextends.2 hplain⟩

theorem copied_grown {migration : Migration Row} (hdatabase : database = some file)
    (hplain : PlainSource database directory) (h : Copied directory committed migration) :
    Copied (directory.write file content) committed migration := by
  obtain ⟨source, hsource, hplain⟩ := hplain
  obtain rfl := Option.some.inj (hdatabase.symm.trans hsource)
  obtain ⟨copy, rows, hcopy, hcontent, hrows⟩ := h
  refine ⟨copy, rows, hcopy, ?_, hrows⟩
  rw [Directory.contents_write_of_ne]
  · exact hcontent
  · rintro rfl
    rw [hcontent] at hplain
    cases hplain

theorem fits_grown (hdatabase : database = some file) (hextends : (directory.contents file).Extends content)
    (hne : content ≠ .empty) (hcommitted : committed' = committed ∨ phase.holdsCopy = false)
    (h : Fits database directory committed phase) : Fits database (directory.write file content) committed' phase := by
  cases phase with
  | asking plaintext =>
    intro hplain
    obtain ⟨other, hother⟩ := h hplain
    exact ⟨other, written_grown hdatabase hne hother⟩
  | copying =>
    obtain ⟨other, hother⟩ := h
    exact ⟨other, written_grown hdatabase hne hother⟩
  | sourcing migration =>
    obtain ⟨hfound, other, hother⟩ := h
    exact ⟨found_grown hdatabase hextends hfound, other, written_grown hdatabase hne hother⟩
  | attaching migration source =>
    exact ⟨found_grown hdatabase hextends h.1, written_grown hdatabase hne h.2⟩
  | exporting migration source encrypted =>
    obtain ⟨hfound, hwritten, hcopy, hempty⟩ := h
    refine ⟨found_grown hdatabase hextends hfound, written_grown hdatabase hne hwritten, hcopy, ?_⟩
    rw [Directory.contents_write_of_ne]
    · exact hempty
    · rintro rfl
      obtain rfl := Option.some.inj (hdatabase.symm.trans hwritten.1)
      exact hwritten.2 hempty
  | closing migration | staging migration =>
    obtain rfl | hidle := hcommitted
    · exact ⟨found_grown hdatabase hextends h.1, plainSource_grown hdatabase hextends h.2.1,
        copied_grown hdatabase h.2.1 h.2.2⟩
    · cases hidle
  | replacing migration backup =>
    obtain rfl | hidle := hcommitted
    · exact ⟨found_grown hdatabase hextends h.1, plainSource_grown hdatabase hextends h.2.1,
        copied_grown hdatabase h.2.1 h.2.2.1, h.2.2.2⟩
    · cases hidle
  | restoring migration backup =>
    exact ⟨found_grown hdatabase hextends h.1, plainSource_grown hdatabase hextends h.2.1, h.2.2⟩
  | cleaning migration => exact found_grown hdatabase hextends h
  | configuring other =>
    refine ⟨h.1, h.2.imp_right fun hplain => ?_⟩
    by_cases hother : other = file
    · subst hother
      rw [Directory.contents_write_self]
      exact hextends.2 hplain
    · rwa [Directory.contents_write_of_ne hother]
  | _ => trivial

end Grown

theorem exclusive_of_idle (h : PoolKept database s) (hphase : s.threads[i]? = some phase)
    (hidle' : phase'.migrates = false) (shared' : PoolShared Row) :
    total migrating ⟨shared', s.threads.set i phase'⟩ ≤ 1 := by
  have htotal := total_set migrating phase' shared' hphase
  have hexclusive := h.exclusive
  have hzero : migrating phase' = 0 := by simp [migrating, hidle']
  omega

theorem kept_grown {file : ℕ} {content : DatabaseFile Row} (h : PoolKept database s)
    (hphase : s.threads[i]? = some phase) (hidle : phase.migrates = false) (hidle' : phase'.migrates = false)
    (hmover : ∀ directory committed, Fits database directory committed phase') (hdatabase : database = some file)
    (hextends : (s.shared.directory.contents file).Extends content) (hne : content ≠ .empty)
    (hdirectory : shared'.directory = s.shared.directory.write file content)
    (hcommitted : shared'.committed = s.shared.committed ∨ ∀ other ∈ s.threads, other.holdsCopy = false)
    (hrows : ∀ row ∈ shared'.committed, row ∈ s.shared.committed ∨ row ∈ content.rows) (hloses : LosesNothing shared') :
    PoolKept database ⟨shared', s.threads.set i phase'⟩ where
  exclusive := exclusive_of_idle h hphase hidle' shared'
  live := by
    rw [hdirectory]
    exact h.live
  complete := by
    intro row hrow
    refine ⟨file, hdatabase, ?_⟩
    rw [hdirectory, Directory.contents_write_self]
    obtain hold | hnew := hrows row hrow
    · obtain ⟨other, hother, hmem⟩ := h.complete row hold
      obtain rfl := Option.some.inj (hdatabase.symm.trans hother)
      exact hextends.1.subset hmem
    · exact hnew
  path := by
    intro hnone
    rw [hdirectory]
    apply h.path
    intro other hmem
    obtain rfl | hset := mem_set_of_mem hphase hmem
    · exact betweenRenames_of_migrates hidle
    · exact hnone other hset
  fits := by
    rw [hdirectory]
    intro other hmem
    obtain hold | rfl := List.mem_or_eq_of_mem_set hmem
    · exact fits_grown hdatabase hextends hne (hcommitted.imp_right fun hnone => hnone other hold) (h.fits other hold)
    · exact hmover _ _
  loses := hloses

theorem fits_created {content : DatabaseFile Row} (h : Fits none directory committed phase) :
    Fits database (directory.create .database content) committed phase := by
  have hfound : ∀ migration, Found none directory migration →
      Found database (directory.create .database content) migration := by
    intro migration hfound original horiginal
    cases (hfound original horiginal).1
  have hwritten : ∀ file, ¬ Written none directory file := fun file hfile => by cases hfile.1
  have hplain : ¬ PlainSource none directory := fun ⟨file, hfile, _⟩ => by cases hfile
  cases phase with
  | asking plaintext =>
    intro heq
    obtain ⟨file, hfile⟩ := h heq
    exact absurd hfile (hwritten file)
  | copying =>
    obtain ⟨file, hfile⟩ := h
    exact absurd hfile (hwritten file)
  | sourcing migration =>
    obtain ⟨-, file, hfile⟩ := h
    exact absurd hfile (hwritten file)
  | attaching migration source => exact absurd h.2 (hwritten source)
  | exporting migration source encrypted => exact absurd h.2.1 (hwritten source)
  | closing migration | staging migration => exact absurd h.2.1 hplain
  | replacing migration backup | restoring migration backup => exact absurd h.2.1 hplain
  | cleaning migration => exact hfound migration h
  | configuring file =>
    refine ⟨Nat.lt_succ_of_lt h.1, .inr ?_⟩
    obtain hnone | hfile := h.2
    · cases hnone
    · rwa [Directory.contents_create_of_lt h.1]
  | _ => trivial

theorem kept_keying (h : PoolKept database s) (hphase : s.threads[i]? = some .keying)
    (hbetween : ∀ other ∈ s.threads, other.betweenRenames = false) :
    ∃ database', PoolKept database' ⟨(keyAct s.shared).1, s.threads.set i (keyAct s.shared).2⟩ := by
  have hpath := h.path hbetween
  cases hdatabase : database with
  | some file =>
    have hopen := Directory.openFile_of_some DatabaseFile.empty (hpath.trans hdatabase)
    simp only [keyAct, hopen]
    exact ⟨database, kept_same h hphase (Nat.add_le_add_right h.exclusive 0) (fun _ => rfl)
      ⟨h.live file hdatabase, .inl hdatabase⟩ rfl rfl h.loses⟩
  | none =>
    subst hdatabase
    have hopen := Directory.openFile_of_none DatabaseFile.empty hpath
    simp only [keyAct, hopen]
    refine ⟨some s.shared.directory.next, ?_, ?_, ?_, ?_, ?_, h.loses⟩
    · exact exclusive_of_idle h hphase rfl _
    · rintro file ⟨⟩
      exact Nat.lt_succ_self _
    · intro row hrow
      obtain ⟨file, hfile, -⟩ := h.complete row hrow
      cases hfile
    · intro _
      exact Directory.names_create_self
    · intro other hmem
      obtain hold | rfl := List.mem_or_eq_of_mem_set hmem
      · exact fits_created (h.fits other hold)
      · exact ⟨Nat.lt_succ_self _, .inl rfl⟩

theorem extends_firstPage (keyed : Bool) (content : DatabaseFile Row) :
    content.Extends (content.firstPage keyed) ∧ content.firstPage keyed ≠ .empty := by
  cases content with
  | empty => cases keyed <;> exact ⟨⟨List.suffix_rfl, nofun⟩, nofun⟩
  | plain rows => exact ⟨.refl _, nofun⟩
  | encrypted rows => exact ⟨.refl _, nofun⟩

theorem extends_insert {keyed : Bool} {row : Row} {content content' : DatabaseFile Row}
    (h : content.insert keyed row = some content') :
    content.Extends content' ∧ content' ≠ .empty ∧ content'.rows = row :: content.rows := by
  cases content with
  | empty => cases h
  | plain rows =>
    cases keyed with
    | false =>
      obtain rfl := Option.some.inj h
      exact ⟨⟨List.suffix_cons _ _, fun _ => rfl⟩, nofun, rfl⟩
    | true => cases h
  | encrypted rows =>
    cases keyed with
    | false => cases h
    | true =>
      obtain rfl := Option.some.inj h
      exact ⟨⟨List.suffix_cons _ _, nofun⟩, nofun, rfl⟩

theorem kept_opened {file : ℕ} {keyed : Bool} (h : PoolKept database s)
    (hphase : s.threads[i]? = some (.opened file keyed)) (row : Row)
    (hnames : s.shared.directory.names .database = some file) (hcopies : ∀ other ∈ s.threads, other.holdsCopy = false) :
    PoolKept database ⟨commitAct s.shared file keyed row, s.threads.set i (.opened file keyed)⟩ := by
  unfold commitAct
  split
  · exact kept_same h hphase (Nat.add_le_add_right h.exclusive 0) (fun _ => rfl) trivial rfl rfl h.loses
  · rename_i content hcontent
    obtain ⟨hextends, hne, hrows⟩ := extends_insert hcontent
    refine kept_grown h hphase rfl rfl (fun _ _ => trivial) (database_of_names h hnames) hextends hne rfl
      (.inr hcopies) ?_ h.loses
    intro other hother
    obtain rfl | hother := List.mem_cons.mp hother
    · exact .inr (by rw [hrows]; exact List.mem_cons_self)
    · exact .inl hother

-- A step of a migration that fails leaves the files to the clean-up.
theorem kept_unless_fails {migration : Migration Row} {fails : Bool} {moved : PoolShared Row × PoolPhase Row}
    (h : PoolKept database s) (hphase : s.threads[i]? = some phase) (hmigrates : phase.migrates = true)
    (hbetween : phase.betweenRenames = false) (hfound : Found database s.shared.directory migration)
    (hmoved : PoolKept database ⟨moved.1, s.threads.set i moved.2⟩) :
    PoolKept database ⟨(if fails then (s.shared, .cleaning migration) else moved).1,
      s.threads.set i (if fails then (s.shared, .cleaning migration) else moved).2⟩ := by
  split_ifs
  · refine kept_same h hphase ?_ (fun _ => hbetween) hfound rfl rfl h.loses
    have hweight : migrating phase = 1 := by simp [migrating, hmigrates]
    rw [hweight]
    exact Nat.add_le_add_right h.exclusive 1
  · exact hmoved

theorem kept_waiting (h : PoolKept database s) (hphase : s.threads[i]? = some phase)
    (hidle : phase.migrates = false) (hidle' : phase'.migrates = false)
    (hmover : Fits database s.shared.directory s.shared.committed phase') :
    PoolKept database ⟨s.shared, s.threads.set i phase'⟩ := by
  refine kept_same h hphase ?_ (fun _ => betweenRenames_of_migrates hidle) hmover rfl rfl h.loses
  have hzero : migrating phase' = 0 := by simp [migrating, hidle']
  rw [hzero]
  exact Nat.le_add_right_of_le h.exclusive

variable [DecidableEq Row]

theorem kept_configuring {file : ℕ} (h : PoolKept database s) (hphase : s.threads[i]? = some (.configuring file)) :
    PoolKept database ⟨(configureAct s.shared file).1, s.threads.set i (configureAct s.shared file).2⟩ := by
  obtain ⟨-, hfile⟩ := h.fits _ (List.mem_of_getElem? hphase)
  have hweight := Nat.add_le_add_right h.exclusive 0
  simp only [configureAct]
  split_ifs with hkey hplain
  · exact kept_same h hphase hweight (fun _ => rfl) trivial rfl rfl h.loses
  · have hdatabase := hfile.resolve_right hplain
    obtain ⟨hextends, hne⟩ := extends_firstPage s.shared.passphrase (s.shared.directory.contents file)
    refine kept_grown h hphase rfl rfl (fun _ _ => trivial) hdatabase hextends hne rfl (.inl rfl)
      (fun _ hrow => .inl hrow) ⟨?_, h.loses.2⟩
    intro rows hrows
    obtain rfl | hrows := List.mem_cons.mp hrows
    · rw [List.filter_eq_nil_iff]
      intro row hrow
      obtain ⟨other, hother, hmem⟩ := h.complete row hrow
      obtain rfl := Option.some.inj (hdatabase.symm.trans hother)
      simpa using hmem
    · exact h.loses.1 rows hrows
  · obtain hdatabase | hplain := hfile
    · obtain ⟨hextends, hne⟩ := extends_firstPage s.shared.passphrase (s.shared.directory.contents file)
      exact kept_grown h hphase rfl rfl (fun _ _ => trivial) hdatabase hextends hne rfl (.inl rfl)
        (fun _ hrow => .inl hrow) h.loses
    · have hfirst : (s.shared.directory.contents file).firstPage s.shared.passphrase =
          s.shared.directory.contents file := by
        cases hcontent : s.shared.directory.contents file with
        | plain rows => rfl
        | _ => simp [hcontent, DatabaseFile.isPlain] at hplain
      refine kept_same h hphase hweight (fun _ => rfl) trivial ?_ rfl h.loses
      rw [hfirst, Directory.write_contents]

-- The thread that moves is inside a migration.
theorem kept_move_of_migrates {moment : PoolMoment Row} (h : PoolKept database s)
    (hphase : s.threads[i]? = some phase) (hmigrates : phase.migrates = true) (hcareful : phase.Careful s moment) :
    ∃ database',
      PoolKept database' ⟨(poolAct s.shared phase moment).1, s.threads.set i (poolAct s.shared phase moment).2⟩ := by
  have hfits := h.fits phase (List.mem_of_getElem? hphase)
  have hone := Nat.add_le_add_right h.exclusive 1
  cases phase with
  | sourcing migration => exact ⟨database, kept_unless_fails h hphase rfl rfl hfits.1 (kept_sourcing h hphase)⟩
  | attaching migration source => exact ⟨database, kept_unless_fails h hphase rfl rfl hfits.1 (kept_attaching h hphase)⟩
  | exporting migration source encrypted =>
    exact ⟨database, kept_unless_fails h hphase rfl rfl hfits.1 (kept_exporting h hphase)⟩
  | closing migration =>
    refine ⟨database, ?_⟩
    simp only [poolAct]
    split_ifs
    · exact kept_same h hphase hone (fun _ => rfl) hfits.1 rfl rfl h.loses
    · exact kept_same h hphase hone (fun _ => rfl) hfits rfl rfl h.loses
  | staging migration => exact ⟨database, kept_unless_fails h hphase rfl rfl hfits.1 (kept_staging h hphase)⟩
  | replacing migration backup =>
    simp only [poolAct]
    split_ifs
    · exact ⟨database, kept_same h hphase hone nofun ⟨hfits.1, hfits.2.1, hfits.2.2.2⟩ rfl rfl h.loses⟩
    · exact kept_replacing h hphase
  | restoring migration backup =>
    have hrenames : moment.fails = false := hcareful
    simp only [poolAct, hrenames, Bool.false_eq_true, if_false]
    exact ⟨database, kept_restoring h hphase⟩
  | cleaning migration => exact ⟨database, kept_cleaning h hphase moment⟩
  | discarding backup => exact ⟨database, kept_discarding h hphase moment⟩
  | _ => cases hmigrates

theorem kept_move_of_idle {moment : PoolMoment Row} (h : PoolKept database s)
    (hphase : s.threads[i]? = some phase) (hidle : phase.migrates = false) (hcareful : phase.Careful s moment) :
    ∃ database',
      PoolKept database' ⟨(poolAct s.shared phase moment).1, s.threads.set i (poolAct s.shared phase moment).2⟩ := by
  have hfits := h.fits phase (List.mem_of_getElem? hphase)
  cases phase with
  | setting given =>
    have hweight := Nat.add_le_add_right h.exclusive 0
    exact ⟨database, kept_same h hphase hweight (fun _ => rfl) trivial rfl rfl h.loses⟩
  | checking =>
    refine ⟨database, kept_waiting h hphase rfl rfl ?_⟩
    intro hplain
    simp only [looksPlaintext, Directory.file?, Option.any_map, Option.any_eq_true] at hplain
    obtain ⟨file, hnames, hplain⟩ := hplain
    refine ⟨file, database_of_names h hnames, ?_⟩
    intro hempty
    simp [hempty, DatabaseFile.isPlain] at hplain
  | asking plaintext =>
    refine ⟨database, ?_⟩
    simp only [poolAct]
    split_ifs with hmigrate
    · exact kept_waiting h hphase rfl rfl (hfits (Bool.and_eq_true_iff.mp hmigrate).1)
    · exact kept_waiting h hphase rfl rfl trivial
  | copying => exact ⟨database, kept_copying h hphase hcareful⟩
  | keying =>
    simp only [poolAct]
    split_ifs
    · exact ⟨database, kept_waiting h hphase rfl rfl trivial⟩
    · exact kept_keying h hphase hcareful
  | configuring file =>
    refine ⟨database, ?_⟩
    simp only [poolAct]
    split_ifs
    · exact kept_waiting h hphase rfl rfl trivial
    · exact kept_configuring h hphase
  | opened file keyed =>
    refine ⟨database, ?_⟩
    simp only [poolAct]
    split_ifs
    · exact kept_waiting h hphase rfl rfl trivial
    · cases hrow : moment.row with
      | none => exact kept_waiting h hphase rfl rfl trivial
      | some row =>
        obtain ⟨hnames, hcopies⟩ := hcareful (by rw [hrow]; rfl)
        exact kept_opened h hphase row hnames hcopies
  | finished => exact ⟨database, kept_waiting h hphase rfl rfl trivial⟩
  | _ => cases hidle

theorem kept_move {moment : PoolMoment Row} (h : PoolKept database s) (hphase : s.threads[i]? = some phase)
    (hcareful : phase.Careful s moment) : ∃ database',
      PoolKept database' ⟨(poolAct s.shared phase moment).1, s.threads.set i (poolAct s.shared phase moment).2⟩ := by
  cases hmigrates : phase.migrates with
  | true => exact kept_move_of_migrates h hphase hmigrates hcareful
  | false => exact kept_move_of_idle h hphase hmigrates hcareful

theorem kept_step {action : PoolAction Row} (h : PoolKept database s) (hcareful : CarefulStep s action) :
    ∃ database', PoolKept database' (poolStep s action) := by
  cases action with
  | act action =>
    simp only [poolStep]
    obtain ⟨call, rfl, hstep⟩ | ⟨i, moment, rfl, hnone, hstep⟩ | ⟨i, moment, phase, rfl, hphase, hstep⟩ :=
      step_cases PoolCall.begin poolAct s action
    · rw [hstep]
      refine ⟨database, ?_, h.live, h.complete, ?_, ?_, h.loses⟩
      · rw [total_append]
        have hbegin : migrating (call.begin : PoolPhase Row) = 0 := by cases call <;> rfl
        have hexclusive := h.exclusive
        omega
      · intro hnone
        exact h.path fun other hmem => hnone other (List.mem_append_left _ hmem)
      · intro other hmem
        obtain hold | hnew := List.mem_append.mp hmem
        · exact h.fits other hold
        · rw [List.mem_singleton.mp hnew]
          cases call <;> trivial
    · rw [hstep]
      exact ⟨database, h⟩
    · rw [hstep]
      exact kept_move h hphase (hcareful phase hphase)
  | crash => exact ⟨database, Nat.zero_le 1, h.live, h.complete, fun _ => h.path hcareful, nofun, h.loses⟩

end Moves

end Invariant

section Runs

def PoolShared.initial (directory : DatabaseDirectory Row) : State (PoolShared Row) (PoolPhase Row) :=
  ⟨{ directory := directory, committed := ((directory.file? .database).map DatabaseFile.rows).getD [] }, []⟩

theorem poolKept_initial (directory : DatabaseDirectory Row) :
    PoolKept (directory.names .database) (PoolShared.initial directory) where
  exclusive := Nat.zero_le 1
  live := directory.bound .database
  complete := by
    intro row hrow
    cases hnames : directory.names .database with
    | none => simp [PoolShared.initial, Directory.file?, hnames] at hrow
    | some file => exact ⟨file, rfl, by simpa [PoolShared.initial, Directory.file?, hnames] using hrow⟩
  path := fun _ => rfl
  fits := nofun
  loses := ⟨nofun, nofun⟩

/-- In every run of careful steps, from every directory, an open under the passphrase that returns true gives every row
committed before, and a failed migration leaves the file that it found at the path. -/
theorem open_gives_every_row [DecidableEq Row] (directory : DatabaseDirectory Row) {actions : List (PoolAction Row)}
    (hactions : AllSteps poolStep CarefulStep (PoolShared.initial directory) actions) :
    AllStates poolStep (fun s => LosesNothing s.shared) (PoolShared.initial directory) actions := by
  have hkept : AllStates poolStep (fun s => ∃ database, PoolKept database s) (PoolShared.initial directory)
      actions := by
    apply allStates_of_step poolStep ?_ ⟨_, poolKept_initial directory⟩ hactions
    rintro s action ⟨database, h⟩ hcareful
    exact kept_step h hcareful
  apply hkept.mono
  rintro s ⟨database, h⟩
  exact h.loses

def poolMoves (thread : ℕ) (moments : List (PoolMoment ℕ)) : List (PoolAction ℕ) :=
  moments.map fun moment => .act (.move thread moment)

def plainDirectory : DatabaseDirectory ℕ := (Directory.empty .empty).create .database (.plain [1])

def unlock (thread : ℕ) : List (PoolAction ℕ) := .act (.spawn (.setSessionPassphrase true)) :: poolMoves thread [{}]

def opening (thread steps : ℕ) : List (PoolAction ℕ) :=
  .act (.spawn .openPool) :: poolMoves thread (List.replicate steps {})

theorem migration_gives_every_row : AllStates poolStep (fun s => LosesNothing s.shared)
    (PoolShared.initial plainDirectory)
    (opening 0 4 ++ poolMoves 0 [{ row := some 2 }] ++ unlock 1 ++ opening 2 12 ++ poolMoves 2 [{ row := some 3 }] ++
      [.crash] ++ unlock 0 ++ opening 1 4) := by
  apply open_gives_every_row
  decide +kernel

theorem stopped_migration_loses_the_rows : ¬ AllStates poolStep (fun s => LosesNothing s.shared)
    (PoolShared.initial plainDirectory) (unlock 0 ++ opening 1 8 ++ [.crash] ++ unlock 0 ++ opening 1 4) := by
  intro h
  have hfinal := (AllStates.final _ h).1
  revert hfinal
  decide +kernel

end Runs

end Tightrope.Db
