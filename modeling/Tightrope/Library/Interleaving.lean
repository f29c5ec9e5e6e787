import Mathlib.Logic.Function.Basic
import Mathlib.Data.List.Basic

/-!
Two concurrent calls on one store, each a few read statements followed by one write
transaction, under every schedule of these statements.
-/

namespace Interleaving

inductive Caller where
  | first
  | second
  deriving DecidableEq, Repr

def Caller.other : Caller → Caller
  | .first => .second
  | .second => .first

@[simp] theorem Caller.other_ne (c : Caller) : c.other ≠ c := by cases c <;> decide

@[simp] theorem Caller.ne_other (c : Caller) : c ≠ c.other := by cases c <;> decide

@[simp] theorem Caller.other_other (c : Caller) : c.other.other = c := by cases c <;> rfl

theorem Caller.eq_or_eq_other (c d : Caller) : d = c ∨ d = c.other := by cases c <;> cases d <;> simp [other]

variable {D L : Type}

structure Session (D L : Type) where
  pending : List (D → L → L)
  held : L
  returned : Bool

structure State (D L : Type) where
  db : D
  session : Caller → Session D L

variable (write : Caller → D → L → Option D)

def step (s : State D L) (c : Caller) : Option (State D L) :=
  match (s.session c).pending with
  | read :: rest =>
    some { s with session := Function.update s.session c ⟨rest, read s.db (s.session c).held, false⟩ }
  | [] =>
    if (s.session c).returned then none
    else (write c s.db (s.session c).held).map fun db =>
      ⟨db, Function.update s.session c ⟨[], (s.session c).held, true⟩⟩

def runSchedule : State D L → List Caller → Option (State D L)
  | s, [] => some s
  | s, c :: cs => (step write s c).bind fun s' => runSchedule s' cs

def begin (reads : Caller → List (D → L → L)) (start : L) (db : D) : State D L :=
  ⟨db, fun c => ⟨reads c, start, false⟩⟩

def outcome (reads : Caller → List (D → L → L)) (start : L) (db : D) (schedule : List Caller) : Option D :=
  (runSchedule write (begin reads start db) schedule).bind fun s =>
    if (s.session .first).returned ∧ (s.session .second).returned then some s.db else none

def readAll (reads : List (D → L → L)) (db : D) (held : L) : L := reads.foldl (fun l read => read db l) held

variable {write}

theorem step_read {s : State D L} {c : Caller} {read : D → L → L} {rest : List (D → L → L)}
    (h : (s.session c).pending = read :: rest) :
    step write s c =
      some { s with session := Function.update s.session c ⟨rest, read s.db (s.session c).held, false⟩ } := by
  simp only [step, h]

theorem step_write {s : State D L} {c : Caller} (h : (s.session c).pending = [])
    (hr : (s.session c).returned = false) :
    step write s c = (write c s.db (s.session c).held).map fun db =>
      ⟨db, Function.update s.session c ⟨[], (s.session c).held, true⟩⟩ := by
  simp [step, h, hr]

theorem step_returned {s : State D L} {c : Caller} (h : (s.session c).pending = [])
    (hr : (s.session c).returned = true) : step write s c = none := by
  simp [step, h, hr]

theorem schedule_nil_of_returned {s s' : State D L} {cs : List Caller}
    (hdone : ∀ c, (s.session c).pending = [] ∧ (s.session c).returned = true)
    (h : runSchedule write s cs = some s') : cs = [] ∧ s' = s := by
  cases cs with
  | nil => exact ⟨rfl, (Option.some.inj h).symm⟩
  | cons c cs =>
    rw [runSchedule, step_returned (hdone c).1 (hdone c).2] at h
    cases h

theorem schedule_of_last {s s' : State D L} {cs : List Caller} {last : Caller}
    (hother : (s.session last.other).pending = [] ∧ (s.session last.other).returned = true)
    (hlast : (s.session last).returned = false)
    (h : runSchedule write s cs = some s') (hdone : (s'.session last).returned = true) :
    cs = List.replicate ((s.session last).pending.length + 1) last ∧
      write last s.db (readAll (s.session last).pending s.db (s.session last).held) = some s'.db := by
  induction cs generalizing s with
  | nil =>
    obtain rfl := Option.some.inj h
    simp [hlast] at hdone
  | cons c cs ih =>
    obtain rfl | rfl := Caller.eq_or_eq_other last c
    · cases hp : (s.session c).pending with
      | cons read rest =>
        rw [runSchedule, step_read hp] at h
        obtain ⟨hcs, hw⟩ := ih (by simpa using hother) (by simp) h
        simp only [Function.update_self] at hcs hw
        exact ⟨by rw [hcs]; rfl, hw⟩
      | nil =>
        rw [runSchedule, step_write hp hlast] at h
        obtain ⟨s₁, hs₁, h⟩ := Option.bind_eq_some_iff.mp h
        obtain ⟨db, hdb, rfl⟩ := Option.map_eq_some_iff.mp hs₁
        have hall : ∀ d, ((Function.update s.session c ⟨[], (s.session c).held, true⟩) d).pending = [] ∧
            ((Function.update s.session c ⟨[], (s.session c).held, true⟩) d).returned = true := by
          intro d
          obtain rfl | rfl := Caller.eq_or_eq_other c d
          · simp
          · simpa using hother
        obtain ⟨rfl, rfl⟩ := schedule_nil_of_returned hall h
        exact ⟨rfl, hdb⟩
    · rw [runSchedule, step_returned hother.1 hother.2] at h
      cases h

theorem schedule_of_open {s s' : State D L} {cs : List Caller}
    (hopen : ∀ c, (s.session c).returned = false) (h : runSchedule write s cs = some s')
    (hdone : ∀ c, (s'.session c).returned = true) :
    ∃ last before early late db, (s.session last).pending = early ++ late ∧
      cs = before ++ last.other :: List.replicate (late.length + 1) last ∧
      write last.other s.db (readAll (s.session last.other).pending s.db (s.session last.other).held) = some db ∧
      write last db (readAll late db (readAll early s.db (s.session last).held)) = some s'.db := by
  induction cs generalizing s with
  | nil =>
    obtain rfl := Option.some.inj h
    exact absurd (hdone .first) (by simp [hopen])
  | cons c cs ih =>
    cases hp : (s.session c).pending with
    | cons read rest =>
      rw [runSchedule, step_read hp] at h
      obtain ⟨last, before, early, late, db, hpend, hcs, hfirst, hlast⟩ := ih (by
        intro d
        obtain rfl | rfl := Caller.eq_or_eq_other c d
        · simp
        · simpa using hopen c.other) h
      obtain rfl | rfl := Caller.eq_or_eq_other last c
      · refine ⟨c, c :: before, read :: early, late, db, ?_, by rw [hcs]; rfl, ?_, ?_⟩
        · simpa [hp] using hpend
        · simpa using hfirst
        · simpa [readAll] using hlast
      · refine ⟨last, last.other :: before, early, late, db, ?_, by rw [hcs]; rfl, ?_, ?_⟩
        · simpa using hpend
        · simpa [hp, readAll] using hfirst
        · simpa using hlast
    | nil =>
      rw [runSchedule, step_write hp (hopen c)] at h
      obtain ⟨s₁, hs₁, h⟩ := Option.bind_eq_some_iff.mp h
      obtain ⟨db, hdb, rfl⟩ := Option.map_eq_some_iff.mp hs₁
      obtain ⟨hcs, hw⟩ := schedule_of_last (by simp) (by simpa using hopen c.other) h
        (hdone c.other)
      simp only [ne_eq, Caller.other_ne, not_false_eq_true, Function.update_of_ne] at hcs hw
      refine ⟨c.other, [], [], (s.session c.other).pending, db, rfl, ?_, ?_, ?_⟩
      · rw [hcs, Caller.other_other]; rfl
      · simpa [hp, readAll] using hdb
      · exact hw

def EndsAlone (schedule : List Caller) (c : Caller) (n : ℕ) : Prop := List.replicate n c <:+ schedule

instance (schedule : List Caller) (c : Caller) (n : ℕ) : Decidable (EndsAlone schedule c n) :=
  inferInstanceAs (Decidable (_ <:+ _))

theorem endsAlone_iff (before : List Caller) (last : Caller) (m n : ℕ) :
    EndsAlone (before ++ last.other :: List.replicate m last) last n ↔ n ≤ m := by
  constructor
  · intro h
    by_contra hlt
    have hsuffix : last.other :: List.replicate m last <:+ List.replicate n last :=
      List.suffix_of_suffix_length_le (List.suffix_append _ _) h (by simp; omega)
    exact last.other_ne (List.eq_of_mem_replicate (hsuffix.mem (by simp)))
  · intro h
    have hsplit : List.replicate m last = List.replicate (m - n) last ++ List.replicate n last := by
      rw [List.replicate_append_replicate]
      congr 1
      omega
    exact ⟨before ++ last.other :: List.replicate (m - n) last, by rw [hsplit]; simp⟩

theorem endsAlone_one_iff (before : List Caller) (last c : Caller) (m : ℕ) :
    EndsAlone (before ++ last.other :: List.replicate (m + 1) last) c 1 ↔ c = last := by
  have hlast : (before ++ last.other :: List.replicate (m + 1) last).getLast? = some last :=
    List.getLast?_eq_some_iff.mpr ⟨before ++ last.other :: List.replicate m last, by simp [List.replicate_succ']⟩
  constructor
  · rintro ⟨front, hfront⟩
    rw [← hfront] at hlast
    simpa using hlast
  · rintro rfl
    exact (endsAlone_iff before c (m + 1) 1).mpr (by omega)

theorem outcome_cases {reads : Caller → List (D → L → L)} {start : L} {db final : D} {schedule : List Caller}
    (h : outcome write reads start db schedule = some final) :
    ∃ last early late middle, reads last = early ++ late ∧
      (∀ c, EndsAlone schedule c 1 ↔ c = last) ∧ (∀ n, EndsAlone schedule last n ↔ n ≤ late.length + 1) ∧
      write last.other db (readAll (reads last.other) db start) = some middle ∧
      write last middle (readAll late middle (readAll early db start)) = some final := by
  obtain ⟨s, hs, hf⟩ := Option.bind_eq_some_iff.mp h
  split_ifs at hf with hdone
  obtain rfl := Option.some.inj hf
  obtain ⟨last, before, early, late, middle, hpend, rfl, hfirst, hlast⟩ :=
    schedule_of_open (fun _ => rfl) hs (by rintro ⟨⟩ <;> simp [hdone])
  exact ⟨last, early, late, middle, hpend, fun c => endsAlone_one_iff before last c late.length,
    fun n => endsAlone_iff before last (late.length + 1) n, hfirst, hlast⟩

theorem runSchedule_call (write : Caller → D → L → Option D) (s : State D L) (c : Caller) (rest : List Caller)
    (h : (s.session c).returned = false) :
    runSchedule write s (List.replicate ((s.session c).pending.length + 1) c ++ rest) =
      (write c s.db (readAll (s.session c).pending s.db (s.session c).held)).bind fun db =>
        runSchedule write ⟨db, Function.update s.session c
          ⟨[], readAll (s.session c).pending s.db (s.session c).held, true⟩⟩ rest := by
  generalize hp : (s.session c).pending = pending
  induction pending generalizing s with
  | nil =>
    simp only [List.length_nil, Nat.zero_add, List.replicate_one, List.singleton_append, runSchedule,
      step_write hp h, readAll, List.foldl_nil]
    cases write c s.db (s.session c).held <;> rfl
  | cons read reads ih =>
    rw [List.length_cons, List.replicate_succ, List.cons_append, runSchedule, step_read hp, Option.bind_some, ih]
      <;> simp [readAll]

theorem outcome_serial (write : Caller → D → L → Option D) (reads : Caller → List (D → L → L)) (start : L) (db : D) :
    outcome write reads start db (List.replicate ((reads .first).length + 1) .first ++
        List.replicate ((reads .second).length + 1) .second) =
      (write .first db (readAll (reads .first) db start)).bind fun db' =>
        write .second db' (readAll (reads .second) db' start) := by
  have hfirst := runSchedule_call write (begin reads start db) .first
    (List.replicate ((reads .second).length + 1) .second) rfl
  simp only [outcome, begin] at hfirst ⊢
  rw [hfirst, Option.bind_assoc]
  congr 1
  funext db'
  have hsecond := runSchedule_call write ⟨db', Function.update (begin reads start db).session .first
    ⟨[], readAll (reads .first) db start, true⟩⟩ .second [] rfl
  rw [List.append_nil] at hsecond
  simp only [begin, ne_eq, reduceCtorEq, not_false_eq_true, Function.update_of_ne] at hsecond
  rw [hsecond]
  cases write .second db' (readAll (reads .second) db' start) <;> simp [runSchedule]

end Interleaving
