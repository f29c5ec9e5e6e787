import Mathlib.Data.Nat.Notation
import Mathlib.Logic.Function.Basic
import Mathlib.Tactic.SplitIfs

/-!
A directory as a map from names to files. A file is known by a number that never changes, as an open handle knows it, so
a rename or a removal of its name leaves what the handle reads and writes.
-/

structure Directory (N C : Type) where
  names : N → Option ℕ
  contents : ℕ → C
  next : ℕ
  bound : ∀ name file, names name = some file → file < next

namespace Directory

variable {N C : Type}

def empty (content : C) : Directory N C := ⟨fun _ => none, fun _ => content, 0, nofun⟩

variable (d : Directory N C)

def file? (name : N) : Option C := (d.names name).map d.contents

def write (file : ℕ) (content : C) : Directory N C := { d with contents := Function.update d.contents file content }

@[simp] theorem contents_write_self {d : Directory N C} {file : ℕ} {content : C} :
    (d.write file content).contents file = content := Function.update_self ..

theorem contents_write_of_ne {d : Directory N C} {file k : ℕ} {content : C} (h : k ≠ file) :
    (d.write file content).contents k = d.contents k := Function.update_of_ne h ..

theorem write_contents (d : Directory N C) (file : ℕ) : d.write file (d.contents file) = d := by
  simp [write]

variable [DecidableEq N]

def create (name : N) (content : C) : Directory N C where
  names := Function.update d.names name (some d.next)
  contents := Function.update d.contents d.next content
  next := d.next + 1
  bound := by
    intro other file h
    rw [Function.update_apply] at h
    split_ifs at h with heq
    · obtain rfl := Option.some.inj h
      omega
    · exact Nat.lt_succ_of_lt (d.bound other file h)

def remove (name : N) : Directory N C :=
  { d with
    names := Function.update d.names name none
    bound := by
      intro other file h
      rw [Function.update_apply] at h
      split_ifs at h with heq
      exact d.bound other file h }

def rename (source target : N) : Directory N C :=
  { d with
    names := Function.update (Function.update d.names source none) target (d.names source)
    bound := by
      intro other file h
      rw [Function.update_apply] at h
      split_ifs at h with htarget
      · exact d.bound source file h
      · rw [Function.update_apply] at h
        split_ifs at h with hsource
        exact d.bound other file h }

def openFile (name : N) (content : C) : Directory N C × ℕ :=
  match d.names name with
  | some file => (d, file)
  | none => (d.create name content, d.next)

variable {d} {name other source target : N} {content : C} {file : ℕ}

@[simp] theorem names_create_self : (d.create name content).names name = some d.next := Function.update_self ..

theorem names_create_of_ne (h : other ≠ name) : (d.create name content).names other = d.names other :=
  Function.update_of_ne h ..

@[simp] theorem contents_create_next : (d.create name content).contents d.next = content := Function.update_self ..

theorem contents_create_of_lt (h : file < d.next) : (d.create name content).contents file = d.contents file :=
  Function.update_of_ne (Nat.ne_of_lt h) ..

theorem names_remove_of_ne (h : other ≠ name) : (d.remove name).names other = d.names other :=
  Function.update_of_ne h ..

@[simp] theorem names_rename_target : (d.rename source target).names target = d.names source :=
  Function.update_self ..

theorem names_rename_source (h : source ≠ target) : (d.rename source target).names source = none := by
  simp [rename, Function.update_of_ne h]

theorem names_rename_of_ne (hsource : other ≠ source) (htarget : other ≠ target) :
    (d.rename source target).names other = d.names other := by
  simp [rename, Function.update_of_ne hsource, Function.update_of_ne htarget]

theorem openFile_of_some (content : C) (h : d.names name = some file) : d.openFile name content = (d, file) := by
  simp only [openFile, h]

theorem openFile_of_none (content : C) (h : d.names name = none) :
    d.openFile name content = (d.create name content, d.next) := by
  simp only [openFile, h]

end Directory
