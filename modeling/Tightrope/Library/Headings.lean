import Mathlib.Data.List.Basic
import Mathlib.Data.List.Induction
import Mathlib.Data.List.Perm.Basic

/-!
Lines under headings: a heading opens a part, which goes on to the next heading.
-/

namespace Headings

variable {L H : Type} (heading : L → Option H)

def after (current : Option H) (lines : List L) : Option H :=
  lines.foldl (fun current line => (heading line).or current) current

def placed : Option H → List L → List (Option H × L)
  | _, [] => []
  | current, line :: lines => ((heading line).or current, line) :: placed ((heading line).or current) lines

variable {heading} {current : Option H} {lines before added rest : List L} {line : L}

theorem after_append : after heading current (before ++ rest) = after heading (after heading current before) rest :=
  List.foldl_append

theorem placed_append : placed heading current (before ++ rest) =
    placed heading current before ++ placed heading (after heading current before) rest := by
  induction before generalizing current with
  | nil => rfl
  | cons line before ih => exact congrArg (((heading line).or current, line) :: ·) ih

theorem map_snd_placed : (placed heading current lines).map Prod.snd = lines := by
  induction lines generalizing current with
  | nil => rfl
  | cons line lines ih => exact congrArg (line :: ·) ih

theorem mem_of_mem_placed {place : Option H × L} (h : place ∈ placed heading current lines) : place.2 ∈ lines := by
  rw [← @map_snd_placed _ _ heading current lines]
  exact List.mem_map_of_mem h

theorem after_of_none (h : ∀ line ∈ lines, heading line = none) : after heading current lines = current := by
  induction lines generalizing current with
  | nil => rfl
  | cons line lines ih =>
    obtain ⟨hline, hlines⟩ := List.forall_mem_cons.mp h
    change after heading ((heading line).or current) lines = current
    rw [ih hlines, hline, Option.none_or]

theorem placed_of_none (h : ∀ line ∈ lines, heading line = none) :
    placed heading current lines = lines.map fun line => (current, line) := by
  induction lines generalizing current with
  | nil => rfl
  | cons line lines ih =>
    obtain ⟨hline, hlines⟩ := List.forall_mem_cons.mp h
    rw [placed, hline, Option.none_or, ih hlines, List.map_cons]

/-- Lines that are no headings are placed where they are put, and nothing else changes its place. -/
theorem placed_insert (h : ∀ line ∈ added, heading line = none) :
    placed heading current (before ++ added ++ rest) =
      placed heading current before ++ added.map (fun line => (after heading current before, line)) ++
        placed heading (after heading current before) rest := by
  rw [placed_append, placed_append, placed_of_none h, after_append, after_of_none h]

theorem sublist_placed_insert (h : ∀ line ∈ added, heading line = none) :
    (placed heading current (before ++ rest)).Sublist (placed heading current (before ++ added ++ rest)) := by
  rw [placed_insert h, placed_append, List.append_assoc]
  exact (List.Sublist.refl _).append (List.sublist_append_right _ _)

theorem perm_placed_insert (h : ∀ line ∈ added, heading line = none) :
    (placed heading current (before ++ added ++ rest)).Perm
      (placed heading current (before ++ rest) ++ added.map fun line => (after heading current before, line)) := by
  rw [placed_insert h, placed_append, List.append_assoc, List.append_assoc]
  exact List.perm_append_comm.append_left _

/-- Leaving out lines that are no headings leaves the others in their places. -/
theorem placed_filter {p : L → Bool} (h : ∀ line, p line = false → heading line = none) :
    placed heading current (lines.filter p) = (placed heading current lines).filter fun place => p place.2 := by
  induction lines generalizing current with
  | nil => rfl
  | cons line lines ih =>
    rw [List.filter_cons, placed, List.filter_cons]
    cases hline : p line with
    | true =>
      rw [if_pos rfl, if_pos rfl, placed, ih]
    | false =>
      rw [if_neg Bool.false_ne_true, if_neg Bool.false_ne_true, ih, h line hline, Option.none_or]

theorem after_filter {p : L → Bool} (h : ∀ line, p line = false → heading line = none) :
    after heading current (lines.filter p) = after heading current lines := by
  induction lines generalizing current with
  | nil => rfl
  | cons line lines ih =>
    rw [List.filter_cons]
    cases hline : p line with
    | true => exact ih
    | false =>
      rw [if_neg Bool.false_ne_true, ih]
      change after heading current lines = after heading ((heading line).or current) lines
      rw [h line hline, Option.none_or]

theorem after_eq_none_iff : after heading none lines = none ↔ ∀ line ∈ lines, heading line = none := by
  constructor
  · induction lines using List.reverseRecOn with
    | nil => exact fun _ _ hmem => by cases hmem
    | append_singleton lines line ih =>
      intro h
      rw [after_append] at h
      obtain ⟨hline, hbefore⟩ := Option.or_eq_none_iff.mp h
      intro found hmem
      obtain hmem | hmem := List.mem_append.mp hmem
      · exact ih hbefore found hmem
      · exact List.mem_singleton.mp hmem ▸ hline
  · exact after_of_none

end Headings
