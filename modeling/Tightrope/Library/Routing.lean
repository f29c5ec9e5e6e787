import Mathlib.Data.List.Basic
import Mathlib.Logic.Function.Basic

/-!
Inputs routed to numbered cells: what leaves a cell depends on the inputs routed to it and
on nothing else. Keys are numbered in the order in which they first appear.
-/

namespace Routing

section Cells

variable {S A R : Type} (act : S → A → S × Option R)

def runCell : S → List A → List R
  | _, [] => []
  | state, input :: inputs => (act state input).2.toList ++ runCell (act state input).1 inputs

def cellAfter (state : S) (inputs : List A) : S := inputs.foldl (fun state input => (act state input).1) state

def runCells : (ℕ → S) → List (ℕ × A) → List (ℕ × R)
  | _, [] => []
  | cells, (n, input) :: inputs =>
    (act (cells n) input).2.toList.map (n, ·) ++ runCells (Function.update cells n (act (cells n) input).1) inputs

def routedTo {B : Type} (n : ℕ) (inputs : List (ℕ × B)) : List B :=
  inputs.filterMap fun input => if input.1 = n then some input.2 else none

theorem routedTo_append {B : Type} (n : ℕ) (l l' : List (ℕ × B)) :
    routedTo n (l ++ l') = routedTo n l ++ routedTo n l' := List.filterMap_append

theorem routedTo_runCells (n : ℕ) (cells : ℕ → S) (inputs : List (ℕ × A)) :
    routedTo n (runCells act cells inputs) = runCell act (cells n) (routedTo n inputs) := by
  induction inputs generalizing cells with
  | nil => rfl
  | cons input inputs ih =>
    obtain ⟨m, input⟩ := input
    rw [runCells, routedTo_append, ih]
    by_cases h : m = n
    · subst h
      have hout : routedTo m ((act (cells m) input).2.toList.map (m, ·)) = (act (cells m) input).2.toList := by
        cases (act (cells m) input).2 <;> simp [routedTo]
      have hin : routedTo m ((m, input) :: inputs) = input :: routedTo m inputs := by simp [routedTo]
      rw [hout, hin, runCell, Function.update_self]
    · have hout : routedTo n ((act (cells m) input).2.toList.map (m, ·)) = [] := by
        cases (act (cells m) input).2 <;> simp [routedTo, h]
      have hin : routedTo n ((m, input) :: inputs) = routedTo n inputs := by simp [routedTo, h]
      rw [hout, hin, List.nil_append, Function.update_of_ne (Ne.symm h)]

theorem runCell_append (state : S) (inputs inputs' : List A) :
    runCell act state (inputs ++ inputs') =
      runCell act state inputs ++ runCell act (cellAfter act state inputs) inputs' := by
  induction inputs generalizing state with
  | nil => rfl
  | cons input inputs ih => rw [List.cons_append, runCell, runCell, ih, List.append_assoc]; rfl

theorem runCell_filterMap_congr {B : Type} {f g : B → Option A} (state : S) (l : List B)
    (h : ∀ b ∈ l, f b = g b ∨ ∀ a, f b = some a ∨ g b = some a → ∀ state, act state a = (state, none)) :
    runCell act state (l.filterMap f) = runCell act state (l.filterMap g) := by
  have hquiet {o : Option A} (state : S) (inputs : List A)
      (ho : ∀ a, o = some a → ∀ state, act state a = (state, none)) :
      runCell act state (o.toList ++ inputs) = runCell act state inputs := by
    cases o with
    | none => rfl
    | some a => rw [Option.toList_some, List.singleton_append, runCell, ho a rfl]; rfl
  have hcons (f : B → Option A) (b : B) (l : List B) : (b :: l).filterMap f = (f b).toList ++ l.filterMap f := by
    rw [List.filterMap_cons]
    cases f b <;> rfl
  induction l generalizing state with
  | nil => rfl
  | cons b l ih =>
    have htail (state : S) := ih state fun c hc => h c (List.mem_cons_of_mem b hc)
    rw [hcons, hcons]
    rcases h b List.mem_cons_self with heq | hnoop
    · rw [heq, runCell_append, runCell_append, htail]
    · rw [hquiet state _ fun a ha => hnoop a (.inl ha), hquiet state _ fun a ha => hnoop a (.inr ha), htail]

end Cells

section Numbering

variable {K A : Type} [BEq K] [LawfulBEq K]

def appear (seen : List K) (key : K) : List K := if key ∈ seen then seen else seen ++ [key]

/-- The keys in the order in which they first appear, after those `seen` before. -/
def order (seen keys : List K) : List K := keys.foldl appear seen

theorem prefix_appear (seen : List K) (key : K) : seen <+: appear seen key := by
  unfold appear
  split
  · exact List.prefix_refl seen
  · exact List.prefix_append seen [key]

theorem mem_appear (seen : List K) (key : K) : key ∈ appear seen key := by
  unfold appear
  split <;> simp_all

theorem idxOf_appear (seen : List K) (key : K) : (appear seen key).idxOf key = seen.idxOf key := by
  unfold appear
  split
  case isTrue h => rfl
  case isFalse h =>
    rw [List.idxOf_append_of_notMem h, List.idxOf_of_notMem h, List.idxOf_cons_self, Nat.add_zero]

theorem order_append (seen keys keys' : List K) : order seen (keys ++ keys') = order (order seen keys) keys' :=
  List.foldl_append

theorem prefix_order (seen keys : List K) : seen <+: order seen keys := by
  induction keys generalizing seen with
  | nil => exact List.prefix_refl seen
  | cons key keys ih => exact (prefix_appear seen key).trans (ih (appear seen key))

theorem idxOf_order_cons (seen : List K) (key : K) (keys : List K) :
    (order seen (key :: keys)).idxOf key = seen.idxOf key := by
  rw [← idxOf_appear seen]
  exact ((prefix_order (appear seen key) keys).idxOf_eq_of_mem (mem_appear seen key)).symm

theorem mem_order {seen keys : List K} {key : K} (h : key ∈ keys) : key ∈ order seen keys := by
  obtain ⟨before, after, rfl⟩ := List.append_of_mem h
  rw [order_append]
  exact (prefix_order (appear (order seen before) key) after).subset (mem_appear _ key)

def slot (order : List K) : Option K → ℕ
  | none => 0
  | some key => order.idxOf key

def number : List K → List (Option K × A) → List (ℕ × A)
  | _, [] => []
  | seen, (none, input) :: inputs => (0, input) :: number seen inputs
  | seen, (some key, input) :: inputs => (seen.idxOf key, input) :: number (appear seen key) inputs

theorem number_eq_map (seen : List K) (inputs : List (Option K × A)) :
    number seen inputs = inputs.map fun input => (slot (order seen (inputs.filterMap (·.1))) input.1, input.2) := by
  induction inputs generalizing seen with
  | nil => rfl
  | cons input inputs ih =>
    obtain ⟨key, input⟩ := input
    cases key with
    | none =>
      rw [number, ih]
      rfl
    | some key =>
      have hkeys : (((some key, input) :: inputs).filterMap (·.1)) = key :: inputs.filterMap (·.1) := rfl
      rw [number, ih, List.map_cons, hkeys, slot, idxOf_order_cons]
      rfl

end Numbering

end Routing
