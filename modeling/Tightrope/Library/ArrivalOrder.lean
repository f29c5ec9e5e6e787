import Mathlib.Data.List.Range
import Mathlib.Order.Lattice

/-!
Jobs that arrive in order and leave their queue in order, after which each of those taken waits
until it is served, in any order.
-/

namespace ArrivalOrder

variable {α : Type} [LinearOrder α]

structure Line (arrived queued waiting served : List α) : Prop where
  sorted : arrived.Pairwise (· < ·)
  fifo : ∃ taken, arrived = taken ++ queued ∧ taken.Perm (served ++ waiting)

variable {arrived queued waiting waiting' served : List α} {a : α}

theorem Line.nil : Line ([] : List α) [] [] [] := ⟨.nil, [], rfl, .refl []⟩

theorem Line.arrive (h : Line arrived queued waiting served) (hlast : ∀ b ∈ arrived, b < a) :
    Line (arrived ++ [a]) (queued ++ [a]) waiting served := by
  obtain ⟨hsorted, taken, rfl, hperm⟩ := h
  refine ⟨?_, taken, by rw [List.append_assoc], hperm⟩
  rw [List.pairwise_append]
  refine ⟨hsorted, List.pairwise_singleton _ a, ?_⟩
  intro b hb c hc
  obtain rfl := List.mem_singleton.mp hc
  exact hlast b hb

theorem Line.take (h : Line arrived (a :: queued) waiting served) (hperm : waiting'.Perm (a :: waiting)) :
    Line arrived queued waiting' served := by
  obtain ⟨hsorted, taken, rfl, htaken⟩ := h
  refine ⟨hsorted, taken ++ [a], by simp, ?_⟩
  calc (taken ++ [a]).Perm ((served ++ waiting) ++ [a]) := htaken.append_right [a]
    _ = served ++ (waiting ++ [a]) := List.append_assoc _ _ _
    _ |>.Perm (served ++ waiting') := ((List.perm_append_singleton a waiting).trans hperm.symm).append_left served

theorem Line.serve (h : Line arrived queued waiting served) (hperm : waiting.Perm (a :: waiting')) :
    Line arrived queued waiting' (served ++ [a]) := by
  obtain ⟨hsorted, taken, harrived, htaken⟩ := h
  refine ⟨hsorted, taken, harrived, ?_⟩
  rw [List.append_assoc]
  exact htaken.trans (hperm.append_left served)

theorem Line.perm (h : Line arrived queued waiting served) (hperm : waiting'.Perm waiting) :
    Line arrived queued waiting' served := by
  obtain ⟨hsorted, taken, harrived, htaken⟩ := h
  exact ⟨hsorted, taken, harrived, htaken.trans (hperm.symm.append_left served)⟩

/-- Serving a job keeps the arrival order exactly when it is the earliest of those that wait. -/
theorem Line.serve_prefix_iff (h : Line arrived queued waiting served) (hserved : served <+: arrived)
    (ha : a ∈ waiting) : served ++ [a] <+: arrived ↔ ∀ b ∈ waiting, a ≤ b := by
  obtain ⟨hsorted, taken, htaken, hperm⟩ := h
  have hlength : served.length ≤ taken.length := by
    rw [hperm.length_eq, List.length_append]
    omega
  have hprefix : served <+: taken := List.prefix_of_prefix_length_le hserved ⟨queued, htaken.symm⟩ hlength
  obtain ⟨unserved, rfl⟩ := hprefix
  have hunserved : unserved.Perm waiting := (List.perm_append_left_iff served).mp hperm
  obtain ⟨first, later, rfl⟩ : ∃ first later, unserved = first :: later :=
    List.exists_cons_of_ne_nil (List.ne_nil_of_mem (hunserved.mem_iff.mpr ha))
  have hfirst : ∀ b ∈ waiting, first ≤ b := by
    intro b hb
    rw [htaken, List.append_assoc, List.pairwise_append] at hsorted
    obtain rfl | hlater := List.mem_cons.mp (hunserved.mem_iff.mpr hb)
    · exact le_refl b
    · exact le_of_lt (List.rel_of_pairwise_cons hsorted.2.1 (List.mem_append_left queued hlater))
  rw [htaken, List.append_assoc, List.prefix_append_right_inj, List.cons_append, List.cons_prefix_cons]
  constructor
  · rintro ⟨rfl, -⟩
    exact hfirst
  · intro hle
    exact ⟨le_antisymm (hle first (hunserved.mem_iff.mp (List.mem_cons_self ..))) (hfirst a ha), List.nil_prefix⟩

end ArrivalOrder
