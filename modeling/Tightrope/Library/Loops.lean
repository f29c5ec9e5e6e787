import Mathlib.Data.List.Basic
import Mathlib.Data.List.Nodup

/-!
Loops over a list whose steps each touch only what belongs to the key of their element.
Loops in which everything that writes to a place writes the same value.
-/

namespace KeyedLoops

variable {S A K T : Type} (step : S → A → S) (key : A → K) (view : K → S → T)

def StepsAreLocal : Prop := ∀ s a k, key a ≠ k → view k (step s a) = view k s

variable {step key view}

theorem view_foldl (hlocal : StepsAreLocal step key view) {k : K} {as : List A} (hk : k ∉ as.map key) (s : S) :
    view k (as.foldl step s) = view k s := by
  induction as generalizing s with
  | nil => rfl
  | cons a as ih =>
    rw [List.map_cons, List.mem_cons, not_or] at hk
    obtain ⟨hne, hrest⟩ := hk
    rw [List.foldl_cons, ih hrest, hlocal s a k (Ne.symm hne)]

/-- What belongs to the key of an element is what its own step made of it. -/
theorem view_foldl_of_mem (hlocal : StepsAreLocal step key view) {as before after : List A} {a : A}
    (hnodup : (as.map key).Nodup) (has : as = before ++ a :: after) (s : S) :
    view (key a) (as.foldl step s) = view (key a) (step (before.foldl step s) a) ∧
      view (key a) (before.foldl step s) = view (key a) s := by
  subst has
  rw [List.map_append, List.map_cons, List.nodup_append] at hnodup
  obtain ⟨-, hafter, hdisjoint⟩ := hnodup
  have hbefore : key a ∉ before.map key := fun hmem => hdisjoint _ hmem _ List.mem_cons_self rfl
  rw [List.foldl_append, List.foldl_cons]
  exact ⟨view_foldl hlocal (List.nodup_cons.mp hafter).1 _, view_foldl hlocal hbefore s⟩

end KeyedLoops

namespace LastWrite

variable {S A V : Type} (step : S → A → S) (view : S → V) {v : V} (Inv : S → Prop) {as : List A} {s : S}

theorem foldl_invariant (hinv : ∀ s, Inv s → ∀ a ∈ as, Inv (step s a)) (hs : Inv s) : Inv (as.foldl step s) := by
  induction as generalizing s with
  | nil => exact hs
  | cons a as ih =>
    obtain ⟨ha, has⟩ := List.forall_mem_cons.mp fun b hb s hs => hinv s hs b hb
    exact ih (fun s hs b hb => has b hb s hs) (ha s hs)

theorem foldl_stays (hinv : ∀ s, Inv s → ∀ a ∈ as, Inv (step s a))
    (hstep : ∀ s, Inv s → ∀ a ∈ as, view (step s a) = v ∨ view (step s a) = view s) (hs : Inv s) (hv : view s = v) :
    view (as.foldl step s) = v := by
  have hboth : ∀ s, Inv s ∧ view s = v → ∀ a ∈ as, Inv (step s a) ∧ view (step s a) = v := by
    rintro s ⟨hs, hv⟩ a ha
    refine ⟨hinv s hs a ha, ?_⟩
    obtain hwritten | hkept := hstep s hs a ha
    · exact hwritten
    · exact hkept.trans hv
  exact (foldl_invariant step _ hboth ⟨hs, hv⟩).2

/-- If each step writes `v` or leaves the place alone, and one of them writes it, then `v` is there in the end. -/
theorem foldl_settles (hinv : ∀ s, Inv s → ∀ a ∈ as, Inv (step s a))
    (hstep : ∀ s, Inv s → ∀ a ∈ as, view (step s a) = v ∨ view (step s a) = view s)
    (hwrite : ∃ a ∈ as, ∀ s, Inv s → view (step s a) = v) (hs : Inv s) : view (as.foldl step s) = v := by
  obtain ⟨a, ha, hwrite⟩ := hwrite
  obtain ⟨before, after, rfl⟩ := List.append_of_mem ha
  rw [List.foldl_append, List.foldl_cons]
  have hbefore : Inv (before.foldl step s) :=
    foldl_invariant step Inv (fun s hs b hb => hinv s hs b (List.mem_append_left _ hb)) hs
  apply foldl_stays step view Inv
  · exact fun s hs b hb => hinv s hs b (List.mem_append_right _ (List.mem_cons_of_mem _ hb))
  · exact fun s hs b hb => hstep s hs b (List.mem_append_right _ (List.mem_cons_of_mem _ hb))
  · exact hinv _ hbefore a ha
  · exact hwrite _ hbefore

end LastWrite
