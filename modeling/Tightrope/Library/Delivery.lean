import Mathlib.Order.Bounds.Basic
import Mathlib.Data.List.Basic

/-!
Folding delivered states into a local one: the outcome depends only on which states
arrive, for joins in a semilattice and for rules that keep the larger-keyed state.
-/

namespace Delivery

section Join

variable {α : Type} [SemilatticeSup α]

theorem isLUB_foldl_sup (s : α) (ds : List α) :
    IsLUB (insert s {d | d ∈ ds}) (ds.foldl (· ⊔ ·) s) := by
  induction ds generalizing s with
  | nil => simp
  | cons d ds ih =>
    have hset : (insert s {x | x ∈ d :: ds} : Set α) = insert s (insert d {x | x ∈ ds}) := by
      ext x
      simp [or_left_comm]
    rw [List.foldl_cons, hset]
    obtain ⟨hub, hle⟩ := ih (s ⊔ d)
    constructor
    · have htop : s ⊔ d ≤ ds.foldl (· ⊔ ·) (s ⊔ d) := hub (Set.mem_insert _ _)
      rintro x (rfl | rfl | hx)
      · exact le_sup_left.trans htop
      · exact le_sup_right.trans htop
      · exact hub (Set.mem_insert_of_mem _ hx)
    · intro b hb
      apply hle
      rintro x (rfl | hx)
      · exact sup_le (hb (by simp)) (hb (by simp))
      · exact hb (Set.mem_insert_of_mem _ (Set.mem_insert_of_mem _ hx))

theorem foldl_sup_eq {s : α} {ds es : List α} (h : ∀ d, d ∈ ds ↔ d ∈ es) :
    ds.foldl (· ⊔ ·) s = es.foldl (· ⊔ ·) s := by
  have hset : {d | d ∈ ds} = {d | d ∈ es} := Set.ext h
  exact (isLUB_foldl_sup s ds).unique (hset ▸ isLUB_foldl_sup s es)

theorem foldl_sup_mem {β : Type} [LinearOrder β] (s : β) (ds : List β) :
    ds.foldl (· ⊔ ·) s = s ∨ ds.foldl (· ⊔ ·) s ∈ ds := by
  induction ds generalizing s with
  | nil => exact .inl rfl
  | cons d ds ih =>
    rw [List.foldl_cons]
    obtain heq | hmem := ih (s ⊔ d)
    · rw [heq]
      obtain hle | hle := le_total s d
      · exact .inr (by simp [sup_eq_right.mpr hle])
      · exact .inl (sup_eq_left.mpr hle)
    · exact .inr (List.mem_cons_of_mem _ hmem)

end Join

structure JoinLaws {α : Type} (merge : α → α → α) : Prop where
  comm : ∀ a b, merge a b = merge b a
  assoc : ∀ a b c, merge (merge a b) c = merge a (merge b c)
  idem : ∀ a, merge a a = a

theorem JoinLaws.of_injective {α β : Type} [SemilatticeSup β] {merge : α → α → α} {f : α → β}
    (hf : Function.Injective f) (hm : ∀ a b, f (merge a b) = f a ⊔ f b) : JoinLaws merge where
  comm a b := hf (by rw [hm, hm, sup_comm])
  assoc a b c := hf (by rw [hm, hm, hm, hm, sup_assoc])
  idem a := hf (by rw [hm, sup_idem])

theorem JoinLaws.foldl_eq {α : Type} {merge : α → α → α} (h : JoinLaws merge) {s : α} {ds es : List α}
    (hmem : ∀ d, d ∈ ds ↔ d ∈ es) : ds.foldl merge s = es.foldl merge s := by
  let _ : SemilatticeSup α := @SemilatticeSup.mk' α ⟨merge⟩ h.comm h.assoc h.idem
  exact foldl_sup_eq hmem

theorem JoinLaws.right_comm {α : Type} {merge : α → α → α} (h : JoinLaws merge) (a b c : α) :
    merge (merge a b) c = merge (merge a c) b := by
  rw [h.assoc, h.comm b c, h.assoc]

section KeepLarger

variable {α κ : Type} [LinearOrder κ] (key : α → κ)

def keepLarger (a b : α) : α := if key a < key b then b else a

theorem keepLarger_cases (a b : α) : keepLarger key a b = a ∨ keepLarger key a b = b := by
  unfold keepLarger
  split_ifs
  · exact .inr rfl
  · exact .inl rfl

theorem key_keepLarger (a b : α) : key (keepLarger key a b) = max (key a) (key b) := by
  unfold keepLarger
  split_ifs with h
  · exact (max_eq_right h.le).symm
  · exact (max_eq_left (not_lt.mp h)).symm

theorem keepLarger_comm {a b : α} (h : key a = key b → a = b) : keepLarger key a b = keepLarger key b a := by
  unfold keepLarger
  rcases lt_trichotomy (key a) (key b) with hlt | heq | hgt
  · rw [if_pos hlt, if_neg hlt.asymm]
  · simp [h heq]
  · rw [if_neg hgt.asymm, if_pos hgt]

theorem keepLarger_assoc (a b c : α) :
    keepLarger key (keepLarger key a b) c = keepLarger key a (keepLarger key b c) := by
  unfold keepLarger
  by_cases hab : key a < key b
  · by_cases hbc : key b < key c
    · simp only [if_pos hab, if_pos hbc, if_pos (hab.trans hbc)]
    · simp only [if_pos hab, if_neg hbc]
  · by_cases hbc : key b < key c
    · simp only [if_neg hab, if_pos hbc]
    · have hac : ¬ key a < key c := not_lt.mpr ((not_lt.mp hbc).trans (not_lt.mp hab))
      simp only [if_neg hab, if_neg hbc, if_neg hac]

theorem keepLarger_self (a : α) : keepLarger key a a = a := if_neg (lt_irrefl _)

theorem foldl_keepLarger_mem (s : α) (ds : List α) : ds.foldl (keepLarger key) s ∈ s :: ds := by
  induction ds generalizing s with
  | nil => simp
  | cons d ds ih =>
    rw [List.foldl_cons]
    rcases List.mem_cons.mp (ih (keepLarger key s d)) with h | h
    · rw [h]
      rcases keepLarger_cases key s d with hc | hc <;> simp [hc]
    · exact List.mem_cons_of_mem _ (List.mem_cons_of_mem _ h)

theorem key_le_foldl_keepLarger (s : α) (ds : List α) :
    ∀ d ∈ s :: ds, key d ≤ key (ds.foldl (keepLarger key) s) := by
  induction ds generalizing s with
  | nil => simp
  | cons d ds ih =>
    intro x hx
    rw [List.foldl_cons]
    have htop := ih (keepLarger key s d) _ List.mem_cons_self
    rw [key_keepLarger key] at htop
    rcases List.mem_cons.mp hx with rfl | hx
    · exact (le_max_left _ _).trans htop
    · rcases List.mem_cons.mp hx with rfl | hx
      · exact (le_max_right _ _).trans htop
      · exact ih _ x (List.mem_cons_of_mem _ hx)

/-- The state every replica ends in: any start, any order, as long as one state alone has the largest key. -/
theorem foldl_keepLarger_same {s t : α} {ds es : List α} (hmem : ∀ d, d ∈ s :: ds ↔ d ∈ t :: es)
    (htop : ∀ a ∈ s :: ds, ∀ b ∈ s :: ds, (∀ d ∈ s :: ds, key d ≤ key a) → (∀ d ∈ s :: ds, key d ≤ key b) → a = b) :
    ds.foldl (keepLarger key) s = es.foldl (keepLarger key) t := by
  have he := key_le_foldl_keepLarger key t es
  apply htop
  · exact foldl_keepLarger_mem key s ds
  · exact (hmem _).mpr (foldl_keepLarger_mem key t es)
  · exact key_le_foldl_keepLarger key s ds
  · exact fun d hd => he d ((hmem d).mp hd)

theorem foldl_keepLarger_eq {s : α} {ds es : List α}
    (hkey : ∀ a ∈ s :: ds, ∀ b ∈ s :: ds, key a = key b → a = b) (h : ∀ d, d ∈ ds ↔ d ∈ es) :
    ds.foldl (keepLarger key) s = es.foldl (keepLarger key) s := by
  apply foldl_keepLarger_same
  · intro d
    simp only [List.mem_cons, h]
  · intro a ha b hb hleA hleB
    exact hkey a ha b hb (le_antisymm (hleB a ha) (hleA b hb))

theorem foldl_keepLarger_of_top {s : α} {ds : List α} (h : ∀ d ∈ ds, key d ≤ key s) :
    ds.foldl (keepLarger key) s = s := by
  induction ds with
  | nil => rfl
  | cons d ds ih =>
    have hd : keepLarger key s d = s := if_neg (not_lt.mpr (h d (by simp)))
    rw [List.foldl_cons, hd]
    exact ih fun x hx => h x (by simp [hx])

end KeepLarger

end Delivery
