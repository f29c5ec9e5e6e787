import Mathlib.Data.List.Basic
import Mathlib.Data.List.Forall2

/-!
Computations that may fail: what a success says of the parts.
Computations that may fail and note down what they do on the way: the notes stand whether or not there is a result.
-/

namespace Fallible

variable {ε α β : Type}

theorem bind_eq_ok {x : Except ε α} {f : α → Except ε β} {b : β} :
    (x >>= f) = .ok b ↔ ∃ a, x = .ok a ∧ f a = .ok b := by
  cases x with
  | error text =>
    constructor
    · nofun
    · rintro ⟨a, ha, -⟩
      cases ha
  | ok a =>
    constructor
    · intro h
      exact ⟨a, rfl, h⟩
    · rintro ⟨a', ha, hb⟩
      cases ha
      exact hb

theorem bind_eq_error {x : Except ε α} {f : α → Except ε β} {e : ε} :
    (x >>= f) = .error e ↔ x = .error e ∨ ∃ a, x = .ok a ∧ f a = .error e := by
  cases x with
  | error text =>
    constructor
    · intro h
      cases h
      exact .inl rfl
    · rintro (h | ⟨a, ha, -⟩)
      · cases h
        rfl
      · cases ha
  | ok a =>
    constructor
    · intro h
      exact .inr ⟨a, rfl, h⟩
    · rintro (h | ⟨a', ha, he⟩)
      · cases h
      · cases ha
        exact he

theorem map_eq_ok {x : Except ε α} {f : α → β} {b : β} : x.map f = .ok b ↔ ∃ a, x = .ok a ∧ f a = b := by
  cases x with
  | error text =>
    constructor
    · nofun
    · rintro ⟨a, ha, -⟩
      cases ha
  | ok a =>
    constructor
    · intro h
      exact ⟨a, rfl, Except.ok.inj h⟩
    · rintro ⟨a', ha, hb⟩
      cases ha
      exact congrArg Except.ok hb

theorem mem_of_mapM_ok {f : α → Except ε β} {xs : List α} {ys : List β} (h : xs.mapM f = .ok ys) {y : β} (hy : y ∈ ys) :
    ∃ x ∈ xs, f x = .ok y := by
  induction xs generalizing ys with
  | nil =>
    cases h
    cases hy
  | cons x xs ih =>
    rw [List.mapM_cons] at h
    obtain ⟨z, hz, h⟩ := bind_eq_ok.mp h
    obtain ⟨zs, hzs, h⟩ := bind_eq_ok.mp h
    cases h
    obtain rfl | hy := List.mem_cons.mp hy
    · exact ⟨x, List.mem_cons_self, hz⟩
    · obtain ⟨x', hx', hfx⟩ := ih hzs hy
      exact ⟨x', List.mem_cons_of_mem _ hx', hfx⟩

structure Appends {γ : Type} (R : List γ → List γ → Prop) : Prop where
  nil : R [] []
  append : ∀ {l l' m m'}, R l l' → R m m' → R (l ++ m) (l' ++ m')

structure Collects {γ : Type} (R : List γ → List γ → Prop) : Prop extends Appends R where
  refl : ∀ l, R l l
  trans : ∀ {l l' l''}, R l l' → R l' l'' → R l l''

theorem collects_eq {γ : Type} : Collects (γ := γ) Eq where
  nil := rfl
  append := by
    rintro _ _ _ _ rfl rfl
    rfl
  refl _ := rfl
  trans := Eq.trans

theorem collects_sublist {γ : Type} : Collects (γ := γ) List.Sublist where
  nil := .slnil
  append := List.Sublist.append
  refl := List.Sublist.refl
  trans := List.Sublist.trans

theorem appends_eq {γ : Type} : Appends (γ := γ) Eq := collects_eq.toAppends

theorem appends_sublist {γ : Type} : Appends (γ := γ) List.Sublist := collects_sublist.toAppends

theorem appends_forall₂ {γ : Type} {S : γ → γ → Prop} : Appends (List.Forall₂ S) where
  nil := .nil
  append h h' := List.rel_append h h'

/-- What is collected from the inputs is related to what is collected from the results. -/
theorem flatMap_mapM {γ : Type} {R : List γ → List γ → Prop} (hR : Appends R) {f : α → Except ε β}
    {g : α → List γ} {g' : β → List γ} (hf : ∀ a b, f a = .ok b → R (g a) (g' b)) {xs : List α} {ys : List β}
    (h : xs.mapM f = .ok ys) : R (xs.flatMap g) (ys.flatMap g') := by
  induction xs generalizing ys with
  | nil =>
    cases h
    exact hR.nil
  | cons x xs ih =>
    rw [List.mapM_cons] at h
    obtain ⟨y, hy, h⟩ := bind_eq_ok.mp h
    obtain ⟨ys', hys, h⟩ := bind_eq_ok.mp h
    cases h
    exact hR.append (hf x y hy) (ih hys)

/-- A loop keeps what each of its steps keeps. -/
theorem foldlM_keeps {σ : Type} {f : σ → α → Except ε σ} {P : σ → Prop} {xs : List α}
    (hf : ∀ s, ∀ a ∈ xs, ∀ s', P s → f s a = .ok s' → P s') {s s' : σ} (hs : P s) (h : xs.foldlM f s = .ok s') :
    P s' := by
  induction xs generalizing s with
  | nil =>
    cases h
    exact hs
  | cons x xs ih =>
    rw [List.foldlM_cons] at h
    obtain ⟨s₁, hs₁, h⟩ := bind_eq_ok.mp h
    exact ih (fun s a ha => hf s a (List.mem_cons_of_mem _ ha)) (hf s x List.mem_cons_self s₁ hs hs₁) h

/-- A loop that collects adds what each input gives. -/
theorem foldlM_collects {σ γ : Type} {R : List γ → List γ → Prop} (hR : Collects R) {f : σ → α → Except ε σ}
    {held : σ → List γ} {g : α → List γ} (hf : ∀ s a s', f s a = .ok s' → R (held s ++ g a) (held s')) {xs : List α}
    {s s' : σ} (h : xs.foldlM f s = .ok s') : R (held s ++ xs.flatMap g) (held s') := by
  induction xs generalizing s with
  | nil =>
    cases h
    rw [List.flatMap_nil, List.append_nil]
    exact hR.refl _
  | cons x xs ih =>
    rw [List.foldlM_cons] at h
    obtain ⟨s₁, hs, h⟩ := bind_eq_ok.mp h
    rw [List.flatMap_cons, ← List.append_assoc]
    exact hR.trans (hR.append (hf s x s₁ hs) (hR.refl _)) (ih h)

theorem mem_of_mapM {f : α → Option β} {xs : List α} {ys : List β} (h : xs.mapM f = some ys) {y : β} (hy : y ∈ ys) :
    ∃ x ∈ xs, f x = some y := by
  induction xs generalizing ys with
  | nil =>
    cases h
    cases hy
  | cons x xs ih =>
    rw [List.mapM_cons] at h
    obtain ⟨z, hz, h⟩ := Option.bind_eq_some_iff.mp h
    obtain ⟨zs, hzs, h⟩ := Option.bind_eq_some_iff.mp h
    cases h
    obtain rfl | hy := List.mem_cons.mp hy
    · exact ⟨x, List.mem_cons_self, hz⟩
    · obtain ⟨x', hx', hfx⟩ := ih hzs hy
      exact ⟨x', List.mem_cons_of_mem _ hx', hfx⟩

end Fallible

structure Traced (L α : Type) where
  notes : List L
  result : Option α

namespace Traced

variable {L α β : Type}

def lift (a : Option α) : Traced L α := ⟨[], a⟩

def note (l : L) : Traced L Unit := ⟨[l], some ()⟩

def bind (x : Traced L α) (f : α → Traced L β) : Traced L β :=
  match x.result with
  | none => ⟨x.notes, none⟩
  | some a => ⟨x.notes ++ (f a).notes, (f a).result⟩

def Notes (P : L → Prop) (x : Traced L α) : Prop := ∀ l ∈ x.notes, P l

variable {P : L → Prop}

@[simp] theorem result_lift (a : Option α) : (lift a : Traced L α).result = a := rfl

@[simp] theorem result_note (l : L) : (note l).result = some () := rfl

@[simp] theorem result_bind (x : Traced L α) (f : α → Traced L β) :
    (x.bind f).result = x.result.bind fun a => (f a).result := by
  unfold bind
  cases x.result <;> rfl

@[simp] theorem notes_lift (a : Option α) : (lift a : Traced L α).Notes P := fun _ hl => nomatch hl

@[simp] theorem notes_note {l : L} : (note l).Notes P ↔ P l := List.forall_mem_singleton

@[simp] theorem notes_bind {x : Traced L α} {f : α → Traced L β} :
    (x.bind f).Notes P ↔ x.Notes P ∧ ∀ a, x.result = some a → (f a).Notes P := by
  unfold bind Notes
  cases x.result with
  | none => simp
  | some a => simp [or_imp, forall_and]

end Traced
