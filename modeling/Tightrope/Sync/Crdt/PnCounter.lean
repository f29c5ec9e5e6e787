import Mathlib.Algebra.Order.Group.Int
import Tightrope.Library.FlatMap
import Tightrope.Library.MachineWords

namespace Tightrope.Sync.Crdt

open MachineWords

-- Counts only enter through `increment` and `set_count`, which keep them non-negative; an
-- increment past the int64 range is undefined behaviour in the source, so sums do not wrap here.
structure GCounter (K : Type) [LinearOrder K] where
  counts : FlatMap K ℤ
  nonneg : ∀ site count, counts.find? site = some count → 0 ≤ count

namespace GCounter

variable {K : Type} [LinearOrder K]

theorem ext {a b : GCounter K} (h : a.counts = b.counts) : a = b := by
  cases a; cases b; simpa using h

instance : DecidableEq (GCounter K) := fun a b =>
  decidable_of_iff (a.counts = b.counts) ⟨ext, fun h => h ▸ rfl⟩

def empty : GCounter K := ⟨.empty, by simp⟩

def count (g : GCounter K) (site : K) : ℤ := (g.counts.find? site).getD 0

theorem count_nonneg (g : GCounter K) (site : K) : 0 ≤ g.count site := by
  cases h : g.counts.find? site with
  | none => simp [count, h]
  | some c => simpa [count, h] using g.nonneg site c h

theorem nonneg_update (g : GCounter K) (site : K) (f : Option ℤ → ℤ)
    (hf : 0 ≤ f (g.counts.find? site)) (k : K) (c : ℤ)
    (h : (g.counts.update site f).find? k = some c) : 0 ≤ c := by
  rw [FlatMap.find?_update] at h
  split_ifs at h
  · exact Option.some.inj h ▸ hf
  · exact g.nonneg k c h

def increment (g : GCounter K) (site : K) (delta : ℤ) : GCounter K :=
  if h : delta ≤ 0 then g
  else ⟨g.counts.update site (fun old => old.getD 0 + delta),
    nonneg_update g site _ (by have := g.count_nonneg site; simp only [count] at this; omega)⟩

def setCount (g : GCounter K) (site : K) (absoluteValue : ℤ) : GCounter K :=
  ⟨g.counts.update site (fun _ => max absoluteValue 0), nonneg_update g site _ (le_max_right _ _)⟩

def value (g : GCounter K) : ℤ := g.counts.entries.foldl (fun sum e => sum + e.2) 0

def mergeSlot : Option ℤ → ℤ → ℤ
  | none, count => count
  | some own, count => max own count

theorem mergeWith_eq_sup (a b : FlatMap K ℤ) : a.mergeWith mergeSlot b = a ⊔ b := by
  apply FlatMap.ext_find?
  intro k
  rw [FlatMap.find?_mergeWith, FlatMap.find?_sup]
  cases a.find? k <;> rfl

def merge (g other : GCounter K) : GCounter K :=
  ⟨g.counts.mergeWith mergeSlot other.counts, by
    intro k c h
    rw [mergeWith_eq_sup, FlatMap.find?_sup] at h
    cases ho : other.counts.find? k with
    | none => exact g.nonneg k c (by simpa [ho] using h)
    | some o =>
      have hc := other.nonneg k o ho
      cases hg : g.counts.find? k with
      | none =>
        have hoc : o = c := by simpa [ho, hg] using h
        exact hoc ▸ hc
      | some d =>
        have hdc : max d o = c := by simpa [ho, hg] using h
        exact hdc ▸ le_max_of_le_right hc⟩

theorem counts_merge (a b : GCounter K) : (a.merge b).counts = a.counts ⊔ b.counts := mergeWith_eq_sup _ _

theorem count_merge (a b : GCounter K) (site : K) :
    (a.merge b).count site = max (a.count site) (b.count site) := by
  have ha := a.count_nonneg site
  have hb := b.count_nonneg site
  simp only [count, counts_merge, FlatMap.find?_sup] at *
  cases ca : a.counts.find? site <;> cases cb : b.counts.find? site <;> simp_all

end GCounter

structure PNCounter where
  positive : GCounter UInt32
  negative : GCounter UInt32
  deriving DecidableEq

namespace PNCounter

def empty : PNCounter := ⟨.empty, .empty⟩

def add (c : PNCounter) (siteId : UInt32) (delta : ℤ) : PNCounter :=
  if delta ≥ 0 then { c with positive := c.positive.increment siteId delta }
  else { c with negative := c.negative.increment siteId (-delta) }

def setSiteCounts (c : PNCounter) (siteId : UInt32) (positive negative : ℤ) : PNCounter :=
  ⟨c.positive.setCount siteId positive, c.negative.setCount siteId negative⟩

def value (c : PNCounter) : ℤ := c.positive.value - c.negative.value

def merge (c other : PNCounter) : PNCounter :=
  ⟨c.positive.merge other.positive, c.negative.merge other.negative⟩

def counts (c : PNCounter) : FlatMap UInt32 ℤ × FlatMap UInt32 ℤ := (c.positive.counts, c.negative.counts)

theorem counts_injective : Function.Injective counts := by
  rintro ⟨p, n⟩ ⟨p', n'⟩ h
  obtain ⟨hp, hn⟩ := Prod.mk.inj h
  exact congrArg₂ PNCounter.mk (GCounter.ext hp) (GCounter.ext hn)

theorem counts_merge (a b : PNCounter) : (a.merge b).counts = a.counts ⊔ b.counts :=
  Prod.ext (GCounter.counts_merge _ _) (GCounter.counts_merge _ _)

end PNCounter

end Tightrope.Sync.Crdt
