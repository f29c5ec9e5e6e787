import Mathlib.Algebra.Order.Field.Basic
import Mathlib.Tactic.Linarith
import Mathlib.Tactic.Ring

/-!
A token bucket: a level that rises at a fixed rate up to a cap, and from which amounts are drawn.
-/

namespace TokenBucket

variable {K : Type} [Field K] [LinearOrder K]

def fill (cap rate level elapsed : K) : K := min cap (level + rate * elapsed)

variable {cap rate level elapsed : K}

theorem fill_le_cap : fill cap rate level elapsed ≤ cap := min_le_left _ _

theorem fill_le : fill cap rate level elapsed ≤ level + rate * elapsed := min_le_right _ _

theorem fill_zero (h : level ≤ cap) : fill cap rate level 0 = level := by
  rw [fill, mul_zero, add_zero, min_eq_right h]

variable [IsStrictOrderedRing K]

theorem le_fill {low : K} (hrate : 0 ≤ rate) (helapsed : 0 ≤ elapsed) (hcap : low ≤ cap) (hlevel : low ≤ level) :
    low ≤ fill cap rate level elapsed := by
  have hgain := mul_nonneg hrate helapsed
  exact le_min hcap (by linarith)

/-- Filling in two steps is filling once. -/
theorem fill_add_le {low since : K} (hrate : 0 ≤ rate) (helapsed : 0 ≤ elapsed)
    (hlevel : fill cap rate low since ≤ level) :
    fill cap rate low (since + elapsed) ≤ fill cap rate level elapsed := by
  have hgain := mul_nonneg hrate helapsed
  refine le_min fill_le_cap ?_
  obtain hfull | hbelow := min_choice cap (low + rate * since)
  · have hcap : cap ≤ level := by rwa [fill, hfull] at hlevel
    exact fill_le_cap.trans (by linarith)
  · have hlow : low + rate * since ≤ level := by rwa [fill, hbelow] at hlevel
    refine fill_le.trans ?_
    linarith [mul_add rate since elapsed]

/-- Of what was drawn since `start`: nothing, or no more than the cap and what ran in, less what is left. -/
def Drawn (cap rate start total level stamp : K) : Prop :=
  total = 0 ∨ start ≤ stamp ∧ level + total ≤ cap + rate * (stamp - start)

variable {start total stamp now amount : K}

theorem Drawn.refill (h : Drawn cap rate start total level stamp) (hnow : stamp ≤ now) :
    Drawn cap rate start total (fill cap rate level (now - stamp)) now := by
  obtain hzero | ⟨hstart, hlevel⟩ := h
  · exact .inl hzero
  · refine .inr ⟨hstart.trans hnow, ?_⟩
    have hfill : fill cap rate level (now - stamp) ≤ level + rate * (now - stamp) := fill_le
    linarith [mul_sub rate now stamp, mul_sub rate stamp start, mul_sub rate now start]

theorem Drawn.draw (h : Drawn cap rate start total level stamp) (hrate : 0 ≤ rate) (hcap : level ≤ cap)
    (hstart : start ≤ stamp) : Drawn cap rate start (total + amount) (level - amount) stamp := by
  refine .inr ⟨hstart, ?_⟩
  have hgain := mul_nonneg hrate (sub_nonneg.mpr hstart)
  obtain hzero | ⟨-, hlevel⟩ := h <;> linarith

/-- Whatever the debt that a bucket may run into, a window of time lets through the cap, what runs in, and the debt. -/
theorem Drawn.le {debt stop : K} (h : Drawn cap rate start total level stamp) (hrate : 0 ≤ rate) (hcap : 0 ≤ cap)
    (hdebt : 0 ≤ debt) (hlevel : -debt ≤ level) (hstart : start ≤ stop) (hstop : stamp ≤ stop) :
    total ≤ cap + rate * (stop - start) + debt := by
  obtain hzero | ⟨-, htotal⟩ := h
  · have hgain := mul_nonneg hrate (sub_nonneg.mpr hstart)
    linarith
  · have hgain := mul_le_mul_of_nonneg_left (sub_le_sub_right hstop start) hrate
    linarith

end TokenBucket
