import Mathlib.Algebra.Order.Field.Rat
import Mathlib.Algebra.Order.Ring.Rat
import Mathlib.Order.WithBot
import Tightrope.Library.Bytes
import Tightrope.Library.CreditRounds
import Tightrope.Library.FlatMap

namespace Tightrope.Balancer

open Bytes CreditRounds

section Clamp

def clampUnit (value : ℚ) : ℚ := if value < 0 then 0 else if value > 1 then 1 else value

def clampNonNegative (value : ℚ) : ℚ := if value < 0 then 0 else value

end Clamp

structure AccountCandidate where
  id : Bytes
  active : Bool := true
  healthy : Bool := true
  enabled : Bool := true
  usageRatio : ℚ := 0
  staticWeight : ℚ := 1
  deriving DecidableEq

abbrev CandidateView := List (Option AccountCandidate)

structure EligibilityOptions where
  maxUsageRatio : ℚ := 1
  requireActive : Bool := true
  requireHealthy : Bool := true
  requireEnabled : Bool := true

def isAccountEligible (account : AccountCandidate) (options : EligibilityOptions) : Bool :=
  if options.requireActive ∧ ¬ account.active then false
  else if options.requireHealthy ∧ ¬ account.healthy then false
  else if options.requireEnabled ∧ ¬ account.enabled then false
  else clampUnit account.usageRatio ≤ clampUnit options.maxUsageRatio

def filterEligibleAccounts (accounts : List AccountCandidate) (options : EligibilityOptions) : CandidateView :=
  (accounts.filter fun account => isAccountEligible account options).map some

def usageWeightFromAccount (account : AccountCandidate) : ℚ :=
  let usage := clampUnit account.usageRatio
  let headroom := 1 - usage
  let baseWeight := clampNonNegative account.staticWeight
  headroom * baseWeight

structure WeightedRoundRobinPicker where
  currentWeights : FlatMap Bytes ℚ := .empty

structure Selection where
  seenIds : List Bytes := []
  totalWeight : ℚ := 0
  bestCurrentWeight : WithBot ℚ := ⊥
  best : Option AccountCandidate := none
  currentWeights : FlatMap Bytes ℚ

def visit (selection : Selection) : Option AccountCandidate → Selection
  | none => selection
  | some account =>
    let seen := { selection with seenIds := account.id :: selection.seenIds }
    let weight := usageWeightFromAccount account
    if weight ≤ 0 then seen
    else
      let current := (selection.currentWeights.find? account.id).getD 0 + weight
      let counted := { seen with
        currentWeights := selection.currentWeights.insert account.id current
        totalWeight := selection.totalWeight + weight }
      if selection.bestCurrentWeight < (current : WithBot ℚ) then
        { counted with bestCurrentWeight := current, best := some account }
      else counted

namespace WeightedRoundRobinPicker

def pick (picker : WeightedRoundRobinPicker) (eligibleAccounts : CandidateView) :
    Option AccountCandidate × WeightedRoundRobinPicker :=
  match eligibleAccounts with
  | [] => (none, picker)
  | front :: _ =>
    let selection := eligibleAccounts.foldl visit { currentWeights := picker.currentWeights }
    match selection.best with
    | none => (front, ⟨selection.currentWeights⟩)
    | some best =>
      let paid := selection.currentWeights.update best.id fun current => current.getD 0 - selection.totalWeight
      (some best, ⟨paid.filter fun id _ => id ∈ selection.seenIds⟩)

def pickEligible (picker : WeightedRoundRobinPicker) (accounts : List AccountCandidate) (options : EligibilityOptions) :
    Option AccountCandidate × WeightedRoundRobinPicker :=
  picker.pick (filterEligibleAccounts accounts options)

def picks (eligibleAccounts : CandidateView) : ℕ → List (Option AccountCandidate) × WeightedRoundRobinPicker
  | 0 => ([], {})
  | n + 1 =>
    let before := picks eligibleAccounts n
    let next := before.2.pick eligibleAccounts
    (before.1 ++ [next.1], next.2)

def weights (picker : WeightedRoundRobinPicker) : List ℚ := picker.currentWeights.entries.map Prod.snd

def weightOf (picker : WeightedRoundRobinPicker) (id : Bytes) : ℚ := (picker.currentWeights.find? id).getD 0

section Picking

variable {accounts : List AccountCandidate} {before : FlatMap Bytes ℚ}

def earned (before : FlatMap Bytes ℚ) (account : AccountCandidate) : ℚ :=
  (before.find? account.id).getD 0 + usageWeightFromAccount account

structure Visited (before : FlatMap Bytes ℚ) (visited : List AccountCandidate) (selection : Selection) : Prop where
  seen : ∀ id, id ∈ selection.seenIds ↔ id ∈ visited.map AccountCandidate.id
  total : selection.totalWeight = (visited.map usageWeightFromAccount).sum
  current : ∀ account ∈ visited, selection.currentWeights.find? account.id = some (earned before account)
  others : ∀ id ∉ visited.map AccountCandidate.id, selection.currentWeights.find? id = before.find? id
  best : (visited = [] ∧ selection.best = none ∧ selection.bestCurrentWeight = ⊥) ∨
    ∃ best ∈ visited, selection.best = some best ∧
      selection.bestCurrentWeight = ((earned before best : ℚ) : WithBot ℚ) ∧
      ∀ account ∈ visited, earned before account ≤ earned before best

theorem Visited.visit {visited : List AccountCandidate} {selection : Selection} {account : AccountCandidate}
    (h : Visited before visited selection) (hnew : account.id ∉ visited.map AccountCandidate.id)
    (hpos : 0 < usageWeightFromAccount account) :
    Visited before (visited ++ [account]) (Balancer.visit selection (some account)) := by
  have hcurrent : (selection.currentWeights.find? account.id).getD 0 + usageWeightFromAccount account =
      earned before account := by rw [h.others account.id hnew, earned]
  have hvisit : Balancer.visit selection (some account) =
      let counted : Selection := { selection with
        seenIds := account.id :: selection.seenIds
        currentWeights := selection.currentWeights.insert account.id (earned before account)
        totalWeight := selection.totalWeight + usageWeightFromAccount account }
      if selection.bestCurrentWeight < ((earned before account : ℚ) : WithBot ℚ) then
        { counted with bestCurrentWeight := (earned before account : ℚ), best := some account }
      else counted := by
    simp only [Balancer.visit]
    rw [if_neg (not_le.mpr hpos), hcurrent]
  have hfind : ∀ other ∈ visited ++ [account],
      (selection.currentWeights.insert account.id (earned before account)).find? other.id =
        some (earned before other) := by
    intro other hother
    rw [FlatMap.find?_insert]
    obtain hother | hother := List.mem_append.mp hother
    · have hne : other.id ≠ account.id := fun heq => hnew (heq ▸ List.mem_map_of_mem hother)
      rw [if_neg hne, h.current other hother]
    · rw [List.mem_singleton.mp hother, if_pos rfl]
  have hothers : ∀ id ∉ (visited ++ [account]).map AccountCandidate.id,
      (selection.currentWeights.insert account.id (earned before account)).find? id = before.find? id := by
    intro id hid
    rw [List.map_append, List.mem_append, not_or] at hid
    rw [FlatMap.find?_insert, if_neg (by simpa using hid.2), h.others id hid.1]
  have hseen : ∀ id, id ∈ account.id :: selection.seenIds ↔ id ∈ (visited ++ [account]).map AccountCandidate.id := by
    intro id
    rw [List.mem_cons, h.seen, List.map_append, List.mem_append, or_comm]
    simp
  have htotal : selection.totalWeight + usageWeightFromAccount account =
      ((visited ++ [account]).map usageWeightFromAccount).sum := by
    rw [h.total, List.map_append, List.sum_append, List.map_singleton, List.sum_singleton]
  rw [hvisit]
  split_ifs with hbetter
  · refine ⟨hseen, htotal, hfind, hothers, .inr ⟨account, by simp, rfl, rfl, fun other hother => ?_⟩⟩
    obtain hother | hother := List.mem_append.mp hother
    · obtain ⟨rfl, -⟩ | ⟨best, -, -, hweight, hmost⟩ := h.best
      · simp at hother
      · rw [hweight, WithBot.coe_lt_coe] at hbetter
        exact (hmost other hother).trans hbetter.le
    · rw [List.mem_singleton.mp hother]
  · refine ⟨hseen, htotal, hfind, hothers, .inr ?_⟩
    obtain ⟨-, -, hbottom⟩ | ⟨best, hbest, hchosen, hweight, hmost⟩ := h.best
    · rw [hbottom] at hbetter
      exact absurd (WithBot.bot_lt_coe _) hbetter
    · refine ⟨best, by simp [hbest], hchosen, hweight, fun other hother => ?_⟩
      obtain hother | hother := List.mem_append.mp hother
      · exact hmost other hother
      · rw [hweight, WithBot.coe_lt_coe] at hbetter
        rw [List.mem_singleton.mp hother]
        exact not_lt.mp hbetter

theorem visited_foldl (before : FlatMap Bytes ℚ) (hdistinct : (accounts.map AccountCandidate.id).Nodup)
    (hpos : ∀ account ∈ accounts, 0 < usageWeightFromAccount account) :
    Visited before accounts ((accounts.map some).foldl visit { currentWeights := before }) := by
  induction accounts using List.reverseRecOn with
  | nil => exact ⟨by simp, rfl, by simp, fun id _ => rfl, .inl ⟨rfl, rfl, rfl⟩⟩
  | append_singleton accounts account ih =>
    rw [List.map_append, List.nodup_append] at hdistinct
    rw [List.map_append, List.foldl_append]
    refine (ih hdistinct.1 fun other hother => hpos other (by simp [hother])).visit ?_ (hpos account (by simp))
    exact fun hmem => hdistinct.2.2 _ hmem account.id (by simp) rfl

def Keeps (accounts : List AccountCandidate) (picker : WeightedRoundRobinPicker) : Prop :=
  ∀ id, id ∈ accounts.map AccountCandidate.id ↔ ∃ weight, picker.currentWeights.find? id = some weight

theorem pick_round (picker : WeightedRoundRobinPicker) (hne : accounts ≠ [])
    (hdistinct : (accounts.map AccountCandidate.id).Nodup)
    (hpos : ∀ account ∈ accounts, 0 < usageWeightFromAccount account) :
    ∃ best, (picker.pick (accounts.map some)).1 = some best ∧
      Round accounts.toFinset usageWeightFromAccount (fun account => picker.weightOf account.id) best
        (fun account => (picker.pick (accounts.map some)).2.weightOf account.id) ∧
      Keeps accounts (picker.pick (accounts.map some)).2 := by
  have h := visited_foldl picker.currentWeights hdistinct hpos
  obtain ⟨rfl, -⟩ | ⟨best, hbest, hchosen, -, hmost⟩ := h.best
  · exact absurd rfl hne
  let selection := (accounts.map some).foldl visit { currentWeights := picker.currentWeights }
  have hpick : picker.pick (accounts.map some) = (some best,
      ⟨(selection.currentWeights.update best.id fun current => current.getD 0 - selection.totalWeight).filter
        fun id _ => id ∈ selection.seenIds⟩) := by
    obtain ⟨first, rest, rfl⟩ := List.exists_cons_of_ne_nil hne
    simp only [pick, List.map_cons] at hchosen ⊢
    rw [hchosen]
    rfl
  have hfind : ∀ account ∈ accounts, (picker.pick (accounts.map some)).2.currentWeights.find? account.id =
      some (earned picker.currentWeights account -
        if account = best then (accounts.map usageWeightFromAccount).sum else 0) := by
    intro account haccount
    have hseen : account.id ∈ selection.seenIds := (h.seen account.id).mpr (List.mem_map_of_mem haccount)
    rw [hpick, FlatMap.find?_filter, FlatMap.find?_update, h.current account haccount, h.current best hbest, h.total]
    by_cases hid : account.id = best.id
    · obtain rfl := List.inj_on_of_nodup_map hdistinct haccount hbest hid
      simp [hseen]
    · have haccount' : account ≠ best := fun heq => hid (congrArg _ heq)
      simp [hseen, hid, haccount']
  have hnodup : accounts.Nodup := .of_map _ hdistinct
  refine ⟨best, by rw [hpick], ⟨List.mem_toFinset.mpr hbest, fun account haccount => ?_, fun account haccount => ?_⟩,
    fun id => ⟨fun hid => ?_, fun hid => ?_⟩⟩
  · exact hmost account (List.mem_toFinset.mp haccount)
  · simp only [weightOf]
    rw [hfind account (List.mem_toFinset.mp haccount), List.sum_toFinset _ hnodup]
    rfl
  · obtain ⟨account, haccount, rfl⟩ := List.mem_map.mp hid
    exact ⟨_, hfind account haccount⟩
  · obtain ⟨weight, hweight⟩ := hid
    rw [hpick, FlatMap.find?_filter, Option.filter_eq_some_iff] at hweight
    exact (h.seen id).mp (by simpa using hweight.2)

theorem rounds_picks (hne : accounts ≠ []) (hdistinct : (accounts.map AccountCandidate.id).Nodup)
    (hpos : ∀ account ∈ accounts, 0 < usageWeightFromAccount account) (n : ℕ) :
    ∃ served, (picks (accounts.map some) n).1 = served.map some ∧ served.length = n ∧
      Rounds accounts.toFinset usageWeightFromAccount served
        (fun account => (picks (accounts.map some) n).2.weightOf account.id) ∧
      (0 < n → Keeps accounts (picks (accounts.map some) n).2) := by
  induction n with
  | zero => exact ⟨[], rfl, rfl, .start fun _ _ => rfl, fun h => absurd h (lt_irrefl _)⟩
  | succ n ih =>
    obtain ⟨served, hserved, hlength, hrounds, -⟩ := ih
    obtain ⟨best, hbest, hround, hkeeps⟩ := pick_round (picks (accounts.map some) n).2 hne hdistinct hpos
    refine ⟨served ++ [best], ?_, by rw [List.length_append, hlength, List.length_singleton], hrounds.round hround,
      fun _ => hkeeps⟩
    rw [picks, hserved, hbest, List.map_append, List.map_singleton]

theorem weights_perm {picker : WeightedRoundRobinPicker} (hdistinct : (accounts.map AccountCandidate.id).Nodup)
    (h : Keeps accounts picker) : picker.weights.Perm (accounts.map fun account => picker.weightOf account.id) := by
  have hentries : picker.currentWeights.entries.Perm
      (accounts.map fun account => (account.id, picker.weightOf account.id)) := by
    have hnodup : (accounts.map fun account => (account.id, picker.weightOf account.id)).Nodup :=
      .of_map Prod.fst (by rwa [List.map_map])
    refine (List.perm_ext_iff_of_nodup picker.currentWeights.nodup_entries hnodup).mpr ?_
    rintro ⟨id, weight⟩
    rw [FlatMap.mem_entries, List.mem_map]
    constructor
    · intro hfind
      obtain ⟨account, haccount, rfl⟩ := List.mem_map.mp ((h id).mpr ⟨weight, hfind⟩)
      exact ⟨account, haccount, by rw [weightOf, hfind, Option.getD_some]⟩
    · rintro ⟨account, haccount, heq⟩
      obtain ⟨weight', hfind⟩ := (h account.id).mp (List.mem_map_of_mem haccount)
      obtain ⟨rfl, rfl⟩ := Prod.mk.inj heq
      rw [weightOf, hfind, Option.getD_some]
  have hmap := hentries.map Prod.snd
  rwa [List.map_map] at hmap

theorem picks_nil (n : ℕ) : (picks [] n).2 = {} := by
  induction n with
  | zero => rfl
  | succ n ih => rw [picks, ih]; rfl

end Picking

section Fairness

/-- Accounts under different names that have used nothing, each with a number as its weight. -/
structure IntegerWeights (accounts : List AccountCandidate) (shares : AccountCandidate → ℕ) : Prop where
  distinct : (accounts.map AccountCandidate.id).Nodup
  positive : ∀ account ∈ accounts, 0 < shares account
  unused : ∀ account ∈ accounts, account.usageRatio = 0
  weight : ∀ account ∈ accounts, account.staticWeight = shares account

variable {accounts : List AccountCandidate} {shares : AccountCandidate → ℕ}

theorem IntegerWeights.usageWeight (h : IntegerWeights accounts shares) {account : AccountCandidate}
    (haccount : account ∈ accounts) : usageWeightFromAccount account = shares account := by
  have hunused : clampUnit account.usageRatio = 0 := by
    rw [h.unused account haccount, clampUnit, if_neg (lt_irrefl _), if_neg (not_lt.mpr zero_le_one)]
  have hweight : clampNonNegative account.staticWeight = shares account := by
    rw [h.weight account haccount, clampNonNegative, if_neg (not_lt.mpr (Nat.cast_nonneg _))]
  rw [usageWeightFromAccount, hunused, hweight, sub_zero, one_mul]

theorem picks_fair (h : IntegerWeights accounts shares) :
    let total := (accounts.map shares).sum
    (∀ n, (picks (accounts.map some) n).2.weights.sum = 0 ∧
      ∀ weight ∈ (picks (accounts.map some) n).2.weights,
        -(total : ℚ) < weight ∧ weight ≤ total * (harmonic accounts.length - 1)) ∧
    (∀ weight ∈ (picks (accounts.map some) total).2.weights, weight = 0) ∧
    ∀ account ∈ accounts, (picks (accounts.map some) total).1.count (some account) = shares account := by
  intro total
  obtain rfl | hne := eq_or_ne accounts []
  · simp [picks_nil, weights, FlatMap.empty]
  have hnodup : accounts.Nodup := .of_map _ h.distinct
  have hpos : ∀ account ∈ accounts, 0 < usageWeightFromAccount account := by
    intro account haccount
    rw [h.usageWeight haccount]
    exact Nat.cast_pos.mpr (h.positive account haccount)
  have hpos' : ∀ account ∈ accounts.toFinset, 0 < usageWeightFromAccount account :=
    fun account haccount => hpos account (List.mem_toFinset.mp haccount)
  have hshares : ∀ account ∈ accounts.toFinset, usageWeightFromAccount account = shares account :=
    fun account haccount => h.usageWeight (List.mem_toFinset.mp haccount)
  have htotal : ∑ account ∈ accounts.toFinset, shares account = total := List.sum_toFinset _ hnodup
  have htotal' : ∑ account ∈ accounts.toFinset, usageWeightFromAccount account = (total : ℚ) := by
    rw [Finset.sum_congr rfl hshares, ← htotal, Nat.cast_sum]
  have hcard : accounts.toFinset.card = accounts.length := List.toFinset_card_of_nodup hnodup
  have hstored : ∀ n, ∃ served, (picks (accounts.map some) n).1 = served.map some ∧ served.length = n ∧
      Rounds accounts.toFinset usageWeightFromAccount served
        (fun account => (picks (accounts.map some) n).2.weightOf account.id) ∧
      (picks (accounts.map some) n).2.weights.sum = 0 ∧ ∀ weight ∈ (picks (accounts.map some) n).2.weights,
        ∃ account ∈ accounts.toFinset, (picks (accounts.map some) n).2.weightOf account.id = weight := by
    intro n
    obtain ⟨served, hserved, hlength, hrounds, hkeeps⟩ := rounds_picks hne h.distinct hpos n
    refine ⟨served, hserved, hlength, hrounds, ?_⟩
    cases n with
    | zero => exact ⟨rfl, fun weight hweight => absurd hweight List.not_mem_nil⟩
    | succ n =>
      have hperm := weights_perm h.distinct (hkeeps n.succ_pos)
      refine ⟨?_, fun weight hweight => ?_⟩
      · rw [hperm.sum_eq, ← List.sum_toFinset _ hnodup]
        exact hrounds.sum_eq_zero
      · obtain ⟨account, haccount, heq⟩ := List.mem_map.mp (hperm.mem_iff.mp hweight)
        exact ⟨account, List.mem_toFinset.mpr haccount, heq⟩
  refine ⟨fun n => ?_, ?_⟩
  · obtain ⟨served, -, -, hrounds, hsum, hmem⟩ := hstored n
    refine ⟨hsum, fun weight hweight => ?_⟩
    obtain ⟨account, haccount, rfl⟩ := hmem weight hweight
    have hlower := hrounds.lower hpos' haccount
    have hupper := hrounds.credit_le hpos' haccount
    rw [htotal'] at hlower hupper
    rw [hcard] at hupper
    exact ⟨hlower, hupper⟩
  · obtain ⟨served, hserved, hlength, hrounds, -, hmem⟩ := hstored total
    have hpositive : ∀ account ∈ accounts.toFinset, 0 < shares account :=
      fun account haccount => h.positive account (List.mem_toFinset.mp haccount)
    refine ⟨fun weight hweight => ?_, fun account haccount => ?_⟩
    · obtain ⟨account, haccount, rfl⟩ := hmem weight hweight
      have hzero := hrounds.cycle hshares hpositive (hlength.trans htotal.symm) haccount
      exact hzero
    · rw [hserved, List.count_map_of_injective _ _ (Option.some_injective _)]
      exact hrounds.count_eq hshares hpositive (hlength.trans htotal.symm) (List.mem_toFinset.mpr haccount)

def sampleAccounts : List AccountCandidate :=
  [("a", 1), ("b", 1), ("c", 1), ("d", 6), ("e", 6)].map fun entry =>
    { id := ofString entry.1, staticWeight := entry.2 }

theorem picks_fair_sampleAccounts :
    (picks (sampleAccounts.map some) 10).2.weights.sum = 0 ∧
    (∀ weight ∈ (picks (sampleAccounts.map some) 10).2.weights, -15 < weight ∧ weight ≤ 15 * (harmonic 5 - 1)) ∧
    (∀ weight ∈ (picks (sampleAccounts.map some) 15).2.weights, weight = 0) ∧
    (picks (sampleAccounts.map some) 15).1.count (some { id := ofString "d", staticWeight := 6 }) = 6 := by
  have hweights : IntegerWeights sampleAccounts fun account => account.staticWeight.num.toNat :=
    ⟨by decide, by decide, by decide, by decide⟩
  obtain ⟨hcredit, hcycle, hcount⟩ := picks_fair hweights
  exact ⟨(hcredit 10).1, (hcredit 10).2, hcycle, hcount _ (by decide)⟩

theorem weight_reaches_total :
    (15 : ℚ) ∈ (picks (sampleAccounts.map some) 10).2.weights ∧
      (sampleAccounts.map AccountCandidate.staticWeight).sum = 15 := by
  decide +kernel

end Fairness

end WeightedRoundRobinPicker

end Tightrope.Balancer
