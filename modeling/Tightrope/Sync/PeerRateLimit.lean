import Mathlib.Data.List.Induction
import Tightrope.Library.TokenBucket
import Tightrope.Sync.PeerIngress

namespace Tightrope.Sync

open Bytes TokenBucket

structure RateLimitCall where
  peerSiteId : UInt32
  entryCount : ℕ
  now : ℚ
  deriving DecidableEq, Repr

structure RateLimitRun where
  buckets : FlatMap UInt32 PeerRateBucket := .empty
  log : List (RateLimitCall × Bool) := []

def RateLimitRun.serve (limits : IngressLimits) (r : RateLimitRun) (call : RateLimitCall) : RateLimitRun :=
  let result := consumePeerRateLimitTokens limits call.now call.peerSiteId call.entryCount r.buckets
  { buckets := result.1, log := r.log ++ [(call, result.2.isNone)] }

def serveAll (limits : IngressLimits) (calls : List RateLimitCall) : RateLimitRun := calls.foldl (.serve limits) {}

/-- The entries that a peer was let in with between two moments. -/
def entriesAdmitted (log : List (RateLimitCall × Bool)) (peerSiteId : UInt32) (start stop : ℚ) : ℕ :=
  ((log.filter fun (call, admitted) => admitted && call.peerSiteId = peerSiteId && start ≤ call.now &&
    call.now ≤ stop).map
    fun entry => entry.1.entryCount).sum

def kTolerance : ℚ := 1 / 10 ^ 9

section Call

variable (limits : IngressLimits) (now : ℚ)

def available (bucket : Option PeerRateBucket) : ℚ :=
  min (refill limits now bucket).tokens limits.peerRateLimitBurstEntries

variable {limits now} {peerSiteId : UInt32} {entryCount : ℕ} {buckets : FlatMap UInt32 PeerRateBucket}

theorem available_le (bucket : Option PeerRateBucket) : available limits now bucket ≤
    limits.peerRateLimitBurstEntries :=
  min_le_right _ _

theorem available_none : available limits now none = limits.peerRateLimitBurstEntries := min_self _

theorem refill_some {bucket : PeerRateBucket} (htokens : bucket.tokens ≤ limits.peerRateLimitBurstEntries)
    (hnow : bucket.lastRefill ≤ now) :
    available limits now (some bucket) = fill limits.peerRateLimitBurstEntries limits.peerRateLimitEntriesPerSecond
        bucket.tokens (now - bucket.lastRefill) ∧
      (refill limits now (some bucket)).lastRefill = now := by
  unfold available refill
  dsimp only
  split_ifs with helapsed
  · refine ⟨?_, rfl⟩
    rw [min_eq_left (min_le_left _ _), fill, mul_comm]
  · have hsame : now = bucket.lastRefill := by linarith
    rw [hsame, sub_self, fill_zero htokens]
    exact ⟨min_eq_left htokens, rfl⟩

theorem consumePeerRateLimitTokens_cases (hrate : 0 < limits.peerRateLimitEntriesPerSecond)
    {result : FlatMap UInt32 PeerRateBucket × Option Bytes}
    (h : consumePeerRateLimitTokens limits now peerSiteId entryCount buckets = result) :
    (result = (buckets, none) ∧ entryCount = 0) ∨
      (result.1 = buckets ∧ result.2.isNone = false ∧ limits.peerRateLimitBurstEntries < entryCount) ∨
      (result.1 = buckets.insert peerSiteId
          ⟨available limits now (buckets.find? peerSiteId), (refill limits now (buckets.find? peerSiteId)).lastRefill⟩ ∧
        result.2.isNone = false ∧ available limits now (buckets.find? peerSiteId) + kTolerance < entryCount) ∨
      (result.1 = buckets.insert peerSiteId
          ⟨available limits now (buckets.find? peerSiteId) - entryCount,
            (refill limits now (buckets.find? peerSiteId)).lastRefill⟩ ∧
        result.2.isNone = true ∧ 0 < entryCount ∧
        entryCount ≤ available limits now (buckets.find? peerSiteId) + kTolerance) := by
  subst h
  unfold consumePeerRateLimitTokens
  by_cases hzero : entryCount = 0
  · exact .inl ⟨if_pos (.inl hzero), hzero⟩
  · have hneither : ¬ (entryCount = 0 ∨ limits.peerRateLimitEntriesPerSecond ≤ 0) := by
      rintro (h | h)
      · exact hzero h
      · exact not_lt.mpr h hrate
    rw [if_neg hneither]
    right
    by_cases hburst : (entryCount : ℚ) > limits.peerRateLimitBurstEntries
    · rw [if_pos hburst]
      exact .inl ⟨rfl, rfl, hburst⟩
    · rw [if_neg hburst]
      right
      by_cases hshort : available limits now (buckets.find? peerSiteId) + kTolerance < entryCount
      · left
        unfold available kTolerance at *
        dsimp only
        rw [if_pos hshort]
        exact ⟨rfl, rfl, hshort⟩
      · right
        unfold available kTolerance at *
        dsimp only
        rw [if_neg hshort]
        exact ⟨rfl, rfl, Nat.pos_of_ne_zero hzero, not_lt.mp hshort⟩

end Call

section Log

variable {log : List (RateLimitCall × Bool)} {call : RateLimitCall} {admitted : Bool} {peerSiteId : UInt32}
  {start stop : ℚ}

def Counts (peerSiteId : UInt32) (start stop : ℚ) (entry : RateLimitCall × Bool) : Prop :=
  entry.2 = true ∧ entry.1.peerSiteId = peerSiteId ∧ start ≤ entry.1.now ∧ entry.1.now ≤ stop

theorem entriesAdmitted_append_of_counts (h : Counts peerSiteId start stop (call, admitted)) :
    entriesAdmitted (log ++ [(call, admitted)]) peerSiteId start stop =
      entriesAdmitted log peerSiteId start stop + call.entryCount := by
  obtain ⟨hadmitted, hpeer, hstart, hstop⟩ := h
  simp only at hadmitted hpeer hstart hstop
  simp [entriesAdmitted, hadmitted, hpeer, hstart, hstop]

theorem entriesAdmitted_append_of_not_counts (h : ¬ Counts peerSiteId start stop (call, admitted)) :
    entriesAdmitted (log ++ [(call, admitted)]) peerSiteId start stop = entriesAdmitted log peerSiteId start stop := by
  have hnot : (admitted && decide (call.peerSiteId = peerSiteId) && decide (start ≤ call.now) &&
      decide (call.now ≤ stop)) = false := by
    rw [← Bool.not_eq_true]
    simp only [Bool.and_eq_true, decide_eq_true_eq]
    rintro ⟨⟨⟨hadmitted, hpeer⟩, hstart⟩, hstop⟩
    exact h ⟨hadmitted, hpeer, hstart, hstop⟩
  simp [entriesAdmitted, hnot]

theorem entriesAdmitted_append_zero (hzero : call.entryCount = 0) :
    entriesAdmitted (log ++ [(call, admitted)]) peerSiteId start stop = entriesAdmitted log peerSiteId start stop := by
  by_cases h : Counts peerSiteId start stop (call, admitted)
  · rw [entriesAdmitted_append_of_counts h, hzero, Nat.add_zero]
  · exact entriesAdmitted_append_of_not_counts h

end Log

section Meter

variable {limits : IngressLimits}

/-- What the bucket of a peer says about the calls so far. -/
structure Metered (limits : IngressLimits) (log : List (RateLimitCall × Bool)) (peerSiteId : UInt32)
    (bucket : Option PeerRateBucket) : Prop where
  tokens_ge : ∀ b, bucket = some b → -kTolerance ≤ b.tokens
  tokens_le : ∀ b, bucket = some b → b.tokens ≤ limits.peerRateLimitBurstEntries
  stamp_le : ∀ b, bucket = some b → ∀ now, (∀ entry ∈ log, entry.1.now ≤ now) → b.lastRefill ≤ now
  drawn : ∀ start stop, (∀ entry ∈ log, entry.1.now ≤ stop) → entriesAdmitted log peerSiteId start stop = 0 ∨
    ∃ b, bucket = some b ∧ Drawn limits.peerRateLimitBurstEntries limits.peerRateLimitEntriesPerSecond start
      (entriesAdmitted log peerSiteId start stop) b.tokens b.lastRefill
  rested : ∀ b, bucket = some b → ∀ since, (∀ entry ∈ log, entry.2 = true → entry.1.peerSiteId = peerSiteId →
    0 < entry.1.entryCount → entry.1.now ≤ since) →
      fill limits.peerRateLimitBurstEntries limits.peerRateLimitEntriesPerSecond (-kTolerance) (b.lastRefill - since) ≤
        b.tokens

variable {log : List (RateLimitCall × Bool)} {call : RateLimitCall} {admitted : Bool} {peerSiteId : UInt32}
  {bucket : Option PeerRateBucket}

theorem metered_empty (limits : IngressLimits) (peerSiteId : UInt32) : Metered limits [] peerSiteId none where
  tokens_ge _ h := by cases h
  tokens_le _ h := by cases h
  stamp_le _ h := by cases h
  drawn _ _ _ := .inl rfl
  rested _ h := by cases h

theorem forall_mem_of_append {P : RateLimitCall × Bool → Prop} {entry : RateLimitCall × Bool}
    (h : ∀ e ∈ log ++ [entry], P e) : (∀ e ∈ log, P e) ∧ P entry :=
  ⟨fun e he => h e (List.mem_append_left _ he), h entry (List.mem_append_right _ (List.mem_singleton.mpr rfl))⟩

theorem Metered.untouched (h : Metered limits log peerSiteId bucket)
    (hfree : admitted = true → call.peerSiteId = peerSiteId → call.entryCount = 0) :
    Metered limits (log ++ [(call, admitted)]) peerSiteId bucket where
  tokens_ge := h.tokens_ge
  tokens_le := h.tokens_le
  stamp_le b hb now hnow := h.stamp_le b hb now (forall_mem_of_append hnow).1
  drawn start stop hstop := by
    have hsame : entriesAdmitted (log ++ [(call, admitted)]) peerSiteId start stop =
        entriesAdmitted log peerSiteId start stop := by
      by_cases hcounts : Counts peerSiteId start stop (call, admitted)
      · exact entriesAdmitted_append_zero (hfree hcounts.1 hcounts.2.1)
      · exact entriesAdmitted_append_of_not_counts hcounts
    rw [hsame]
    exact h.drawn start stop (forall_mem_of_append hstop).1
  rested b hb since hsince := h.rested b hb since (forall_mem_of_append hsince).1

theorem Metered.available_ge (h : Metered limits log peerSiteId bucket)
    (hrate : 0 < limits.peerRateLimitEntriesPerSecond)
    (hburst : 1 ≤ limits.peerRateLimitBurstEntries) (htime : ∀ entry ∈ log, entry.1.now ≤ call.now) :
    -kTolerance ≤ available limits call.now bucket := by
  have hlow : -kTolerance ≤ limits.peerRateLimitBurstEntries := by
    have : -kTolerance ≤ 1 := by unfold kTolerance; norm_num
    exact this.trans hburst
  cases bucket with
  | none => rwa [available_none]
  | some b =>
    have hstamp := h.stamp_le b rfl call.now htime
    rw [(refill_some (h.tokens_le b rfl) hstamp).1]
    exact le_fill hrate.le (sub_nonneg.mpr hstamp) hlow (h.tokens_ge b rfl)

theorem Metered.drawn_available (h : Metered limits log peerSiteId bucket)
    (htime : ∀ entry ∈ log, entry.1.now ≤ call.now) (start stop : ℚ) (hstop : call.now ≤ stop) :
    Drawn limits.peerRateLimitBurstEntries limits.peerRateLimitEntriesPerSecond start
      (entriesAdmitted log peerSiteId start stop) (available limits call.now bucket) call.now := by
  obtain hzero | ⟨b, rfl, hdrawn⟩ := h.drawn start stop fun entry hentry => (htime entry hentry).trans hstop
  · exact .inl (by rw [hzero, Nat.cast_zero])
  · have hstamp := h.stamp_le b rfl call.now htime
    rw [(refill_some (h.tokens_le b rfl) hstamp).1]
    exact hdrawn.refill hstamp

theorem Metered.rested_available (h : Metered limits log peerSiteId bucket)
    (hrate : 0 < limits.peerRateLimitEntriesPerSecond) (htime : ∀ entry ∈ log, entry.1.now ≤ call.now) (since : ℚ)
    (hsince : ∀ entry ∈ log, entry.2 = true → entry.1.peerSiteId = peerSiteId → 0 < entry.1.entryCount →
      entry.1.now ≤ since) :
    fill limits.peerRateLimitBurstEntries limits.peerRateLimitEntriesPerSecond (-kTolerance) (call.now - since) ≤
      available limits call.now bucket := by
  cases bucket with
  | none =>
    rw [available_none]
    exact fill_le_cap
  | some b =>
    have hstamp := h.stamp_le b rfl call.now htime
    have hfill := fill_add_le hrate.le (sub_nonneg.mpr hstamp) (h.rested b rfl since hsince)
    rw [(refill_some (h.tokens_le b rfl) hstamp).1]
    have helapsed : b.lastRefill - since + (call.now - b.lastRefill) = call.now - since := by ring
    rwa [helapsed] at hfill

theorem Metered.lastRefill_eq (h : Metered limits log peerSiteId bucket)
    (htime : ∀ entry ∈ log, entry.1.now ≤ call.now) :
    (refill limits call.now bucket).lastRefill = call.now := by
  cases bucket with
  | none => rfl
  | some b => exact (refill_some (h.tokens_le b rfl) (h.stamp_le b rfl call.now htime)).2

theorem Metered.refused (h : Metered limits log peerSiteId bucket) (hrate : 0 < limits.peerRateLimitEntriesPerSecond)
    (hburst : 1 ≤ limits.peerRateLimitBurstEntries) (htime : ∀ entry ∈ log, entry.1.now ≤ call.now) :
    Metered limits (log ++ [(call, false)]) peerSiteId
      (some ⟨available limits call.now bucket, (refill limits call.now bucket).lastRefill⟩) := by
  rw [h.lastRefill_eq htime]
  refine ⟨?_, ?_, ?_, ?_, ?_⟩
  · rintro b ⟨rfl⟩
    exact h.available_ge hrate hburst htime
  · rintro b ⟨rfl⟩
    exact available_le bucket
  · rintro b ⟨rfl⟩ now hnow
    exact (forall_mem_of_append hnow).2
  · intro start stop hstop
    have hnot : ¬ Counts peerSiteId start stop (call, false) := fun hcounts => by cases hcounts.1
    rw [entriesAdmitted_append_of_not_counts hnot]
    exact .inr ⟨_, rfl, h.drawn_available htime start stop (forall_mem_of_append hstop).2⟩
  · rintro b ⟨rfl⟩ since hsince
    exact h.rested_available hrate htime since (forall_mem_of_append hsince).1

theorem Metered.letIn (h : Metered limits log peerSiteId bucket) (hrate : 0 < limits.peerRateLimitEntriesPerSecond)
    (htime : ∀ entry ∈ log, entry.1.now ≤ call.now) (hpeer : call.peerSiteId = peerSiteId) (hpos : 0 < call.entryCount)
    (henough : call.entryCount ≤ available limits call.now bucket + kTolerance) :
    Metered limits (log ++ [(call, true)]) peerSiteId
      (some ⟨available limits call.now bucket - call.entryCount, (refill limits call.now bucket).lastRefill⟩) := by
  rw [h.lastRefill_eq htime]
  refine ⟨?_, ?_, ?_, ?_, ?_⟩
  · rintro b ⟨rfl⟩
    exact neg_le_sub_iff_le_add.mpr henough
  · rintro b ⟨rfl⟩
    exact (sub_le_self _ (Nat.cast_nonneg _)).trans (available_le bucket)
  · rintro b ⟨rfl⟩ now hnow
    exact (forall_mem_of_append hnow).2
  · intro start stop hstop
    have hnow := (forall_mem_of_append hstop).2
    have hdrawn := h.drawn_available htime start stop hnow
    by_cases hstart : start ≤ call.now
    · rw [entriesAdmitted_append_of_counts ⟨rfl, hpeer, hstart, hnow⟩, Nat.cast_add]
      exact .inr ⟨_, rfl, hdrawn.draw hrate.le (available_le bucket) hstart⟩
    · rw [entriesAdmitted_append_of_not_counts fun hcounts => hstart hcounts.2.2.1]
      obtain hzero | ⟨hle, -⟩ := hdrawn
      · exact .inl (Nat.cast_eq_zero.mp hzero)
      · exact absurd hle hstart
  · rintro b ⟨rfl⟩ since hsince
    -- The call is among those that count, so nothing has run in since.
    have hnow : call.now ≤ since := (forall_mem_of_append hsince).2 rfl hpeer hpos
    have hgain := mul_nonneg hrate.le (sub_nonneg.mpr hnow)
    refine fill_le.trans ?_
    have hleft : -kTolerance ≤ available limits call.now bucket - call.entryCount := neg_le_sub_iff_le_add.mpr henough
    linarith [mul_sub limits.peerRateLimitEntriesPerSecond call.now since,
      mul_sub limits.peerRateLimitEntriesPerSecond since call.now]

end Meter

section Run

variable {limits : IngressLimits}

theorem serveAll_append (limits : IngressLimits) (calls : List RateLimitCall) (call : RateLimitCall) :
    serveAll limits (calls ++ [call]) = (serveAll limits calls).serve limits call := by
  rw [serveAll, List.foldl_append]
  rfl

theorem log_serveAll (limits : IngressLimits) (calls : List RateLimitCall) :
    (serveAll limits calls).log.map Prod.fst = calls := by
  induction calls using List.reverseRecOn with
  | nil => rfl
  | append_singleton calls call ih => rw [serveAll_append, RateLimitRun.serve, List.map_append, ih]; rfl

theorem log_le {calls : List RateLimitCall} {now : ℚ} (h : ∀ call ∈ calls, call.now ≤ now) :
    ∀ entry ∈ (serveAll limits calls).log, entry.1.now ≤ now := by
  intro entry hentry
  have hmem := List.mem_map_of_mem (f := Prod.fst) hentry
  rw [log_serveAll] at hmem
  exact h _ hmem

theorem metered_serve (hrate : 0 < limits.peerRateLimitEntriesPerSecond) (hburst : 1 ≤ limits.peerRateLimitBurstEntries)
    {r : RateLimitRun} (h : ∀ peerSiteId, Metered limits r.log peerSiteId (r.buckets.find? peerSiteId))
    {call : RateLimitCall} (htime : ∀ entry ∈ r.log, entry.1.now ≤ call.now) (peerSiteId : UInt32) :
    Metered limits (r.serve limits call).log peerSiteId ((r.serve limits call).buckets.find? peerSiteId) := by
  unfold RateLimitRun.serve
  generalize hresult : consumePeerRateLimitTokens limits call.now call.peerSiteId call.entryCount r.buckets = result
  dsimp only
  obtain ⟨rfl, hzero⟩ | ⟨hbuckets, hrefused, -⟩ | ⟨hbuckets, hrefused, -⟩ | ⟨hbuckets, hadmitted, hpos, henough⟩ :=
    consumePeerRateLimitTokens_cases hrate hresult
  · exact (h peerSiteId).untouched fun _ _ => hzero
  · rw [hbuckets, hrefused]
    exact (h peerSiteId).untouched fun hfalse => by cases hfalse
  · rw [hbuckets, hrefused, FlatMap.find?_insert]
    split_ifs with hpeer
    · subst hpeer
      exact (h _).refused hrate hburst htime
    · exact (h peerSiteId).untouched fun hfalse => by cases hfalse
  · rw [hbuckets, hadmitted, FlatMap.find?_insert]
    split_ifs with hpeer
    · subst hpeer
      exact (h _).letIn hrate htime rfl hpos henough
    · exact (h peerSiteId).untouched fun _ hsame => absurd hsame.symm hpeer

theorem metered_serveAll (hrate : 0 < limits.peerRateLimitEntriesPerSecond)
    (hburst : 1 ≤ limits.peerRateLimitBurstEntries)
    {calls : List RateLimitCall} (htimes : calls.Pairwise fun call next => call.now ≤ next.now) (peerSiteId : UInt32) :
    Metered limits (serveAll limits calls).log peerSiteId ((serveAll limits calls).buckets.find? peerSiteId) := by
  induction calls using List.reverseRecOn generalizing peerSiteId with
  | nil => exact metered_empty limits peerSiteId
  | append_singleton calls call ih =>
    obtain ⟨hbefore, -, hlast⟩ := List.pairwise_append.mp htimes
    rw [serveAll_append]
    exact metered_serve hrate hburst (ih hbefore)
      (log_le fun c hc => hlast c hc call (List.mem_singleton.mpr rfl)) peerSiteId

theorem entriesAdmitted_le (hrate : 0 < limits.peerRateLimitEntriesPerSecond)
    (hburst : 1 ≤ limits.peerRateLimitBurstEntries) {calls : List RateLimitCall}
    (htimes : calls.Pairwise fun call next => call.now ≤ next.now) (peerSiteId : UInt32) {start stop : ℚ}
    (hwindow : start ≤ stop) : (entriesAdmitted (serveAll limits calls).log peerSiteId start stop : ℚ) ≤
      limits.peerRateLimitBurstEntries + limits.peerRateLimitEntriesPerSecond * (stop - start) + kTolerance := by
  have hcap : 0 ≤ limits.peerRateLimitBurstEntries := le_trans zero_le_one hburst
  have hdebt : 0 ≤ kTolerance := by unfold kTolerance; norm_num
  induction calls using List.reverseRecOn with
  | nil =>
    have hgain := mul_nonneg hrate.le (sub_nonneg.mpr hwindow)
    change ((0 : ℕ) : ℚ) ≤ _
    rw [Nat.cast_zero]
    linarith
  | append_singleton calls call ih =>
    have hmetered := metered_serveAll hrate hburst htimes peerSiteId
    obtain ⟨hbefore, -, hlast⟩ := List.pairwise_append.mp htimes
    by_cases hstop : call.now ≤ stop
    · -- The whole sequence is over by the end of the window.
      have hall : ∀ entry ∈ (serveAll limits (calls ++ [call])).log, entry.1.now ≤ stop := by
        refine log_le fun c hc => ?_
        obtain hc | hc := List.mem_append.mp hc
        · exact (hlast c hc call (List.mem_singleton.mpr rfl)).trans hstop
        · rwa [List.mem_singleton.mp hc]
      obtain hzero | ⟨b, hb, hdrawn⟩ := hmetered.drawn start stop hall
      · have hgain := mul_nonneg hrate.le (sub_nonneg.mpr hwindow)
        rw [hzero, Nat.cast_zero]
        linarith
      · exact hdrawn.le hrate.le hcap hdebt (hmetered.tokens_ge b hb) hwindow (hmetered.stamp_le b hb stop hall)
    · rw [serveAll_append, RateLimitRun.serve, entriesAdmitted_append_of_not_counts fun hcounts => hstop hcounts.2.2.2]
      exact ih hbefore

theorem admitted_after_rest (hrate : 0 < limits.peerRateLimitEntriesPerSecond)
    (hburst : 1 ≤ limits.peerRateLimitBurstEntries) {calls : List RateLimitCall}
    (htimes : calls.Pairwise fun call next => call.now ≤ next.now) {call : RateLimitCall}
    (htime : ∀ c ∈ calls, c.now ≤ call.now) (hfits : (call.entryCount : ℚ) ≤ limits.peerRateLimitBurstEntries)
    (hrest : ∀ entry ∈ (serveAll limits calls).log, entry.2 = true → entry.1.peerSiteId = call.peerSiteId →
      0 < entry.1.entryCount →
        entry.1.now ≤ call.now - limits.peerRateLimitBurstEntries / limits.peerRateLimitEntriesPerSecond) :
    (consumePeerRateLimitTokens limits call.now call.peerSiteId call.entryCount (serveAll limits calls).buckets).2 =
      none := by
  have hmetered := metered_serveAll hrate hburst htimes call.peerSiteId
  have hlevel := hmetered.rested_available hrate (log_le htime) _ hrest
  rw [sub_sub_cancel, fill, mul_div_cancel₀ _ hrate.ne'] at hlevel
  have hdebt : 0 ≤ kTolerance := by unfold kTolerance; norm_num
  have hfull : limits.peerRateLimitBurstEntries - kTolerance ≤
      available limits call.now ((serveAll limits calls).buckets.find? call.peerSiteId) := by
    refine le_trans (le_min ?_ ?_) hlevel <;> linarith
  rw [← Option.isNone_iff_eq_none]
  generalize hresult : consumePeerRateLimitTokens limits call.now call.peerSiteId call.entryCount
    (serveAll limits calls).buckets = result
  obtain ⟨rfl, -⟩ | ⟨-, -, hover⟩ | ⟨-, -, hshort⟩ | ⟨-, hadmitted, -, -⟩ :=
    consumePeerRateLimitTokens_cases hrate hresult
  · rfl
  · exact absurd hover (not_lt.mpr hfits)
  · linarith
  · exact hadmitted

/-- A peer's tokens stay in bounds, a window lets through the burst and what runs in, and a rested peer is let in. -/
theorem rate_limit_bounds_every_window (hrate : 0 < limits.peerRateLimitEntriesPerSecond)
    (hburst : 1 ≤ limits.peerRateLimitBurstEntries) (calls : List RateLimitCall)
    (htimes : calls.Pairwise fun call next => call.now ≤ next.now) (peerSiteId : UInt32) :
    (∀ bucket, (serveAll limits calls).buckets.find? peerSiteId = some bucket →
      -kTolerance ≤ bucket.tokens ∧ bucket.tokens ≤ limits.peerRateLimitBurstEntries) ∧
    (∀ start stop, start ≤ stop → (entriesAdmitted (serveAll limits calls).log peerSiteId start stop : ℚ) ≤
      limits.peerRateLimitBurstEntries + limits.peerRateLimitEntriesPerSecond * (stop - start) + kTolerance) ∧
    ∀ call : RateLimitCall, call.peerSiteId = peerSiteId → (∀ c ∈ calls, c.now ≤ call.now) →
      (call.entryCount : ℚ) ≤ limits.peerRateLimitBurstEntries →
      (∀ entry ∈ (serveAll limits calls).log, entry.2 = true → entry.1.peerSiteId = peerSiteId →
        0 < entry.1.entryCount →
          entry.1.now ≤ call.now - limits.peerRateLimitBurstEntries / limits.peerRateLimitEntriesPerSecond) →
      (consumePeerRateLimitTokens limits call.now peerSiteId call.entryCount (serveAll limits calls).buckets).2 =
        none := by
  have hmetered := metered_serveAll hrate hburst htimes peerSiteId
  refine ⟨fun bucket hb => ⟨hmetered.tokens_ge bucket hb, hmetered.tokens_le bucket hb⟩,
    fun start stop hwindow => entriesAdmitted_le hrate hburst htimes peerSiteId hwindow, ?_⟩
  rintro call rfl htime hfits hrest
  exact admitted_after_rest hrate hburst htimes htime hfits hrest

def burstCalls : List RateLimitCall := [⟨1, 4000, 0⟩, ⟨2, 10, 0⟩, ⟨1, 3000, 1⟩, ⟨1, 2000, 1⟩]

theorem burst_then_refusal_bounded :
    (∀ bucket, (serveAll {} burstCalls).buckets.find? 1 = some bucket →
      -kTolerance ≤ bucket.tokens ∧ bucket.tokens ≤ 4000) ∧
    (entriesAdmitted (serveAll {} burstCalls).log 1 0 1 : ℚ) ≤ 4000 + 2000 * (1 - 0) + kTolerance ∧
    (consumePeerRateLimitTokens {} 3 1 4000 (serveAll {} burstCalls).buckets).2 = none := by
  have hrate : 0 < ({} : IngressLimits).peerRateLimitEntriesPerSecond := by norm_num
  have hburst : 1 ≤ ({} : IngressLimits).peerRateLimitBurstEntries := by norm_num
  have htimes : ∀ call ∈ burstCalls, call.now ≤ 3 := by decide +kernel
  have hrest : ∀ entry ∈ (serveAll {} burstCalls).log, entry.1.now ≤ 3 - 4000 / 2000 := by decide +kernel
  obtain ⟨hbucket, hwindow, hrested⟩ := rate_limit_bounds_every_window hrate hburst burstCalls (by decide) 1
  exact ⟨hbucket, hwindow 0 1 (by norm_num),
    hrested ⟨1, 4000, 3⟩ rfl htimes (by norm_num) fun entry hentry _ _ _ => hrest entry hentry⟩

end Run

end Tightrope.Sync
