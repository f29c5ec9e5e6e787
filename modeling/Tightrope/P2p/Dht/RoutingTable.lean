import Mathlib.Data.Fin.Basic
import Mathlib.Data.List.Nodup
import Mathlib.Logic.Function.Basic
import Tightrope.Core.HostPort
import Tightrope.Library.Runs
import Tightrope.Library.Selection
import Tightrope.P2p.Dht.NodeId

namespace Tightrope.P2p.Dht

open Tightrope.Core MachineWords Runs Selection

structure NodeContact where
  id : NodeId
  endpoint : HostPortEndpoint
  lastSeenUnixMs : UInt64 := 0
  verified : Bool := false
  deriving DecidableEq

structure RoutingTable where
  localId : NodeId
  bucketSize : ℕ
  buckets : Fin 256 → List NodeContact

def lessValuable (lhs rhs : NodeContact) : Bool :=
  if lhs.verified ≠ rhs.verified then !lhs.verified && rhs.verified
  else lhs.lastSeenUnixMs < rhs.lastSeenUnixMs

def refresh (existing contact : NodeContact) : NodeContact :=
  { existing with
    endpoint := contact.endpoint
    lastSeenUnixMs := max existing.lastSeenUnixMs contact.lastSeenUnixMs
    verified := existing.verified || contact.verified }

def touchBucket (bucketSize : ℕ) (bucket : List NodeContact) (contact : NodeContact) : List NodeContact :=
  match bucket.findIdx? (fun item => item.id = contact.id) with
  | some i => (bucket[i]?).elim bucket fun existing => bucket.eraseIdx i ++ [refresh existing contact]
  | none =>
    if bucket.length < bucketSize then bucket ++ [contact]
    else (minElement lessValuable bucket).elim bucket fun i => bucket.set i contact

namespace RoutingTable

def new (localId : NodeId) (bucketSize : ℕ) : RoutingTable := ⟨localId, max bucketSize 1, fun _ => []⟩

section Operations

variable (isAddress : Bytes → Bool)

def touch (t : RoutingTable) (contact : NodeContact) : RoutingTable :=
  if contact.id = t.localId ∨ ¬ isValidHostPort isAddress contact.endpoint then t
  else match bucketIndex t.localId contact.id with
    | none => t
    | some i => { t with buckets := Function.update t.buckets i (touchBucket t.bucketSize (t.buckets i) contact) }

def pruneStale (t : RoutingTable) (cutoffUnixMs : UInt64) : RoutingTable :=
  { t with buckets := fun i => (t.buckets i).filter fun contact => ¬ contact.lastSeenUnixMs < cutoffUnixMs }

def contains (t : RoutingTable) (id : NodeId) : Bool :=
  (List.finRange 256).any fun i => (t.buckets i).any fun contact => contact.id = id

def size (t : RoutingTable) : ℕ := ((List.finRange 256).map fun i => (t.buckets i).length).sum

def allContacts (t : RoutingTable) : List NodeContact := (List.finRange 256).flatMap t.buckets

def closer (target : NodeId) (lhs rhs : NodeContact) : Bool :=
  if distanceLess (xorDistance lhs.id target) (xorDistance rhs.id target) then true
  else if distanceLess (xorDistance rhs.id target) (xorDistance lhs.id target) then false
  else lhs.lastSeenUnixMs > rhs.lastSeenUnixMs

def nearest (t : RoutingTable) (target : NodeId) (limit : ℕ) : List NodeContact :=
  if limit = 0 then [] else smallest (fun a b => !closer target b a) limit t.allContacts

end Operations

/-- The operations that change the table. -/
inductive Op where
  | touch (contact : NodeContact)
  | pruneStale (cutoffUnixMs : UInt64)

def step (isAddress : Bytes → Bool) (t : RoutingTable) : Op → RoutingTable
  | .touch contact => t.touch isAddress contact
  | .pruneStale cutoffUnixMs => t.pruneStale cutoffUnixMs

end RoutingTable

section Bucket

variable {bucketSize : ℕ} {bucket : List NodeContact} {contact : NodeContact}

theorem touchBucket_cases (bucketSize : ℕ) (bucket : List NodeContact) (contact : NodeContact) :
    (∃ i existing, bucket[i]? = some existing ∧ existing.id = contact.id ∧
      touchBucket bucketSize bucket contact = bucket.eraseIdx i ++ [refresh existing contact]) ∨
    ((∀ item ∈ bucket, item.id ≠ contact.id) ∧ bucket.length < bucketSize ∧
      touchBucket bucketSize bucket contact = bucket ++ [contact]) ∨
    ((∀ item ∈ bucket, item.id ≠ contact.id) ∧ bucketSize ≤ bucket.length ∧
      touchBucket bucketSize bucket contact =
        (minElement lessValuable bucket).elim bucket fun i => bucket.set i contact) := by
  unfold touchBucket
  cases hfind : bucket.findIdx? (fun item => item.id = contact.id) with
  | some i =>
    obtain ⟨hlt, hid, -⟩ := List.findIdx?_eq_some_iff_getElem.mp hfind
    refine .inl ⟨i, bucket[i], List.getElem?_eq_getElem hlt, by simpa using hid, ?_⟩
    simp [List.getElem?_eq_getElem hlt]
  | none =>
    have hnew : ∀ item ∈ bucket, item.id ≠ contact.id := by
      intro item hitem
      simpa using List.findIdx?_eq_none_iff.mp hfind item hitem
    by_cases hroom : bucket.length < bucketSize
    · exact .inr (.inl ⟨hnew, hroom, if_pos hroom⟩)
    · exact .inr (.inr ⟨hnew, not_lt.mp hroom, if_neg hroom⟩)

theorem perm_refresh {i : ℕ} {existing : NodeContact} (contact : NodeContact) (h : bucket[i]? = some existing) :
    ((bucket.eraseIdx i ++ [refresh existing contact]).map NodeContact.id).Perm (bucket.map NodeContact.id) := by
  obtain ⟨hlt, rfl⟩ := List.getElem?_eq_some_iff.mp h
  have hperm := (List.getElem_cons_eraseIdx_perm hlt).map NodeContact.id
  rw [List.map_append]
  exact List.perm_append_comm.trans hperm

theorem length_touchBucket (h : bucket.length ≤ bucketSize) :
    (touchBucket bucketSize bucket contact).length ≤ bucketSize := by
  obtain ⟨i, existing, hi, -, heq⟩ | ⟨-, hroom, heq⟩ | ⟨-, -, heq⟩ := touchBucket_cases bucketSize bucket contact
  · have hlength := (perm_refresh contact hi).length_eq
    rw [List.length_map, List.length_map] at hlength
    rw [heq, hlength]
    exact h
  · rw [heq, List.length_append, List.length_singleton]
    exact hroom
  · rw [heq]
    cases minElement lessValuable bucket with
    | none => exact h
    | some i => simpa using h

theorem id_mem_touchBucket {item : NodeContact} (h : item ∈ touchBucket bucketSize bucket contact) :
    item.id = contact.id ∨ item ∈ bucket := by
  obtain ⟨i, existing, -, hid, heq⟩ | ⟨-, -, heq⟩ | ⟨-, -, heq⟩ := touchBucket_cases bucketSize bucket contact
  · rw [heq, List.mem_append, List.mem_singleton] at h
    obtain hmem | rfl := h
    · exact .inr (List.mem_of_mem_eraseIdx hmem)
    · exact .inl hid
  · rw [heq, List.mem_append, List.mem_singleton] at h
    obtain hmem | rfl := h
    · exact .inr hmem
    · exact .inl rfl
  · rw [heq] at h
    cases hmin : minElement lessValuable bucket with
    | none =>
      rw [hmin] at h
      exact .inr h
    | some i =>
      rw [hmin] at h
      obtain hmem | rfl := List.mem_or_eq_of_mem_set h
      · exact .inr hmem
      · exact .inl rfl

theorem nodup_touchBucket (h : (bucket.map NodeContact.id).Nodup) :
    ((touchBucket bucketSize bucket contact).map NodeContact.id).Nodup := by
  obtain ⟨i, existing, hi, -, heq⟩ | ⟨hnew, -, heq⟩ | ⟨hnew, -, heq⟩ := touchBucket_cases bucketSize bucket contact
  · rw [heq]
    exact (perm_refresh contact hi).nodup_iff.mpr h
  · have hfresh : contact.id ∉ bucket.map NodeContact.id := by
      intro hmem
      obtain ⟨item, hitem, hid⟩ := List.mem_map.mp hmem
      exact hnew item hitem hid
    rw [heq, List.map_append]
    refine h.append (List.nodup_singleton _) ?_
    simpa using hfresh
  · have hfresh : contact.id ∉ bucket.map NodeContact.id := by
      intro hmem
      obtain ⟨item, hitem, hid⟩ := List.mem_map.mp hmem
      exact hnew item hitem hid
    rw [heq]
    cases minElement lessValuable bucket with
    | none => exact h
    | some i =>
      change ((bucket.set i contact).map NodeContact.id).Nodup
      rw [List.map_set]
      exact h.set hfresh

end Bucket

namespace RoutingTable

section Invariant

variable {isAddress : Bytes → Bool} {t : RoutingTable}

structure WellFormed (t : RoutingTable) : Prop where
  placed : ∀ i, ∀ contact ∈ t.buckets i, bucketIndex t.localId contact.id = some i
  unique : ∀ i, ((t.buckets i).map NodeContact.id).Nodup
  bounded : ∀ i, (t.buckets i).length ≤ t.bucketSize

theorem wellFormed_new (localId : NodeId) (bucketSize : ℕ) : (new localId bucketSize).WellFormed where
  placed := by simp [new]
  unique := by simp [new]
  bounded := by simp [new]

theorem WellFormed.touch (h : t.WellFormed) (contact : NodeContact) : (t.touch isAddress contact).WellFormed := by
  unfold RoutingTable.touch
  split_ifs
  · exact h
  · split
    · exact h
    · rename_i i hi
      constructor
      · intro j item hitem
        dsimp only at hitem
        by_cases hj : j = i
        · subst hj
          rw [Function.update_self] at hitem
          obtain hid | hmem := id_mem_touchBucket hitem
          · rw [hid]
            exact hi
          · exact h.placed j item hmem
        · rw [Function.update_of_ne hj] at hitem
          exact h.placed j item hitem
      · intro j
        dsimp only
        by_cases hj : j = i
        · subst hj
          rw [Function.update_self]
          exact nodup_touchBucket (h.unique j)
        · rw [Function.update_of_ne hj]
          exact h.unique j
      · intro j
        dsimp only
        by_cases hj : j = i
        · subst hj
          rw [Function.update_self]
          exact length_touchBucket (h.bounded j)
        · rw [Function.update_of_ne hj]
          exact h.bounded j

theorem WellFormed.pruneStale (h : t.WellFormed) (cutoffUnixMs : UInt64) : (t.pruneStale cutoffUnixMs).WellFormed where
  placed i contact hc := h.placed i contact (List.mem_filter.mp hc).1
  unique i := (h.unique i).sublist ((List.filter_sublist).map NodeContact.id)
  bounded i := (List.length_filter_le _ _).trans (h.bounded i)

theorem WellFormed.step (h : t.WellFormed) (op : Op) : (t.step isAddress op).WellFormed := by
  cases op with
  | touch contact => exact h.touch contact
  | pruneStale cutoffUnixMs => exact h.pruneStale cutoffUnixMs

theorem mem_allContacts {contact : NodeContact} : contact ∈ t.allContacts ↔ ∃ i, contact ∈ t.buckets i := by
  simp [allContacts]

theorem WellFormed.id_ne_localId (h : t.WellFormed) {contact : NodeContact} (hc : contact ∈ t.allContacts) :
    contact.id ≠ t.localId := by
  obtain ⟨i, hi⟩ := mem_allContacts.mp hc
  have hplaced := h.placed i contact hi
  intro heq
  rw [heq, bucketIndex_eq_none.mpr rfl] at hplaced
  cases hplaced

theorem WellFormed.nodup_ids (h : t.WellFormed) : (t.allContacts.map NodeContact.id).Nodup := by
  rw [allContacts, List.map_flatMap, List.nodup_flatMap]
  refine ⟨fun i _ => h.unique i, ?_⟩
  apply (List.nodup_finRange 256).imp
  intro i j hij id hi hj
  obtain ⟨a, ha, rfl⟩ := List.mem_map.mp hi
  obtain ⟨b, hb, hid⟩ := List.mem_map.mp hj
  -- An identifier has one bucket.
  have hbucket := h.placed j b hb
  rw [hid, h.placed i a ha] at hbucket
  exact hij (Option.some.inj hbucket)

end Invariant

section Nearest

variable {t : RoutingTable} {target : NodeId}

def distanceTo (target : NodeId) (contact : NodeContact) : ℕ := distance contact.id target

theorem closer_iff (target : NodeId) (a b : NodeContact) :
    closer target a b = true ↔ distanceTo target a < distanceTo target b ∨
      distanceTo target a = distanceTo target b ∧ b.lastSeenUnixMs < a.lastSeenUnixMs := by
  unfold closer
  split_ifs with hab hba
  · simp [distanceTo, (distanceLess_iff _ _ _ _).mp hab]
  · have hlt := (distanceLess_iff _ _ _ _).mp hba
    simp only [distanceTo, false_iff]
    omega
  · rw [distanceLess_iff] at hab hba
    have heq : distanceTo target a = distanceTo target b := by
      unfold distanceTo
      omega
    simp [heq]

theorem not_closer_trans (target : NodeId) (a b c : NodeContact) (hab : (!closer target b a) = true)
    (hbc : (!closer target c b) = true) : (!closer target c a) = true := by
  simp only [Bool.not_eq_true', ← Bool.not_eq_true, closer_iff, not_or, not_and, not_lt] at hab hbc ⊢
  refine ⟨by omega, fun heq => ?_⟩
  exact (hbc.2 (by omega)).trans (hab.2 (by omega))

theorem not_closer_total (a b : NodeContact) : ((!closer target b a) || (!closer target a b)) = true := by
  by_contra h
  simp only [Bool.or_eq_true, Bool.not_eq_true', not_or, Bool.not_eq_false, closer_iff] at h
  obtain ⟨hba | ⟨heq, hba⟩, hab | ⟨heq', hab⟩⟩ := h
  · omega
  · omega
  · omega
  · exact lt_asymm hba hab

structure Closest (target : NodeId) (n : ℕ) (contacts found : List NodeContact) : Prop where
  size : found.length = min n contacts.length
  sorted : found.Pairwise fun a b => distanceTo target a ≤ distanceTo target b
  cut : ∃ rest, (found ++ rest).Perm contacts ∧ ∀ a ∈ found, ∀ b ∈ rest, distanceTo target a ≤ distanceTo target b

theorem distanceTo_le_of_not_closer {a b : NodeContact} (h : (!closer target b a) = true) :
    distanceTo target a ≤ distanceTo target b := by
  rw [Bool.not_eq_true', ← Bool.not_eq_true, closer_iff, not_or] at h
  exact not_lt.mp h.1

theorem closest_nearest (t : RoutingTable) (target : NodeId) (n : ℕ) :
    Closest target n t.allContacts (t.nearest target n) := by
  unfold nearest
  split_ifs with hn
  · subst hn
    exact ⟨by simp, .nil, t.allContacts, List.Perm.refl _, by simp⟩
  · obtain ⟨hsize, hsorted, rest, hperm, hcut⟩ :=
      smallest_spec (not_closer_trans target) not_closer_total n t.allContacts
    exact ⟨hsize, hsorted.imp distanceTo_le_of_not_closer, rest, hperm,
      fun a ha b hb => distanceTo_le_of_not_closer (hcut a ha b hb)⟩

end Nearest

/-- What a routing table of node `localId` with buckets of at most `k` contacts represents. -/
structure Represents (localId : NodeId) (k : ℕ) (t : RoutingTable) : Prop where
  placed : ∀ i, ∀ contact ∈ t.buckets i, distance localId contact.id ≠ 0 ∧ Nat.log2 (distance localId contact.id) = i
  unique : (t.allContacts.map NodeContact.id).Nodup
  bounded : ∀ i, (t.buckets i).length ≤ k
  others : ∀ contact ∈ t.allContacts, contact.id ≠ localId
  nearest : ∀ target n, Closest target n t.allContacts (t.nearest target n)

theorem localId_step (isAddress : Bytes → Bool) (t : RoutingTable) (op : Op) :
    (t.step isAddress op).localId = t.localId ∧ (t.step isAddress op).bucketSize = t.bucketSize := by
  cases op with
  | pruneStale cutoffUnixMs => exact ⟨rfl, rfl⟩
  | touch contact =>
    simp only [step, touch]
    split_ifs
    · exact ⟨rfl, rfl⟩
    · split <;> exact ⟨rfl, rfl⟩

theorem WellFormed.represents {t : RoutingTable} (h : t.WellFormed) : Represents t.localId t.bucketSize t where
  placed i contact hc := log2_of_bucketIndex (h.placed i contact hc)
  unique := h.nodup_ids
  bounded := h.bounded
  others _ hc := h.id_ne_localId hc
  nearest target n := closest_nearest t target n

/-- Every table reached from the empty one keeps its contacts in their buckets and answers `nearest` by the XOR
metric. -/
theorem routing_table_represents (isAddress : Bytes → Bool) (localId : NodeId) (k : ℕ) (hk : 1 ≤ k) (ops : List Op) :
    AllStates (step isAddress) (Represents localId k) (new localId k) ops := by
  have hrun : AllStates (step isAddress)
      (fun t => t.WellFormed ∧ t.localId = localId ∧ t.bucketSize = k) (new localId k) ops := by
    apply allStates_of_step (step isAddress) (P := fun _ _ => True)
    · rintro t op ⟨hwell, hid, hsize⟩ -
      obtain ⟨hid', hsize'⟩ := localId_step isAddress t op
      exact ⟨hwell.step op, hid'.trans hid, hsize'.trans hsize⟩
    · exact ⟨wellFormed_new localId k, rfl, max_eq_left hk⟩
    · exact allSteps_of_forall (step isAddress) (V := fun _ => True) fun _ _ => trivial
  apply AllStates.mono (step isAddress) _ hrun
  rintro t ⟨hwell, rfl, rfl⟩
  exact hwell.represents

def sampleContact (low : UInt8) (lastSeenUnixMs : UInt64) : NodeContact :=
  ⟨⟨List.replicate 31 0 ++ [low], rfl⟩, ⟨Bytes.ofString "127.0.0.1", 9001⟩, lastSeenUnixMs, false⟩

theorem routing_table_represents_sample :
    1 ≤ 2 ∧ AllStates (step fun _ => true) (Represents .zero 2) (new .zero 2)
      [.touch (sampleContact 0x80 10), .touch (sampleContact 0x81 20), .touch (sampleContact 0x82 30),
        .pruneStale 25] :=
  ⟨by decide, routing_table_represents _ _ 2 (by decide) _⟩

end RoutingTable

end Tightrope.P2p.Dht
