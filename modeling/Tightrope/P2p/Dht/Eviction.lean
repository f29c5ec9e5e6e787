import Tightrope.P2p.Dht.RoutingTable

namespace Tightrope.P2p.Dht

open Tightrope.Core MachineWords Runs Selection

structure LeastValuable (bucket : List NodeContact) (removed : NodeContact) : Prop where
  unverified : (∃ item ∈ bucket, item.verified = false) → removed.verified = false ∧
    ∀ item ∈ bucket, item.verified = false → removed.lastSeenUnixMs ≤ item.lastSeenUnixMs
  verified : (∀ item ∈ bucket, item.verified = true) → ∀ item ∈ bucket, removed.lastSeenUnixMs ≤ item.lastSeenUnixMs

section Bucket

variable {bucketSize : ℕ} {bucket : List NodeContact} {contact : NodeContact}

theorem lessValuable_iff {lhs rhs : NodeContact} : lessValuable lhs rhs = true ↔
    lhs.verified = false ∧ rhs.verified = true ∨
      lhs.verified = rhs.verified ∧ lhs.lastSeenUnixMs < rhs.lastSeenUnixMs := by
  unfold lessValuable
  cases lhs.verified <;> cases rhs.verified <;> simp

theorem lessValuable_irrefl (a : NodeContact) : lessValuable a a = false := by simp [lessValuable]

theorem lessValuable_trans (a b c : NodeContact) (hab : lessValuable a b = true) (hbc : lessValuable b c = true) :
    lessValuable a c = true := by
  rw [lessValuable_iff] at hab hbc ⊢
  obtain ⟨ha, hb⟩ | ⟨hab, hlt⟩ := hab
  · obtain ⟨hb', -⟩ | ⟨hbc, -⟩ := hbc
    · rw [hb] at hb'
      cases hb'
    · exact .inl ⟨ha, hbc ▸ hb⟩
  · obtain ⟨hb, hc⟩ | ⟨hbc, hlt'⟩ := hbc
    · exact .inl ⟨hab.trans hb, hc⟩
    · exact .inr ⟨hab.trans hbc, hlt.trans hlt'⟩

theorem leastValuable_of_minimal {removed : NodeContact} (hmem : removed ∈ bucket)
    (hleast : ∀ item ∈ bucket, lessValuable item removed = false) : LeastValuable bucket removed := by
  have hnot : ∀ item ∈ bucket, ¬ (item.verified = false ∧ removed.verified = true ∨
      item.verified = removed.verified ∧ item.lastSeenUnixMs < removed.lastSeenUnixMs) := by
    intro item hitem
    rw [← lessValuable_iff, Bool.not_eq_true]
    exact hleast item hitem
  constructor
  · rintro ⟨other, hother, hunverified⟩
    have hremoved : removed.verified = false := by
      rw [← Bool.not_eq_true]
      exact fun hverified => hnot other hother (.inl ⟨hunverified, hverified⟩)
    refine ⟨hremoved, fun item hitem hfalse => ?_⟩
    exact not_lt.mp fun hlt => hnot item hitem (.inr ⟨hfalse.trans hremoved.symm, hlt⟩)
  · intro hall item hitem
    exact not_lt.mp fun hlt => hnot item hitem (.inr ⟨(hall item hitem).trans (hall removed hmem).symm, hlt⟩)

theorem touchBucket_full (hnew : ∀ item ∈ bucket, item.id ≠ contact.id) (hne : bucket ≠ [])
    (hfull : bucketSize ≤ bucket.length) : ∃ removed kept, bucket.Perm (removed :: kept) ∧
      (touchBucket bucketSize bucket contact).Perm (contact :: kept) ∧ LeastValuable bucket removed := by
  obtain ⟨i, removed, hmin, hremoved, hleast⟩ := minElement_spec lessValuable_trans lessValuable_irrefl hne
  obtain ⟨hlt, rfl⟩ := List.getElem?_eq_some_iff.mp hremoved
  have htouch : touchBucket bucketSize bucket contact = bucket.set i contact := by
    obtain ⟨j, existing, hj, hid, -⟩ | ⟨-, hroom, -⟩ | ⟨-, -, heq⟩ := touchBucket_cases bucketSize bucket contact
    · exact absurd hid (hnew existing (List.mem_of_getElem? hj))
    · exact absurd hroom (not_lt.mpr hfull)
    · rw [heq, hmin, Option.elim_some]
  refine ⟨bucket[i], bucket.eraseIdx i, (List.getElem_cons_eraseIdx_perm hlt).symm, ?_, ?_⟩
  · rw [htouch]
    exact perm_set hlt contact
  · exact leastValuable_of_minimal (List.getElem_mem hlt) hleast

theorem touchBucket_known {item : NodeContact} (hitem : item ∈ bucket) (hid : item.id = contact.id)
    (hunique : (bucket.map NodeContact.id).Nodup) : ∃ kept ∈ touchBucket bucketSize bucket contact,
      kept.id = item.id ∧ item.lastSeenUnixMs ≤ kept.lastSeenUnixMs ∧
        (item.verified = true → kept.verified = true) := by
  obtain ⟨i, existing, hi, hexisting, heq⟩ | ⟨hnew, -⟩ | ⟨hnew, -⟩ := touchBucket_cases bucketSize bucket contact
  · have hsame : existing = item :=
      List.inj_on_of_nodup_map hunique (List.mem_of_getElem? hi) hitem (hexisting.trans hid.symm)
    subst hsame
    refine ⟨refresh existing contact, by simp [heq], rfl, le_max_left _ _, fun hverified => ?_⟩
    rw [refresh, hverified, Bool.true_or]
  · exact absurd hid (hnew item hitem)
  · exact absurd hid (hnew item hitem)

theorem touchBucket_keeps {item : NodeContact} (hitem : item ∈ bucket)
    (hroom : (∃ known ∈ bucket, known.id = contact.id) ∨ bucket.length < bucketSize) :
    item.id ∈ (touchBucket bucketSize bucket contact).map NodeContact.id := by
  obtain ⟨i, existing, hi, -, heq⟩ | ⟨-, -, heq⟩ | ⟨hnew, hfull, -⟩ := touchBucket_cases bucketSize bucket contact
  · rw [heq, (perm_refresh contact hi).mem_iff]
    exact List.mem_map_of_mem hitem
  · rw [heq]
    exact List.mem_map_of_mem (List.mem_append_left _ hitem)
  · obtain ⟨known, hknown, hid⟩ | hlt := hroom
    · exact absurd hid (hnew known hknown)
    · exact absurd hlt (not_lt.mpr hfull)

end Bucket

namespace RoutingTable

variable {isAddress : Bytes → Bool} {t : RoutingTable} {contact : NodeContact}

def touchedBucket (isAddress : Bytes → Bool) (t : RoutingTable) (contact : NodeContact) : Option (Fin 256) :=
  if contact.id = t.localId ∨ ¬ isValidHostPort isAddress contact.endpoint then none
  else bucketIndex t.localId contact.id

def KeepsVerified (isAddress : Bytes → Bool) (t : RoutingTable) (contact : NodeContact) : Prop :=
  contact.verified = false → ∀ item ∈ t.allContacts, item.verified = true →
    ∃ kept ∈ (t.touch isAddress contact).allContacts, kept.id = item.id

def EvictsLeastValuable (isAddress : Bytes → Bool) (t : RoutingTable) (contact : NodeContact) : Prop :=
  ∀ i, (t.buckets i).length = t.bucketSize → (∀ item ∈ t.buckets i, item.id ≠ contact.id) →
    contact ∈ (t.touch isAddress contact).buckets i →
      ∃ removed kept, (t.buckets i).Perm (removed :: kept) ∧
        ((t.touch isAddress contact).buckets i).Perm (contact :: kept) ∧ LeastValuable (t.buckets i) removed

def RefreshesKnown (isAddress : Bytes → Bool) (t : RoutingTable) (contact : NodeContact) : Prop :=
  ∀ item ∈ t.allContacts, item.id = contact.id → ∃ kept ∈ (t.touch isAddress contact).allContacts, kept.id = item.id ∧
    item.lastSeenUnixMs ≤ kept.lastSeenUnixMs ∧ (item.verified = true → kept.verified = true)

def LawfulCall (isAddress : Bytes → Bool) (t : RoutingTable) : Op → Prop
  | .touch contact =>
    KeepsVerified isAddress t contact ∧ EvictsLeastValuable isAddress t contact ∧ RefreshesKnown isAddress t contact
  | .pruneStale _ => True

def Displaces (isAddress : Bytes → Bool) (t : RoutingTable) (contact : NodeContact) : Prop :=
  contact.verified = false ∧ ∃ i, touchedBucket isAddress t contact = some i ∧
    t.bucketSize ≤ (t.buckets i).length ∧ ∀ item ∈ t.buckets i, item.id ≠ contact.id ∧ item.verified = true

def Spares (isAddress : Bytes → Bool) (t : RoutingTable) : Op → Prop
  | .touch contact => ¬ Displaces isAddress t contact
  | .pruneStale _ => True

theorem touch_eq (isAddress : Bytes → Bool) (t : RoutingTable) (contact : NodeContact) :
    t.touch isAddress contact = (touchedBucket isAddress t contact).elim t fun i =>
      { t with buckets := Function.update t.buckets i (touchBucket t.bucketSize (t.buckets i) contact) } := by
  unfold touch touchedBucket
  split_ifs
  · rfl
  · cases bucketIndex t.localId contact.id <;> rfl

theorem touch_of_ignored (h : touchedBucket isAddress t contact = none) : t.touch isAddress contact = t := by
  rw [touch_eq, h, Option.elim_none]

theorem buckets_touch {i : Fin 256} (h : touchedBucket isAddress t contact = some i) (j : Fin 256) :
    (t.touch isAddress contact).buckets j =
      if j = i then touchBucket t.bucketSize (t.buckets i) contact else t.buckets j := by
  rw [touch_eq, h, Option.elim_some]
  exact Function.update_apply _ _ _ _

theorem exists_kept {i : Fin 256} (h : touchedBucket isAddress t contact = some i) {P : NodeContact → Prop}
    {j : Fin 256} {item : NodeContact} (hitem : item ∈ t.buckets j) (hself : P item)
    (hbucket : j = i → ∃ kept ∈ touchBucket t.bucketSize (t.buckets i) contact, P kept) :
    ∃ kept ∈ (t.touch isAddress contact).allContacts, P kept := by
  by_cases hj : j = i
  · obtain ⟨kept, hkept, hP⟩ := hbucket hj
    refine ⟨kept, mem_allContacts.mpr ⟨j, ?_⟩, hP⟩
    rwa [buckets_touch h, if_pos hj]
  · refine ⟨item, mem_allContacts.mpr ⟨j, ?_⟩, hself⟩
    rwa [buckets_touch h, if_neg hj]

theorem refreshesKnown (hwell : t.WellFormed) : RefreshesKnown isAddress t contact := by
  intro item hitem hid
  obtain ⟨j, hj⟩ := mem_allContacts.mp hitem
  cases htouched : touchedBucket isAddress t contact with
  | none =>
    rw [touch_of_ignored htouched]
    exact ⟨item, hitem, rfl, le_rfl, id⟩
  | some i =>
    refine exists_kept htouched hj ⟨rfl, le_rfl, id⟩ fun hji => ?_
    subst hji
    exact touchBucket_known hj hid (hwell.unique j)

theorem evictsLeastValuable (hsize : 1 ≤ t.bucketSize) : EvictsLeastValuable isAddress t contact := by
  intro i hfull hnew hadmitted
  have hlist : ∀ {j}, touchedBucket isAddress t contact = some j → i = j := by
    intro j hj
    by_contra hne
    rw [buckets_touch hj, if_neg hne] at hadmitted
    exact hnew contact hadmitted rfl
  cases htouched : touchedBucket isAddress t contact with
  | none =>
    rw [touch_of_ignored htouched] at hadmitted
    exact absurd rfl (hnew contact hadmitted)
  | some j =>
    obtain rfl := hlist htouched
    rw [buckets_touch htouched, if_pos rfl]
    apply touchBucket_full hnew _ hfull.ge
    apply List.ne_nil_of_length_pos
    omega

theorem not_mem_of_displaced {i : Fin 256} {removed : NodeContact} {kept : List NodeContact} (hwell : t.WellFormed)
    (htouched : touchedBucket isAddress t contact = some i) (hnew : removed.id ≠ contact.id)
    (hbefore : (t.buckets i).Perm (removed :: kept))
    (hafter : (touchBucket t.bucketSize (t.buckets i) contact).Perm (contact :: kept)) :
    ∀ found ∈ (t.touch isAddress contact).allContacts, found.id ≠ removed.id := by
  intro found hfound hid
  obtain ⟨j, hj⟩ := mem_allContacts.mp hfound
  -- An identifier has one bucket, before and after.
  have hplaced := (hwell.touch contact).placed j found hj
  have hlocal : (t.touch isAddress contact).localId = t.localId := (localId_step isAddress t (.touch contact)).1
  rw [hlocal, hid,
    hwell.placed i removed (hbefore.mem_iff.mpr List.mem_cons_self)] at hplaced
  obtain rfl := Option.some.inj hplaced
  rw [buckets_touch htouched, if_pos rfl, hafter.mem_iff, List.mem_cons] at hj
  obtain rfl | hkept := hj
  · exact hnew hid.symm
  · have hunique := (hbefore.map NodeContact.id).nodup_iff.mp (hwell.unique i)
    rw [List.map_cons, List.nodup_cons] at hunique
    exact hunique.1 (hid ▸ List.mem_map_of_mem hkept)

theorem keepsVerified_iff (hwell : t.WellFormed) (hsize : 1 ≤ t.bucketSize) :
    KeepsVerified isAddress t contact ↔ ¬ Displaces isAddress t contact := by
  constructor
  · rintro hkeeps ⟨hunverified, i, htouched, hfull, hall⟩
    have hne : t.buckets i ≠ [] := List.ne_nil_of_length_pos (by omega)
    obtain ⟨removed, kept, hbefore, hafter, -⟩ := touchBucket_full (fun item hitem => (hall item hitem).1) hne hfull
    have hremoved : removed ∈ t.buckets i := hbefore.mem_iff.mpr List.mem_cons_self
    obtain ⟨hnew, hverified⟩ := hall removed hremoved
    obtain ⟨found, hfound, hid⟩ := hkeeps hunverified removed (mem_allContacts.mpr ⟨i, hremoved⟩) hverified
    exact not_mem_of_displaced hwell htouched hnew hbefore hafter found hfound hid
  · intro hspares hunverified item hitem hverified
    obtain ⟨j, hj⟩ := mem_allContacts.mp hitem
    cases htouched : touchedBucket isAddress t contact with
    | none =>
      rw [touch_of_ignored htouched]
      exact ⟨item, hitem, rfl⟩
    | some i =>
      refine exists_kept htouched hj rfl fun hji => ?_
      subst hji
      by_cases hroom : (∃ known ∈ t.buckets j, known.id = contact.id) ∨ (t.buckets j).length < t.bucketSize
      · exact List.mem_map.mp (touchBucket_keeps hj hroom)
      · obtain ⟨hknown, hfull⟩ := not_or.mp hroom
        have hnew : ∀ known ∈ t.buckets j, known.id ≠ contact.id := fun known hmem hid => hknown ⟨known, hmem, hid⟩
        have hother : ∃ other ∈ t.buckets j, other.verified = false := by
          by_contra hnone
          push Not at hnone
          refine hspares ⟨hunverified, j, htouched, not_lt.mp hfull, fun known hmem => ⟨hnew known hmem, ?_⟩⟩
          exact Bool.eq_true_of_not_eq_false (hnone known hmem)
        obtain ⟨removed, kept, hbefore, hafter, hleast⟩ :=
          touchBucket_full hnew (List.ne_nil_of_mem hj) (not_lt.mp hfull)
        have hkept : item ∈ kept := by
          obtain rfl | hmem := List.mem_cons.mp (hbefore.mem_iff.mp hj)
          · rw [(hleast.unverified hother).1] at hverified
            cases hverified
          · exact hmem
        exact ⟨item, hafter.mem_iff.mpr (List.mem_cons_of_mem _ hkept), rfl⟩

theorem lawfulCall_iff (hwell : t.WellFormed) (hsize : 1 ≤ t.bucketSize) (op : Op) :
    LawfulCall isAddress t op ↔ Spares isAddress t op := by
  cases op with
  | pruneStale cutoffUnixMs => exact Iff.rfl
  | touch contact =>
    rw [LawfulCall, keepsVerified_iff hwell hsize]
    exact and_iff_left ⟨evictsLeastValuable hsize, refreshesKnown hwell⟩

/-- A run from the empty table keeps its verified contacts, gives up the least valuable one of a full bucket and loses
nothing it knows of a contact, exactly when no unverified newcomer meets a full bucket of verified contacts. -/
theorem verified_contacts_stay_iff (isAddress : Bytes → Bool) (localId : NodeId) (k : ℕ) (ops : List Op) :
    AllSteps (step isAddress) (LawfulCall isAddress) (new localId k) ops ↔
      AllSteps (step isAddress) (Spares isAddress) (new localId k) ops := by
  have hstep : ∀ (t : RoutingTable) (op : Op), t.WellFormed ∧ 1 ≤ t.bucketSize →
      (t.step isAddress op).WellFormed ∧ 1 ≤ (t.step isAddress op).bucketSize := by
    rintro t op ⟨hwell, hsize⟩
    rw [(localId_step isAddress t op).2]
    exact ⟨hwell.step op, hsize⟩
  have hnew : (new localId k).WellFormed ∧ 1 ≤ (new localId k).bucketSize :=
    ⟨wellFormed_new localId k, le_max_right k 1⟩
  constructor
  · apply allSteps_of_step (step isAddress) (Q := fun t => t.WellFormed ∧ 1 ≤ t.bucketSize) _ hnew
    exact fun t op h hlawful => ⟨hstep t op h, (lawfulCall_iff h.1 h.2 op).mp hlawful⟩
  · apply allSteps_of_step (step isAddress) (Q := fun t => t.WellFormed ∧ 1 ≤ t.bucketSize) _ hnew
    exact fun t op h hspares => ⟨hstep t op h, (lawfulCall_iff h.1 h.2 op).mpr hspares⟩

def verifiedContact (low : UInt8) (lastSeenUnixMs : UInt64) : NodeContact :=
  { sampleContact low lastSeenUnixMs with verified := true }

/-- A bucket of one: an unverified contact, seen earlier, takes the place of a verified one. -/
theorem unverified_newcomer_displaces_verified :
    ¬ AllSteps (step fun _ => true) (LawfulCall fun _ => true) (new .zero 1)
      [.touch (verifiedContact 0x80 20), .touch (sampleContact 0x81 10)] := by
  intro hall
  have hkeeps := hall.2.1.1 rfl (verifiedContact 0x80 20) (by decide +kernel) rfl
  revert hkeeps
  decide +kernel

end RoutingTable

end Tightrope.P2p.Dht
