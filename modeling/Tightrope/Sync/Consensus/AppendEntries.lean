import Mathlib.Data.List.Basic
import Tightrope.Library.Bytes

namespace Tightrope.Sync.Consensus

open Bytes

structure RaftLog.LogEntry where
  term : UInt64 := 0
  index : UInt64 := 0
  tableName : Bytes := []
  rowPk : Bytes := []
  op : Bytes := []
  values : Bytes := []
  checksum : Bytes := []
  deriving DecidableEq

open RaftLog

section Numbered

/-- The entries stand at the positions that their indices name. -/
def Numbered (entries : List LogEntry) : Prop := ∀ i entry, entries[i]? = some entry → entry.index.toNat = i + 1

variable {entries : List LogEntry}

theorem Numbered.nil : Numbered [] := by
  intro i entry h
  cases h

theorem Numbered.take (h : Numbered entries) (n : ℕ) : Numbered (entries.take n) := by
  intro i entry hi
  rw [List.getElem?_take] at hi
  split_ifs at hi
  exact h i entry hi

theorem Numbered.concat (h : Numbered entries) {entry : LogEntry} (hindex : entry.index.toNat = entries.length + 1) :
    Numbered (entries ++ [entry]) := by
  intro i other hi
  rw [List.getElem?_append] at hi
  split_ifs at hi with hlt
  · exact h i other hi
  · obtain ⟨hlast, hother⟩ := List.getElem?_eq_some_iff.mp hi
    rw [List.getElem_singleton] at hother
    rw [List.length_singleton] at hlast
    rw [← hother]
    omega

theorem Numbered.filter_eq_take (h : Numbered entries) (index : UInt64) :
    entries.filter (fun entry => !(entry.index > index)) = entries.take index.toNat := by
  have hkept : (entries.take index.toNat).filter (fun entry => !(entry.index > index)) = entries.take index.toNat := by
    apply List.filter_eq_self.mpr
    intro entry hmem
    obtain ⟨i, hi⟩ := List.mem_iff_getElem?.mp hmem
    rw [List.getElem?_take] at hi
    split_ifs at hi with hlt
    have hindex := h i entry hi
    simp only [gt_iff_lt, UInt64.lt_iff_toNat_lt, Bool.not_eq_true', decide_eq_false_iff_not]
    omega
  have hdropped : (entries.drop index.toNat).filter (fun entry => !(entry.index > index)) = [] := by
    apply List.filter_eq_nil_iff.mpr
    intro entry hmem
    obtain ⟨i, hi⟩ := List.mem_iff_getElem?.mp hmem
    rw [List.getElem?_drop] at hi
    have hindex := h _ entry hi
    simp only [gt_iff_lt, UInt64.lt_iff_toNat_lt, Bool.not_eq_true', decide_eq_false_iff_not]
    omega
  conv_lhs => rw [← List.take_append_drop index.toNat entries, List.filter_append]
  rw [hkept, hdropped, List.append_nil]

end Numbered

@[ext] structure RaftLog where
  entries : List LogEntry
  numbered : Numbered entries
  deriving DecidableEq

namespace RaftLog

def empty : RaftLog := ⟨[], .nil⟩

variable (log : RaftLog)

def lastIndex : UInt64 := log.entries.getLast?.elim 0 LogEntry.index

theorem toNat_lastIndex : log.lastIndex.toNat = log.entries.length := by
  rw [lastIndex, List.getLast?_eq_getElem?]
  cases hlast : log.entries[log.entries.length - 1]? with
  | none =>
    have hle := List.getElem?_eq_none_iff.mp hlast
    simp only [Option.elim_none, UInt64.toNat_zero]
    omega
  | some entry =>
    have hindex := log.numbered _ entry hlast
    have hlt := (List.getElem?_eq_some_iff.mp hlast).1
    rw [Option.elim_some]
    omega

def entryAt (index : UInt64) : Option LogEntry :=
  if index = 0 ∨ index > log.lastIndex then none else log.entries[(index - 1).toNat]?

theorem numbered_append {entry : LogEntry} (h : ¬ (entry.index ≠ log.lastIndex + 1 ∨ entry.index = 0)) :
    Numbered (log.entries ++ [entry]) := by
  apply log.numbered.concat
  obtain ⟨hnext, hne⟩ := not_or.mp h
  rw [not_not] at hnext
  have hpos : (log.lastIndex + 1).toNat ≠ 0 := fun hzero => hne (hnext.trans (UInt64.toNat_inj.mp hzero))
  rw [hnext, ← toNat_lastIndex]
  rw [UInt64.toNat_add, UInt64.toNat_one] at hpos ⊢
  have hlt := log.lastIndex.toNat_lt
  omega

def append (entry : LogEntry) : RaftLog × Bool :=
  if h : entry.index ≠ log.lastIndex + 1 ∨ entry.index = 0 then (log, false)
  else (⟨log.entries ++ [entry], log.numbered_append h⟩, true)

def truncateSuffix (index : UInt64) : RaftLog where
  entries := log.entries.filter fun entry => !(entry.index > index)
  numbered := by
    rw [log.numbered.filter_eq_take]
    exact log.numbered.take _

def takeIncoming (incoming : LogEntry) : RaftLog × Bool :=
  if incoming.index = 0 then (log, false)
  else match log.entryAt incoming.index with
  | some existing =>
    if existing.term ≠ incoming.term then (log.truncateSuffix (incoming.index - 1)).append incoming else (log, true)
  | none => log.append incoming

def takeAll : RaftLog → List LogEntry → RaftLog × Bool
  | log, [] => (log, true)
  | log, incoming :: rest =>
    let taken := log.takeIncoming incoming
    if taken.2 then takeAll taken.1 rest else (taken.1, false)

def admitsPrev (prevIndex prevTerm : UInt64) : Bool :=
  !(prevIndex > log.lastIndex) &&
    !(prevIndex > 0 && (log.entryAt prevIndex).all fun entry => entry.term ≠ prevTerm)

def appendEntries (prevIndex prevTerm : UInt64) (entries : List LogEntry) : RaftLog × Bool :=
  if log.admitsPrev prevIndex prevTerm then log.takeAll entries else (log, false)

end RaftLog

section Rounds

variable {log : RaftLog} {incoming : LogEntry}

def Held (entries : List LogEntry) (entry : LogEntry) : Prop :=
  ∃ existing, entries[entry.index.toNat - 1]? = some existing ∧ existing.term = entry.term ∧ entry.index ≠ 0

def Refused (entries : List LogEntry) (entry : LogEntry) : Prop :=
  entry.index = 0 ∨ entries.length + 1 < entry.index.toNat

def overwrite (entries : List LogEntry) (entry : LogEntry) : List LogEntry :=
  entries.take (entry.index.toNat - 1) ++ [entry]

instance (entries : List LogEntry) (entry : LogEntry) : Decidable (Held entries entry) :=
  match h : entries[entry.index.toNat - 1]? with
  | none => .isFalse fun ⟨_, hentry, _⟩ => by
    rw [h] at hentry
    cases hentry
  | some existing => decidable_of_iff (existing.term = entry.term ∧ entry.index ≠ 0) <| by
    rw [Held, h]
    simp

instance (entries : List LogEntry) (entry : LogEntry) : Decidable (Refused entries entry) :=
  inferInstanceAs (Decidable (_ ∨ _))

theorem toNat_pos_of_ne_zero {index : UInt64} (h : index ≠ 0) : 0 < index.toNat :=
  Nat.pos_of_ne_zero fun hzero => h (UInt64.toNat_inj.mp hzero)

theorem toNat_sub_one {index : UInt64} (h : index ≠ 0) : (index - 1).toNat = index.toNat - 1 := by
  have hle : 1 ≤ index := by
    rw [UInt64.le_iff_toNat_le, UInt64.toNat_one]
    exact toNat_pos_of_ne_zero h
  rw [UInt64.toNat_sub_of_le _ _ hle, UInt64.toNat_one]

theorem entryAt_eq {index : UInt64} (h : index ≠ 0) : log.entryAt index = log.entries[index.toNat - 1]? := by
  rw [entryAt, toNat_sub_one h]
  split_ifs with hout
  · obtain hzero | hgt := hout
    · exact absurd hzero h
    · rw [gt_iff_lt, UInt64.lt_iff_toNat_lt, toNat_lastIndex] at hgt
      symm
      apply List.getElem?_eq_none
      omega
  · rfl

theorem append_of_next (hindex : incoming.index.toNat = log.entries.length + 1) :
    (log.append incoming).2 = true ∧ (log.append incoming).1.entries = log.entries ++ [incoming] := by
  have hlast := log.toNat_lastIndex
  have hne : incoming.index ≠ 0 := fun hzero => by
    rw [hzero, UInt64.toNat_zero] at hindex
    omega
  have hnext : incoming.index = log.lastIndex + 1 := by
    apply UInt64.toNat_inj.mp
    have hlt := incoming.index.toNat_lt
    rw [UInt64.toNat_add, UInt64.toNat_one, hlast]
    omega
  rw [append, dif_neg (not_or.mpr ⟨not_not.mpr hnext, hne⟩)]
  exact ⟨rfl, rfl⟩

theorem append_of_beyond (hindex : log.entries.length + 1 < incoming.index.toNat) :
    log.append incoming = (log, false) := by
  have hne : incoming.index ≠ log.lastIndex + 1 := by
    intro hnext
    have hlast := log.toNat_lastIndex
    rw [hnext, UInt64.toNat_add, UInt64.toNat_one] at hindex
    omega
  rw [append, dif_pos (.inl hne)]

theorem takeIncoming_cases (log : RaftLog) (incoming : LogEntry) :
    (Held log.entries incoming ∧ log.takeIncoming incoming = (log, true)) ∨
      (¬ Held log.entries incoming ∧ ¬ Refused log.entries incoming ∧ (log.takeIncoming incoming).2 = true ∧
        (log.takeIncoming incoming).1.entries = overwrite log.entries incoming) ∨
      (¬ Held log.entries incoming ∧ Refused log.entries incoming ∧ log.takeIncoming incoming = (log, false)) := by
  by_cases hzero : incoming.index = 0
  · right; right
    refine ⟨?_, .inl hzero, if_pos hzero⟩
    rintro ⟨existing, -, -, hne⟩
    exact hne hzero
  have hpos := toNat_pos_of_ne_zero hzero
  rw [takeIncoming, if_neg hzero, entryAt_eq hzero]
  cases hentry : log.entries[incoming.index.toNat - 1]? with
  | none =>
    have hheld : ¬ Held log.entries incoming := by
      rintro ⟨existing, hexisting, -⟩
      rw [hentry] at hexisting
      cases hexisting
    have hle := List.getElem?_eq_none_iff.mp hentry
    by_cases hnext : incoming.index.toNat = log.entries.length + 1
    · obtain ⟨hdone, hentries⟩ := append_of_next hnext
      right; left
      refine ⟨hheld, ?_, hdone, ?_⟩
      · rintro (hzero' | hbeyond)
        · exact hzero hzero'
        · omega
      · rw [overwrite, hentries, List.take_of_length_le hle]
    · have hbeyond : log.entries.length + 1 < incoming.index.toNat := by omega
      right; right
      exact ⟨hheld, .inr hbeyond, append_of_beyond hbeyond⟩
  | some existing =>
    have hlt := (List.getElem?_eq_some_iff.mp hentry).1
    by_cases hterm : existing.term = incoming.term
    · left
      exact ⟨⟨existing, hentry, hterm, hzero⟩, if_neg (not_not.mpr hterm)⟩
    · right; left
      have hcut : (log.truncateSuffix (incoming.index - 1)).entries = log.entries.take (incoming.index.toNat - 1) := by
        rw [← toNat_sub_one hzero]
        exact log.numbered.filter_eq_take _
      have hnext : incoming.index.toNat = (log.truncateSuffix (incoming.index - 1)).entries.length + 1 := by
        rw [hcut, List.length_take]
        omega
      obtain ⟨hdone, hentries⟩ := append_of_next hnext
      simp only
      rw [if_pos hterm]
      refine ⟨?_, ?_, hdone, ?_⟩
      · rintro ⟨existing', hexisting', hterm', -⟩
        rw [hentry] at hexisting'
        obtain rfl := Option.some.inj hexisting'
        exact hterm hterm'
      · rintro (hzero' | hbeyond)
        · exact hzero hzero'
        · omega
      · rw [hentries, hcut, overwrite]

theorem length_overwrite {entries : List LogEntry} (h : ¬ Refused entries incoming) :
    (overwrite entries incoming).length = incoming.index.toNat := by
  obtain ⟨hzero, hle⟩ := not_or.mp h
  have hpos := toNat_pos_of_ne_zero hzero
  rw [overwrite, List.length_append, List.length_take, List.length_singleton]
  omega

theorem overwrite_getElem?_self {entries : List LogEntry} (h : ¬ Refused entries incoming) :
    (overwrite entries incoming)[incoming.index.toNat - 1]? = some incoming := by
  have hlength := length_overwrite h
  have hpos := toNat_pos_of_ne_zero (not_or.mp h).1
  rw [overwrite, List.length_append, List.length_singleton] at hlength
  rw [overwrite, List.getElem?_append_right (by omega)]
  rw [List.getElem?_eq_some_iff]
  exact ⟨by rw [List.length_singleton]; omega, List.getElem_singleton _⟩

theorem overwrite_getElem?_of_lt {entries : List LogEntry} (h : ¬ Refused entries incoming) {i : ℕ}
    (hi : i < incoming.index.toNat - 1) : (overwrite entries incoming)[i]? = entries[i]? := by
  have hlength := length_overwrite h
  rw [overwrite, List.length_append, List.length_singleton] at hlength
  rw [overwrite, List.getElem?_append_left (by omega), List.getElem?_take_of_lt hi]

theorem held_overwrite {entries : List LogEntry} (h : ¬ Refused entries incoming) :
    Held (overwrite entries incoming) incoming :=
  ⟨incoming, overwrite_getElem?_self h, rfl, (not_or.mp h).1⟩

theorem Held.of_take {entries entries' : List LogEntry} {n : ℕ} (h : Held entries incoming)
    (hsame : entries'.take n = entries.take n) (hn : incoming.index.toNat ≤ n) : Held entries' incoming := by
  obtain ⟨existing, hexisting, hterm, hne⟩ := h
  have hpos := toNat_pos_of_ne_zero hne
  refine ⟨existing, ?_, hterm, hne⟩
  have hlt : incoming.index.toNat - 1 < n := by omega
  rw [← List.getElem?_take_of_lt hlt, hsame, List.getElem?_take_of_lt hlt, hexisting]

theorem Held.index_le {entries : List LogEntry} (h : Held entries incoming) :
    incoming.index.toNat ≤ entries.length := by
  obtain ⟨existing, hexisting, -, hne⟩ := h
  have hlt := (List.getElem?_eq_some_iff.mp hexisting).1
  omega

end Rounds

section Matching

variable {log : RaftLog} {prevIndex : UInt64} {es : List LogEntry}

def Consecutive : UInt64 → List LogEntry → Prop
  | _, [] => True
  | prevIndex, entry :: rest => entry.index = prevIndex + 1 ∧ Consecutive entry.index rest

def Contradicted (entries : List LogEntry) (es : List LogEntry) (i : ℕ) : Prop :=
  ∃ entry ∈ es, ∃ existing, entries[entry.index.toNat - 1]? = some existing ∧ existing.term ≠ entry.term ∧
    entry.index.toNat ≤ i + 1

theorem take_of_take {entries entries' : List LogEntry} {m n : ℕ} (h : entries.take n = entries'.take n) (hm : m ≤ n) :
    entries.take m = entries'.take m := by
  have htake := congrArg (List.take m) h
  rwa [List.take_take, List.take_take, Nat.min_eq_left hm] at htake

theorem takeAll_matches (hprev : prevIndex.toNat ≤ log.entries.length) (hes : Consecutive prevIndex es)
    (hdone : (log.takeAll es).2 = true) :
    (log.takeAll es).1.entries.take prevIndex.toNat = log.entries.take prevIndex.toNat ∧
      (∀ entry ∈ es, Held (log.takeAll es).1.entries entry) ∧
      ∀ i old, log.entries[i]? = some old → (log.takeAll es).1.entries[i]? ≠ some old →
        Contradicted log.entries es i := by
  induction es generalizing log prevIndex with
  | nil => exact ⟨rfl, by simp, fun i old hold hgone => absurd hold hgone⟩
  | cons incoming rest ih =>
    obtain ⟨hindex, hrest⟩ := hes
    rw [takeAll] at hdone ⊢
    have hnat (hzero : incoming.index ≠ 0) : incoming.index.toNat = prevIndex.toNat + 1 := by
      have hpos := toNat_pos_of_ne_zero hzero
      have hlt := prevIndex.toNat_lt
      rw [hindex, UInt64.toNat_add, UInt64.toNat_one] at hpos ⊢
      omega
    obtain ⟨hheld, hsame⟩ | ⟨hnot, hadmitted, htaken, hentries⟩ | ⟨-, -, hstop⟩ := takeIncoming_cases log incoming
    · obtain ⟨-, -, -, hzero⟩ := id hheld
      have hnext := hnat hzero
      simp only [hsame, if_true] at hdone ⊢
      obtain ⟨htake, hall, hremoved⟩ := ih hheld.index_le hrest hdone
      refine ⟨take_of_take htake (by omega), List.forall_mem_cons.mpr ⟨hheld.of_take htake le_rfl, hall⟩, ?_⟩
      intro i old hold hgone
      obtain ⟨entry, hmem, hentry⟩ := hremoved i old hold hgone
      exact ⟨entry, List.mem_cons_of_mem _ hmem, hentry⟩
    · have hnext := hnat (not_or.mp hadmitted).1
      have hlength := length_overwrite hadmitted
      simp only [htaken, if_true] at hdone ⊢
      obtain ⟨htake, hall, -⟩ := ih (by rw [hentries, hlength]) hrest hdone
      rw [hentries] at htake
      have hbefore : ∀ i < prevIndex.toNat,
          ((log.takeIncoming incoming).1.takeAll rest).1.entries[i]? = log.entries[i]? := by
        intro i hi
        have hlt : i < incoming.index.toNat := by omega
        rw [← List.getElem?_take_of_lt hlt, htake, List.getElem?_take_of_lt hlt,
          overwrite_getElem?_of_lt hadmitted (by omega)]
      refine ⟨?_, List.forall_mem_cons.mpr ⟨(held_overwrite hadmitted).of_take htake le_rfl, hall⟩, ?_⟩
      · apply List.ext_getElem?
        intro i
        rw [List.getElem?_take, List.getElem?_take]
        split_ifs with hi
        · exact hbefore i hi
        · rfl
      · intro i old hold hgone
        by_cases hi : i < prevIndex.toNat
        · rw [hbefore i hi] at hgone
          exact absurd hold hgone
        -- What is gone stood from `incoming` on, so there was an entry in its place.
        · have hlt := (List.getElem?_eq_some_iff.mp hold).1
          have hplace : incoming.index.toNat - 1 < log.entries.length := by omega
          have hexisting := List.getElem?_eq_getElem hplace
          refine ⟨incoming, List.mem_cons_self, _, hexisting, ?_, by omega⟩
          intro hterm
          exact hnot ⟨_, hexisting, hterm, (not_or.mp hadmitted).1⟩
    · rw [hstop] at hdone
      cases hdone

theorem takeAll_of_held (h : ∀ entry ∈ es, Held log.entries entry) : log.takeAll es = (log, true) := by
  induction es with
  | nil => rfl
  | cons incoming rest ih =>
    obtain ⟨hheld, hrest⟩ := List.forall_mem_cons.mp h
    obtain ⟨-, hsame⟩ | ⟨hnot, -⟩ | ⟨hnot, -⟩ := takeIncoming_cases log incoming
    · rw [takeAll, hsame]
      exact ih hrest
    · exact absurd hheld hnot
    · exact absurd hheld hnot

theorem held_iff {entry : LogEntry} :
    Held log.entries entry ↔ ∃ existing, log.entryAt entry.index = some existing ∧ existing.term = entry.term := by
  by_cases hzero : entry.index = 0
  · simp [Held, entryAt, hzero]
  · simp [Held, entryAt_eq hzero, hzero]

theorem mem_entries_iff {entry : LogEntry} :
    entry ∈ log.entries ↔ log.entries[entry.index.toNat - 1]? = some entry := by
  constructor
  · intro hmem
    obtain ⟨i, hi⟩ := List.mem_iff_getElem?.mp hmem
    rwa [log.numbered i entry hi, Nat.add_sub_cancel]
  · exact List.mem_of_getElem?

/-- After a call that succeeds the log agrees with the entries, and nothing went but what one of them contradicts. -/
theorem append_entries_matches (log : RaftLog) (prevIndex prevTerm : UInt64) (es : List LogEntry)
    (hes : Consecutive prevIndex es) (hdone : (log.appendEntries prevIndex prevTerm es).2 = true) :
    Numbered (log.appendEntries prevIndex prevTerm es).1.entries ∧
      (prevIndex.toNat ≤ log.entries.length ∧
        (log.appendEntries prevIndex prevTerm es).1.entries.take prevIndex.toNat = log.entries.take prevIndex.toNat) ∧
      (∀ entry ∈ es, ∃ held, (log.appendEntries prevIndex prevTerm es).1.entryAt entry.index = some held ∧
        held.term = entry.term) ∧
      (∀ old ∈ log.entries, old ∉ (log.appendEntries prevIndex prevTerm es).1.entries → ∃ entry ∈ es, ∃ existing,
        log.entryAt entry.index = some existing ∧ existing.term ≠ entry.term ∧ entry.index ≤ old.index) ∧
      ((∀ entry ∈ es, ∃ existing, log.entryAt entry.index = some existing ∧ existing.term = entry.term) →
        (log.appendEntries prevIndex prevTerm es).1 = log) := by
  refine ⟨(log.appendEntries prevIndex prevTerm es).1.numbered, ?_⟩
  rw [appendEntries] at hdone ⊢
  split_ifs at hdone ⊢ with hadmitted
  have hprev : prevIndex.toNat ≤ log.entries.length := by
    rw [admitsPrev, Bool.and_eq_true, Bool.not_eq_true', decide_eq_false_iff_not] at hadmitted
    rw [← log.toNat_lastIndex, ← UInt64.le_iff_toNat_le]
    exact UInt64.not_lt.mp hadmitted.1
  obtain ⟨htake, hall, hremoved⟩ := takeAll_matches hprev hes hdone
  refine ⟨⟨hprev, htake⟩, fun entry hmem => held_iff.mp (hall entry hmem), ?_, ?_⟩
  · intro old hold hgone
    rw [mem_entries_iff] at hold hgone
    have hpos := log.numbered _ old hold
    obtain ⟨entry, hmem, existing, hexisting, hterm, hle⟩ := hremoved _ old hold hgone
    obtain ⟨-, -, -, hzero⟩ := hall entry hmem
    refine ⟨entry, hmem, existing, ?_, hterm, ?_⟩
    · rw [entryAt_eq hzero, hexisting]
    · rw [UInt64.le_iff_toNat_le]
      omega
  · intro hheld
    rw [takeAll_of_held fun entry hmem => held_iff.mpr (hheld entry hmem)]

theorem numbered_three :
    Numbered [⟨1, 1, [], [], [], [], []⟩, ⟨1, 2, [], [], [], [], []⟩, ⟨1, 3, [], [], [], [], []⟩] := by
  intro i entry h
  match i, h with
  | 0, rfl => rfl
  | 1, rfl => rfl
  | 2, rfl => rfl

theorem late_call_keeps_the_rest :
    (appendEntries ⟨_, numbered_three⟩ 1 1 [⟨1, 2, [], [], [], [], []⟩]).1 = ⟨_, numbered_three⟩ := by
  obtain ⟨-, -, -, -, hkept⟩ := append_entries_matches ⟨_, numbered_three⟩ 1 1 [⟨1, 2, [], [], [], [], []⟩]
    ⟨rfl, trivial⟩ (by decide)
  apply hkept
  intro entry hmem
  obtain rfl := List.mem_singleton.mp hmem
  exact ⟨_, rfl, rfl⟩

end Matching

section Atomicity

variable {log : RaftLog} {es : List LogEntry}

def place (entries : List LogEntry) (entry : LogEntry) : List LogEntry :=
  if Held entries entry then entries else overwrite entries entry

def Stops : List LogEntry → List LogEntry → Prop
  | _, [] => False
  | entries, entry :: rest => Refused entries entry ∨ Stops (place entries entry) rest

/-- An entry is refused after another one was written. -/
def Torn : List LogEntry → List LogEntry → Prop
  | _, [] => False
  | entries, entry :: rest =>
    (Held entries entry ∧ Torn entries rest) ∨
      (¬ Held entries entry ∧ ¬ Refused entries entry ∧ Stops (overwrite entries entry) rest)

instance decidableStops : (entries es : List LogEntry) → Decidable (Stops entries es)
  | _, [] => .isFalse id
  | entries, entry :: rest => @instDecidableOr _ _ _ (decidableStops (place entries entry) rest)

instance decidableTorn : (entries es : List LogEntry) → Decidable (Torn entries es)
  | _, [] => .isFalse id
  | entries, _ :: rest => @instDecidableOr _ _ (@instDecidableAnd _ _ _ (decidableTorn entries rest)) _

theorem not_refused_of_held {entries : List LogEntry} {entry : LogEntry} (h : Held entries entry) :
    ¬ Refused entries entry := by
  have hle := h.index_le
  obtain ⟨-, -, -, hzero⟩ := h
  rintro (hzero' | hbeyond)
  · exact hzero hzero'
  · omega

theorem takeAll_fails_iff : (log.takeAll es).2 = false ↔ Stops log.entries es := by
  induction es generalizing log with
  | nil => simp [takeAll, Stops]
  | cons incoming rest ih =>
    rw [takeAll, Stops, place]
    obtain ⟨hheld, hsame⟩ | ⟨hnot, hadmitted, htaken, hentries⟩ | ⟨-, hrefused, hstop⟩ :=
      takeIncoming_cases log incoming
    · simp only [hsame, if_true, if_pos hheld, not_refused_of_held hheld, false_or]
      exact ih
    · simp only [htaken, if_true, if_neg hnot, hadmitted, false_or, ← hentries]
      exact ih
    · simp only [hstop, hrefused, true_or, iff_true]
      rfl

theorem takeAll_unchanged (h : ¬ Torn log.entries es) (hfails : (log.takeAll es).2 = false) :
    (log.takeAll es).1 = log := by
  induction es with
  | nil => rfl
  | cons incoming rest ih =>
    obtain ⟨hrest, hwritten⟩ := not_or.mp h
    rw [takeAll] at hfails ⊢
    obtain ⟨hheld, hsame⟩ | ⟨hnot, hadmitted, htaken, hentries⟩ | ⟨-, -, hstop⟩ := takeIncoming_cases log incoming
    · simp only [hsame, if_true] at hfails ⊢
      exact ih (fun htorn => hrest ⟨hheld, htorn⟩) hfails
    · simp only [htaken, if_true, takeAll_fails_iff, hentries] at hfails
      exact absurd ⟨hnot, hadmitted, hfails⟩ hwritten
    · simp only [hstop]
      rfl

def Departs (old new es : List LogEntry) : Prop :=
  ∃ entry, entry.index ∉ es.map LogEntry.index ∧ entry.index ≠ 0 ∧ new[entry.index.toNat - 1]? = some entry ∧
    ¬ Held old entry

def AgreesAt (old new es : List LogEntry) : Prop :=
  ∀ entry ∈ es, entry.index ≠ 0 → ∀ existing, new[entry.index.toNat - 1]? = some existing →
    old[entry.index.toNat - 1]? = some existing

theorem Departs.ne {old new : List LogEntry} (h : Departs old new es) : new ≠ old := by
  rintro rfl
  obtain ⟨entry, -, hzero, hentry, hnot⟩ := h
  exact hnot ⟨entry, hentry, rfl, hzero⟩

theorem agreesAt_overwrite {old new : List LogEntry} {incoming : LogEntry} (hadmitted : ¬ Refused new incoming)
    (hfresh : incoming.index ∉ es.map LogEntry.index) (h : AgreesAt old new es) :
    AgreesAt old (overwrite new incoming) es := by
  intro entry hmem hzero existing hexisting
  have hlt := (List.getElem?_eq_some_iff.mp hexisting).1
  have hpos := toNat_pos_of_ne_zero hzero
  have hne : entry.index.toNat ≠ incoming.index.toNat :=
    fun heq => hfresh (UInt64.toNat_inj.mp heq ▸ List.mem_map_of_mem hmem)
  rw [length_overwrite hadmitted] at hlt
  rw [overwrite_getElem?_of_lt hadmitted (by omega)] at hexisting
  exact h entry hmem hzero existing hexisting

theorem departs_overwrite {old new : List LogEntry} {incoming : LogEntry} (hnot : ¬ Held new incoming)
    (hadmitted : ¬ Refused new incoming) (hfresh : incoming.index ∉ es.map LogEntry.index)
    (hagrees : AgreesAt old new (incoming :: es)) (h : Departs old new (incoming :: es)) :
    Departs old (overwrite new incoming) es := by
  obtain ⟨entry, hother, hzero, hentry, hentry'⟩ := h
  rw [List.map_cons, List.mem_cons, not_or] at hother
  have hne : entry.index.toNat ≠ incoming.index.toNat := fun heq => hother.1 (UInt64.toNat_inj.mp heq)
  have hlength := (List.getElem?_eq_some_iff.mp hentry).1
  have hpos := toNat_pos_of_ne_zero hzero
  have hzero' := (not_or.mp hadmitted).1
  have hpos' := toNat_pos_of_ne_zero hzero'
  by_cases hlt : entry.index.toNat < incoming.index.toNat
  · refine ⟨entry, hother.2, hzero, ?_, hentry'⟩
    rwa [overwrite_getElem?_of_lt hadmitted (by omega)]
  · refine ⟨incoming, hfresh, hzero', overwrite_getElem?_self hadmitted, ?_⟩
    rintro ⟨existing, hexisting, hterm, -⟩
    have hthere := List.getElem?_eq_getElem (show incoming.index.toNat - 1 < new.length by omega)
    rw [hagrees incoming List.mem_cons_self hzero' _ hthere] at hexisting
    obtain rfl := Option.some.inj hexisting
    exact hnot ⟨_, hthere, hterm, hzero'⟩

theorem takeAll_departs {old : List LogEntry} (hnodup : (es.map LogEntry.index).Nodup)
    (hagrees : AgreesAt old log.entries es) (h : Departs old log.entries es) (hstops : Stops log.entries es) :
    (log.takeAll es).1.entries ≠ old := by
  induction es generalizing log with
  | nil => exact hstops.elim
  | cons incoming rest ih =>
    obtain ⟨hfresh, hrest⟩ := List.nodup_cons.mp hnodup
    rw [Stops, place] at hstops
    rw [takeAll]
    obtain ⟨hheld, hsame⟩ | ⟨hnot, hadmitted, htaken, hentries⟩ | ⟨-, hrefused, hstop⟩ :=
      takeIncoming_cases log incoming
    · simp only [if_pos hheld, not_refused_of_held hheld, false_or] at hstops
      simp only [hsame, if_true]
      obtain ⟨entry, hother, hentry⟩ := h
      rw [List.map_cons, List.mem_cons, not_or] at hother
      exact ih hrest (fun entry hmem => hagrees entry (List.mem_cons_of_mem _ hmem)) ⟨entry, hother.2, hentry⟩ hstops
    · simp only [if_neg hnot, hadmitted, false_or] at hstops
      simp only [htaken, if_true]
      rw [← hentries] at hstops
      apply ih hrest _ _ hstops
      · rw [hentries]
        exact agreesAt_overwrite hadmitted hfresh fun entry hmem => hagrees entry (List.mem_cons_of_mem _ hmem)
      · rw [hentries]
        exact departs_overwrite hnot hadmitted hfresh hagrees h
    · simp only [hstop]
      exact h.ne

theorem takeAll_of_torn (hnodup : (es.map LogEntry.index).Nodup) (h : Torn log.entries es) :
    (log.takeAll es).2 = false ∧ (log.takeAll es).1 ≠ log := by
  induction es with
  | nil => exact h.elim
  | cons incoming rest ih =>
    obtain ⟨hfresh, hrest⟩ := List.nodup_cons.mp hnodup
    rw [takeAll]
    obtain ⟨hheld, hsame⟩ | ⟨hnot, hadmitted, htaken, hentries⟩ | ⟨hnot, hrefused, -⟩ := takeIncoming_cases log incoming
    · simp only [hsame, if_true]
      obtain ⟨-, htorn⟩ | ⟨hnot, -⟩ := h
      · exact ih hrest htorn
      · exact absurd hheld hnot
    · obtain ⟨hheld, -⟩ | ⟨-, -, hstops⟩ := h
      · exact absurd hheld hnot
      simp only [htaken, if_true]
      have hagrees : AgreesAt log.entries (log.takeIncoming incoming).1.entries rest := by
        rw [hentries]
        exact agreesAt_overwrite hadmitted hfresh fun _ _ _ _ hexisting => hexisting
      have hdeparts : Departs log.entries (log.takeIncoming incoming).1.entries rest := by
        rw [hentries]
        exact ⟨incoming, hfresh, (not_or.mp hadmitted).1, overwrite_getElem?_self hadmitted, hnot⟩
      rw [← hentries] at hstops
      exact ⟨takeAll_fails_iff.mpr hstops,
        fun heq => takeAll_departs hrest hagrees hdeparts hstops (congrArg RaftLog.entries heq)⟩
    · obtain ⟨hheld, -⟩ | ⟨-, hadmitted, -⟩ := h
      · exact absurd hheld hnot
      · exact absurd hrefused hadmitted

def KeptOnFailure (log : RaftLog) (prevIndex prevTerm : UInt64) (es : List LogEntry) : Prop :=
  (log.appendEntries prevIndex prevTerm es).2 = false → (log.appendEntries prevIndex prevTerm es).1 = log

/-- A call that is not torn fails without a trace; one that is torn leaves a trace, unless an index comes twice. -/
theorem failed_append_entries_changes_nothing_iff (log : RaftLog) (prevIndex prevTerm : UInt64) (es : List LogEntry) :
    (¬ (log.admitsPrev prevIndex prevTerm = true ∧ Torn log.entries es) → KeptOnFailure log prevIndex prevTerm es) ∧
      ((es.map LogEntry.index).Nodup →
        (KeptOnFailure log prevIndex prevTerm es ↔
          ¬ (log.admitsPrev prevIndex prevTerm = true ∧ Torn log.entries es))) := by
  have hkept (h : ¬ (log.admitsPrev prevIndex prevTerm = true ∧ Torn log.entries es)) :
      KeptOnFailure log prevIndex prevTerm es := by
    intro hfails
    rw [appendEntries] at hfails ⊢
    split_ifs at hfails ⊢ with hadmitted
    · exact takeAll_unchanged (fun htorn => h ⟨hadmitted, htorn⟩) hfails
    · rfl
  refine ⟨hkept, fun hnodup => ⟨?_, hkept⟩⟩
  rintro h ⟨hadmitted, htorn⟩
  obtain ⟨hfails, hchanged⟩ := takeAll_of_torn hnodup htorn
  rw [KeptOnFailure, appendEntries, if_pos hadmitted] at h
  exact hchanged (h hfails)

theorem gap_after_held_entries :
    KeptOnFailure ⟨_, numbered_three⟩ 1 1 [⟨1, 2, [], [], [], [], []⟩, ⟨1, 3, [], [], [], [], []⟩,
      ⟨1, 5, [], [], [], [], []⟩] :=
  ((failed_append_entries_changes_nothing_iff _ 1 1 _).2 (by decide)).mpr (by decide)

theorem zero_index_after_a_conflict : ¬ KeptOnFailure ⟨_, numbered_three⟩ 1 1
    [⟨2, 2, [], [], [], [], []⟩, ⟨2, 0, [], [], [], [], []⟩] := by
  intro h
  exact absurd (h (by decide)) (by decide)

end Atomicity

end Tightrope.Sync.Consensus
