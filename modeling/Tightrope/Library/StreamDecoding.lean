import Tightrope.Library.Bytes

/-!
Decoders that are called again and again with the input that is left and a buffer for what they give out, and the loop
that calls one until it has ended.
-/

namespace StreamDecoding

variable {Code ε : Type}

structure Call (State Code : Type) where
  state : State
  consumed : ℕ
  output : Bytes
  code : Code

structure StreamDecoder (Code : Type) where
  State : Type
  -- `none` where a decoder cannot be made.
  start : Option State
  call : State → Bytes → Call State Code

inductive Verdict (ε : Type) where
  | goesOn
  | finished
  | fails (error : ε)

structure Driver (Code ε : Type) where
  broken : Code → Option ε
  verdict : Code → Bytes → Verdict ε
  tooLarge : ε
  stuck : ε

def drive (driver : Driver Code ε) (decoder : StreamDecoder Code) (maxSize : ℕ) :
    ℕ → decoder.State → Bytes → Bytes → Except ε Bytes
  | 0, _, _, _ => .error driver.stuck
  | fuel + 1, state, input, output =>
    let call := decoder.call state input
    let left := input.drop call.consumed
    match driver.broken call.code with
    | some error => .error error
    | none =>
      if call.output ≠ [] ∧ output.length + call.output.length > maxSize then .error driver.tooLarge
      else match driver.verdict call.code left with
        | .finished => .ok (output ++ call.output)
        | .fails error => .error error
        | .goesOn => drive driver decoder maxSize fuel call.state left (output ++ call.output)

section Loop

variable {driver : Driver Code ε} {decoder : StreamDecoder Code} {maxSize fuel fuel' : ℕ} {state : decoder.State}
  {input output result : Bytes}

theorem length_le_of_drive (h : drive driver decoder maxSize fuel state input output = .ok result)
    (houtput : output.length ≤ maxSize) : result.length ≤ maxSize := by
  induction fuel generalizing state input output with
  | zero => cases h
  | succ fuel ih =>
    rw [drive] at h
    split at h
    · cases h
    · split_ifs at h with hlarge
      have hsize : (output ++ (decoder.call state input).output).length ≤ maxSize := by
        rw [List.length_append]
        by_cases hempty : (decoder.call state input).output = []
        · rw [hempty]
          exact houtput
        · exact not_lt.mp fun hlt => hlarge ⟨hempty, hlt⟩
      split at h
      · cases h
        exact hsize
      · cases h
      · exact ih h hsize

def Progresses (driver : Driver Code ε) (decoder : StreamDecoder Code) : Prop :=
  ∀ state input, driver.verdict (decoder.call state input).code (input.drop (decoder.call state input).consumed) =
    .goesOn →
    (input.drop (decoder.call state input).consumed).length < input.length ∨ (decoder.call state input).output ≠ []

/-- For such a decoder the bound on the calls is never reached: more of it changes nothing. -/
theorem drive_fuel (hprogress : Progresses driver decoder) (houtput : output.length ≤ maxSize)
    (hfuel : input.length + (maxSize - output.length) < fuel)
    (hfuel' : input.length + (maxSize - output.length) < fuel') :
    drive driver decoder maxSize fuel state input output = drive driver decoder maxSize fuel' state input output := by
  induction fuel generalizing fuel' state input output with
  | zero => exact absurd hfuel (Nat.not_lt_zero _)
  | succ fuel ih =>
    cases fuel' with
    | zero => exact absurd hfuel' (Nat.not_lt_zero _)
    | succ fuel' =>
      rw [drive, drive]
      split
      · rfl
      · split_ifs with hlarge
        · rfl
        · cases hverdict : driver.verdict (decoder.call state input).code
            (input.drop (decoder.call state input).consumed) with
          | finished => rfl
          | fails error => rfl
          | goesOn =>
            have hgiven := hprogress state input hverdict
            have hle : (input.drop (decoder.call state input).consumed).length ≤ input.length :=
              (List.drop_sublist _ _).length_le
            have hsize : output.length + (decoder.call state input).output.length ≤ maxSize := by
              by_cases hempty : (decoder.call state input).output = []
              · rw [hempty]
                exact houtput
              · exact not_lt.mp fun hlt => hlarge ⟨hempty, hlt⟩
            have hless : (input.drop (decoder.call state input).consumed).length +
                (maxSize - (output.length + (decoder.call state input).output.length)) <
                  input.length + (maxSize - output.length) := by
              obtain hinput | hgives := hgiven
              · omega
              · have hpos := List.length_pos_iff.mpr hgives
                omega
            refine ih (by rwa [List.length_append]) ?_ ?_ <;> rw [List.length_append] <;> omega

/-- The states that the loop comes to, with the input left in each. -/
inductive Reaches (driver : Driver Code ε) (decoder : StreamDecoder Code) (input : Bytes) : decoder.State → Bytes → Prop
  | start {state : decoder.State} (h : decoder.start = some state) : Reaches driver decoder input state input
  | next {state : decoder.State} {left : Bytes} (h : Reaches driver decoder input state left)
      (hbroken : driver.broken (decoder.call state left).code = none)
      (hverdict : driver.verdict (decoder.call state left).code (left.drop (decoder.call state left).consumed) =
        .goesOn) :
      Reaches driver decoder input (decoder.call state left).state (left.drop (decoder.call state left).consumed)

/-- A loop that returns has come to a call that finishes. -/
theorem finished_of_drive {left : Bytes} (hreach : Reaches driver decoder input state left)
    (h : drive driver decoder maxSize fuel state left output = .ok result) :
    ∃ last rest, Reaches driver decoder input last rest ∧
      driver.verdict (decoder.call last rest).code (rest.drop (decoder.call last rest).consumed) = .finished := by
  induction fuel generalizing state left output with
  | zero => cases h
  | succ fuel ih =>
    rw [drive] at h
    split at h
    · cases h
    · next hbroken =>
      split_ifs at h
      split at h
      · next hfinished => exact ⟨state, left, hreach, hfinished⟩
      · cases h
      · next hverdict => exact ih (.next hreach hbroken hverdict) h

end Loop

section Contract

structure Contract (decoder : StreamDecoder Code) (goesOn ended : Code → Prop) (room : ℕ)
    (Encodes : Bytes → Bytes → Prop) where
  Pending : decoder.State → Bytes → Bytes → Prop
  start : ∀ payload form, Encodes payload form → ∃ state, decoder.start = some state ∧ Pending state form payload
  call : ∀ state left pending, Pending state left pending → ∃ pending',
    pending = (decoder.call state left).output ++ pending' ∧ (decoder.call state left).output.length ≤ room ∧
      ((ended (decoder.call state left).code ∧ left.drop (decoder.call state left).consumed = [] ∧ pending' = []) ∨
        (goesOn (decoder.call state left).code ∧
          Pending (decoder.call state left).state (left.drop (decoder.call state left).consumed) pending' ∧
          (left.drop (decoder.call state left).consumed).length + pending'.length < left.length + pending.length))

variable {decoder : StreamDecoder Code} {goesOn ended : Code → Prop} {room : ℕ} {Encodes : Bytes → Bytes → Prop}
  {driver : Driver Code ε} {maxSize fuel : ℕ}

structure Follows (driver : Driver Code ε) (decoder : StreamDecoder Code) (goesOn ended : Code → Prop) (form : Bytes) :
    Prop where
  broken : ∀ code, goesOn code ∨ ended code → driver.broken code = none
  ended : ∀ code, ended code → driver.verdict code [] = .finished
  goesOn : ∀ state left, Reaches driver decoder form state left → goesOn (decoder.call state left).code →
    driver.verdict (decoder.call state left).code (left.drop (decoder.call state left).consumed) = .goesOn

theorem drive_of_pending (contract : Contract decoder goesOn ended room Encodes) {form : Bytes}
    (hfollows : Follows driver decoder goesOn ended form) {state : decoder.State} {left pending output : Bytes}
    (hreach : Reaches driver decoder form state left) (hpending : contract.Pending state left pending)
    (hfuel : left.length + pending.length < fuel) (hsize : output.length + pending.length ≤ maxSize) :
    drive driver decoder maxSize fuel state left output = .ok (output ++ pending) := by
  induction fuel generalizing state left pending output with
  | zero => exact absurd hfuel (Nat.not_lt_zero _)
  | succ fuel ih =>
    obtain ⟨pending', rfl, -, hcases⟩ := contract.call state left pending hpending
    rw [List.length_append] at hsize
    have hroom : ¬ ((decoder.call state left).output ≠ [] ∧
        output.length + (decoder.call state left).output.length > maxSize) := by
      rintro ⟨-, hlarge⟩
      omega
    rw [drive]
    obtain ⟨hended, hleft, rfl⟩ | ⟨hgoesOn, hpending', hless⟩ := hcases
    · rw [hfollows.broken _ (.inr hended)]
      dsimp only
      rw [if_neg hroom, hleft, hfollows.ended _ hended, List.append_nil]
    · have hbroken := hfollows.broken _ (.inl hgoesOn)
      have hverdict := hfollows.goesOn state left hreach hgoesOn
      rw [hbroken]
      dsimp only
      rw [if_neg hroom, hverdict]
      dsimp only
      rw [ih (.next hreach hbroken hverdict) hpending' (by omega) (by rw [List.length_append]; omega),
        List.append_assoc]

/-- The loop gives back what has been encoded, if that is not above the limit. -/
theorem drive_of_encodes (contract : Contract decoder goesOn ended room Encodes) {payload form : Bytes}
    (hencodes : Encodes payload form) (hfollows : Follows driver decoder goesOn ended form)
    (hsize : payload.length ≤ maxSize) (hfuel : form.length + maxSize < fuel) :
    ∃ state, decoder.start = some state ∧ drive driver decoder maxSize fuel state form [] = .ok payload := by
  obtain ⟨state, hstart, hpending⟩ := contract.start payload form hencodes
  exact ⟨state, hstart, drive_of_pending contract hfollows (.start hstart) hpending (by omega) (by simpa using hsize)⟩

end Contract

end StreamDecoding
