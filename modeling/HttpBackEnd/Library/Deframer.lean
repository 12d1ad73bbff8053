import Mathlib.Data.List.Basic

/-! # Deframers

A framed message is read symbol by symbol; a deframer emits what belongs to the body and
knows where the message ends. What has been read so far leaves the message open, completes
it, goes beyond its end, or is no message. The input may come in pieces: an open message is
continued from the state reached.
-/

namespace Deframe

variable {State Symbol : Type*}

/-- A deframer: which states end the message, and a step with what it emits. -/
structure Deframer (State Symbol : Type*) where
  final : State → Bool
  step : State → Symbol → Option (State × List Symbol)

/-- What the input read so far amounts to, with the body so far. -/
inductive Status (State Symbol : Type*) where
  | opened (state : State) (body : List Symbol)
  | complete (body : List Symbol)
  | beyond
  | invalid

/-- More of the body in front. -/
def Status.prepend (emitted : List Symbol) : Status State Symbol → Status State Symbol
  | .opened state body => .opened state (emitted ++ body)
  | .complete body => .complete (emitted ++ body)
  | .beyond => .beyond
  | .invalid => .invalid

/-- The input is a message or the start of one. -/
def Status.Sound (status : Status State Symbol) : Prop :=
  (∃ state body, status = .opened state body) ∨ ∃ body, status = .complete body

namespace Deframer

variable (deframer : Deframer State Symbol)

/-- Read an input from a state on. -/
def status : State → List Symbol → Status State Symbol
  | state, [] => if deframer.final state then .complete [] else .opened state []
  | state, symbol :: input =>
      if deframer.final state then .beyond
      else
        match deframer.step state symbol with
        | none => .invalid
        | some (next, emitted) => (status next input).prepend emitted

end Deframer

variable {deframer : Deframer State Symbol} {state next : State} {body : List Symbol}

theorem Status.prepend_nil (status : Status State Symbol) : status.prepend [] = status := by
  cases status <;> rfl

theorem Status.prepend_prepend (first second : List Symbol) (status : Status State Symbol) :
    (status.prepend second).prepend first = status.prepend (first ++ second) := by
  cases status <;> simp [Status.prepend]

/-- Symbols in front do not make a status sound. -/
theorem Status.sound_of_prepend {emitted : List Symbol} {status : Status State Symbol}
    (sound : (status.prepend emitted).Sound) : status.Sound := by
  cases status with
  | opened state body => exact .inl ⟨state, body, rfl⟩
  | complete body => exact .inr ⟨body, rfl⟩
  | beyond => exact sound
  | invalid => exact sound

theorem Status.not_sound_beyond : ¬(Status.beyond : Status State Symbol).Sound := by
  rintro (⟨_, _, impossible⟩ | ⟨_, impossible⟩)
  · cases impossible
  · cases impossible

/-- A message that has ended is complete. -/
theorem status_nil_of_final (ended : deframer.final state) :
    deframer.status state [] = .complete [] := by
  simp [Deframer.status, ended]

/-- A message that goes on is open. -/
theorem status_nil_of_not_final (running : deframer.final state = false) :
    deframer.status state [] = .opened state [] := by
  simp [Deframer.status, running]

/-- Nothing may come behind the end. -/
theorem status_cons_of_final (ended : deframer.final state) (symbol : Symbol)
    (input : List Symbol) : deframer.status state (symbol :: input) = .beyond := by
  simp [Deframer.status, ended]

/-- One more symbol is taken. -/
theorem status_cons_of_step {symbol : Symbol} {emitted : List Symbol}
    (running : deframer.final state = false)
    (stepped : deframer.step state symbol = some (next, emitted)) (input : List Symbol) :
    deframer.status state (symbol :: input) = (deframer.status next input).prepend emitted := by
  simp [Deframer.status, running, stepped]

theorem status_cons_of_none {symbol : Symbol} (running : deframer.final state = false)
    (refused : deframer.step state symbol = none) (input : List Symbol) :
    deframer.status state (symbol :: input) = .invalid := by
  simp [Deframer.status, running, refused]

/-- How a status with something in front came about. -/
theorem Status.prepend_eq_opened {emitted : List Symbol} {status : Status State Symbol}
    (found : status.prepend emitted = .opened next body) :
    ∃ tail, status = .opened next tail ∧ body = emitted ++ tail := by
  cases status with
  | opened state tail =>
      cases found
      exact ⟨tail, rfl, rfl⟩
  | complete tail => cases found
  | beyond => cases found
  | invalid => cases found

/-- A complete message has its front in front. -/
theorem Status.prepend_eq_complete {emitted : List Symbol} {status : Status State Symbol}
    (found : status.prepend emitted = .complete body) :
    ∃ tail, status = .complete tail ∧ body = emitted ++ tail := by
  cases status with
  | complete tail =>
      cases found
      exact ⟨tail, rfl, rfl⟩
  | opened state tail => cases found
  | beyond => cases found
  | invalid => cases found

/-- An open message is continued from the state reached. -/
theorem status_append_of_opened {first : List Symbol}
    (read : deframer.status state first = .opened next body) (second : List Symbol) :
    deframer.status state (first ++ second) = (deframer.status next second).prepend body := by
  induction first generalizing state body with
  | nil =>
      cases running : deframer.final state with
      | true =>
          rw [status_nil_of_final running] at read
          cases read
      | false =>
          rw [status_nil_of_not_final running] at read
          cases read
          rw [List.nil_append, Status.prepend_nil]
  | cons symbol first ih =>
      cases running : deframer.final state with
      | true =>
          rw [status_cons_of_final running] at read
          cases read
      | false =>
          cases stepped : deframer.step state symbol with
          | none =>
              rw [status_cons_of_none running stepped] at read
              cases read
          | some result =>
              obtain ⟨later, emitted⟩ := result
              rw [status_cons_of_step running stepped] at read
              obtain ⟨tail, rest, rfl⟩ := Status.prepend_eq_opened read
              rw [List.cons_append, status_cons_of_step running stepped, ih rest,
                Status.prepend_prepend]

/-- Anything after a complete message goes beyond it. -/
theorem status_append_of_complete {first second : List Symbol}
    (read : deframer.status state first = .complete body) (more : second ≠ []) :
    deframer.status state (first ++ second) = .beyond := by
  induction first generalizing state body with
  | nil =>
      cases running : deframer.final state with
      | true =>
          obtain ⟨symbol, second, rfl⟩ := List.exists_cons_of_ne_nil more
          exact status_cons_of_final running symbol second
      | false =>
          rw [status_nil_of_not_final running] at read
          cases read
  | cons symbol first ih =>
      cases running : deframer.final state with
      | true =>
          rw [status_cons_of_final running] at read
          cases read
      | false =>
          cases stepped : deframer.step state symbol with
          | none =>
              rw [status_cons_of_none running stepped] at read
              cases read
          | some result =>
              obtain ⟨later, emitted⟩ := result
              rw [status_cons_of_step running stepped] at read
              obtain ⟨tail, rest, rfl⟩ := Status.prepend_eq_complete read
              rw [List.cons_append, status_cons_of_step running stepped, ih rest]
              rfl

/-- The start of a message or of its start is one. -/
theorem sound_of_append {first second : List Symbol}
    (sound : (deframer.status state (first ++ second)).Sound) :
    (deframer.status state first).Sound := by
  induction first generalizing state with
  | nil =>
      cases running : deframer.final state with
      | true => exact .inr ⟨[], status_nil_of_final running⟩
      | false => exact .inl ⟨state, [], status_nil_of_not_final running⟩
  | cons symbol first ih =>
      rw [List.cons_append] at sound
      cases running : deframer.final state with
      | true =>
          rw [status_cons_of_final running] at sound ⊢
          exact sound
      | false =>
          cases stepped : deframer.step state symbol with
          | none =>
              rw [status_cons_of_none running stepped] at sound ⊢
              exact sound
          | some result =>
              obtain ⟨later, emitted⟩ := result
              rw [status_cons_of_step running stepped] at sound ⊢
              rcases ih (Status.sound_of_prepend sound) with ⟨last, body, rest⟩ | ⟨body, rest⟩
              · rw [rest]
                exact .inl ⟨last, _, rfl⟩
              · rw [rest]
                exact .inr ⟨_, rfl⟩

/-- Nothing follows a complete message in a sound input. -/
theorem eq_nil_of_complete {first second : List Symbol}
    (read : deframer.status state first = .complete body)
    (sound : (deframer.status state (first ++ second)).Sound) : second = [] := by
  by_contra more
  rw [status_append_of_complete read more] at sound
  exact Status.not_sound_beyond sound

/-- A measure that is zero at the end and falls by at most one with a symbol bounds the
length of a message from below. -/
theorem le_length_of_complete {measure : State → Nat}
    (ends : ∀ state, deframer.final state = true → measure state = 0)
    (falls : ∀ state symbol next emitted, deframer.step state symbol = some (next, emitted) →
      measure state ≤ measure next + 1)
    {input : List Symbol} (read : deframer.status state input = .complete body) :
    measure state ≤ input.length := by
  induction input generalizing state body with
  | nil =>
      cases running : deframer.final state with
      | true => exact Nat.le_of_eq (ends state running)
      | false =>
          rw [status_nil_of_not_final running] at read
          cases read
  | cons symbol input ih =>
      cases running : deframer.final state with
      | true =>
          rw [status_cons_of_final running] at read
          cases read
      | false =>
          cases stepped : deframer.step state symbol with
          | none =>
              rw [status_cons_of_none running stepped] at read
              cases read
          | some result =>
              obtain ⟨later, emitted⟩ := result
              rw [status_cons_of_step running stepped] at read
              obtain ⟨tail, rest, rfl⟩ := Status.prepend_eq_complete read
              have shorter := ih rest
              have fallen := falls state symbol later emitted stepped
              rw [List.length_cons]
              omega

end Deframe
