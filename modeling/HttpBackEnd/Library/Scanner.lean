import Mathlib.Data.List.Infix

/-! # Scanners

A scanner reads symbols one by one and stops in front of the first one it refuses. It
may be fed its input in pieces: as long as nothing has been refused, scanning on from
the state reached is the same as scanning the pieces put together.
-/

namespace Scanner

variable {State Symbol : Type*} (step : State → Symbol → Option State)

/-- Read as far as the scanner goes; what is left starts with the refused symbol. -/
def scan : State → List Symbol → State × List Symbol
  | state, [] => (state, [])
  | state, symbol :: rest =>
      match step state symbol with
      | some next => scan next rest
      | none => (state, symbol :: rest)

variable {step} {state : State}

theorem scan_cons_some {symbol : Symbol} {rest : List Symbol} {next : State}
    (stepped : step state symbol = some next) :
    scan step state (symbol :: rest) = scan step next rest := by
  simp only [scan, stepped]

theorem scan_cons_none {symbol : Symbol} {rest : List Symbol} (refused : step state symbol = none) :
    scan step state (symbol :: rest) = (state, symbol :: rest) := by
  simp only [scan, refused]

/-- A state that refuses every symbol leaves all input. -/
theorem scan_stuck (stuck : ∀ symbol, step state symbol = none) (input : List Symbol) :
    scan step state input = (state, input) := by
  cases input with
  | nil => rfl
  | cons symbol rest => exact scan_cons_none (stuck symbol)

/-- What is left is the end of the input. -/
theorem scan_suffix (step : State → Symbol → Option State) (state : State) (input : List Symbol) :
    (scan step state input).2 <:+ input := by
  induction input generalizing state with
  | nil => exact List.suffix_rfl
  | cons symbol rest ih =>
      cases stepped : step state symbol with
      | some next =>
          rw [scan_cons_some stepped]
          exact (ih next).trans (List.suffix_cons symbol rest)
      | none => rw [scan_cons_none stepped]

/-- What was read and what is left make up the input. -/
theorem scan_read_append (step : State → Symbol → Option State) (state : State)
    (input : List Symbol) :
    input.take (input.length - (scan step state input).2.length) ++ (scan step state input).2 =
      input := by
  have left := List.suffix_iff_eq_drop.mp (scan_suffix step state input)
  conv_lhs =>
    arg 2
    rw [left]
  exact List.take_append_drop _ _

/-- A scanner that leaves all its input has not moved. -/
theorem scan_unmoved {input : List Symbol} (left : (scan step state input).2 = input) :
    (scan step state input).1 = state := by
  cases input with
  | nil => rfl
  | cons symbol rest =>
      cases stepped : step state symbol with
      | some next =>
          rw [scan_cons_some stepped] at left
          have shorter := (scan_suffix step next rest).length_le
          rw [left, List.length_cons] at shorter
          omega
      | none => rw [scan_cons_none stepped]

/-- Input that is read to its end can be followed by more. -/
theorem scan_append_of_read {first : List Symbol} (read : (scan step state first).2 = [])
    (second : List Symbol) :
    scan step state (first ++ second) = scan step (scan step state first).1 second := by
  induction first generalizing state with
  | nil => rfl
  | cons symbol rest ih =>
      cases stepped : step state symbol with
      | some next =>
          rw [scan_cons_some stepped] at read
          rw [List.cons_append, scan_cons_some stepped, scan_cons_some stepped]
          exact ih read
      | none =>
          rw [scan_cons_none stepped] at read
          cases read

/-- What follows a refused symbol is not looked at. -/
theorem scan_append_of_refused {first : List Symbol} (refused : (scan step state first).2 ≠ [])
    (second : List Symbol) :
    scan step state (first ++ second) =
      ((scan step state first).1, (scan step state first).2 ++ second) := by
  induction first generalizing state with
  | nil => exact absurd rfl refused
  | cons symbol rest ih =>
      cases stepped : step state symbol with
      | some next =>
          rw [scan_cons_some stepped] at refused
          rw [List.cons_append, scan_cons_some stepped, scan_cons_some stepped]
          exact ih refused
      | none =>
          rw [List.cons_append, scan_cons_none stepped, scan_cons_none stepped, List.cons_append]

/-- A property of the state that every step keeps holds where the scanner stops. -/
theorem scan_keeps (predicate : State → Prop)
    (keeps : ∀ state symbol next, predicate state → step state symbol = some next → predicate next)
    (holds : predicate state) (input : List Symbol) : predicate (scan step state input).1 := by
  induction input generalizing state with
  | nil => exact holds
  | cons symbol rest ih =>
      cases stepped : step state symbol with
      | some next =>
          rw [scan_cons_some stepped]
          exact ih (keeps state symbol next holds stepped)
      | none =>
          rw [scan_cons_none stepped]
          exact holds

/-! ## Inputs that are read to their end -/

/-- The scanner reads the whole input and is left in a state. -/
def Reads (step : State → Symbol → Option State) (state : State) (input : List Symbol)
    (final : State) : Prop :=
  scan step state input = (final, [])

variable {final middle : State} {first second : List Symbol}

theorem Reads.nil (state : State) : Reads step state [] state := rfl

theorem Reads.cons {symbol : Symbol} {rest : List Symbol} {next : State}
    (stepped : step state symbol = some next) (read : Reads step next rest final) :
    Reads step state (symbol :: rest) final := by
  unfold Reads
  rw [scan_cons_some stepped]
  exact read

/-- After an input read to its end the scanner goes on where it was left. -/
theorem Reads.scan_append (read : Reads step state first middle) (second : List Symbol) :
    scan step state (first ++ second) = scan step middle second := by
  have left : (scan step state first).2 = [] := congrArg Prod.snd read
  rw [scan_append_of_read left, show (scan step state first).1 = middle from congrArg Prod.fst read]

theorem Reads.append (read : Reads step state first middle)
    (more : Reads step middle second final) : Reads step state (first ++ second) final :=
  (read.scan_append second).trans more

/-- What is read to its end was read to the end of its first part before. -/
theorem Reads.split (read : Reads step state (first ++ second) final) :
    ∃ middle, Reads step state first middle ∧ Reads step middle second final := by
  induction first generalizing state with
  | nil => exact ⟨state, Reads.nil state, read⟩
  | cons symbol first ih =>
      cases stepped : step state symbol with
      | none =>
          unfold Reads at read
          rw [List.cons_append, scan_cons_none stepped] at read
          cases read
      | some next =>
          unfold Reads at read
          rw [List.cons_append, scan_cons_some stepped] at read
          obtain ⟨middle, before, after⟩ := ih read
          exact ⟨middle, Reads.cons stepped before, after⟩

end Scanner
