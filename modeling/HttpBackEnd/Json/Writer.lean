import HttpBackEnd.Json.Schema

/-! # The bundled rapidjson writers

`Writer` and `PrettyWriter` as slothjson uses them: `GenericValue::Accept` hands the parts
of a value to a writer, which keeps a stack of levels to know what to put in front of the
next part. A failed assertion is `none`. Doubles are left out, as the reader keeps no
value for them.

`accept_eq` says what comes of it: the text of a value depends on nothing but the value
and its depth.
-/

namespace HttpBackEnd.Json

/-- `Writer::Level`. -/
structure Level where
  inArray : Bool
  valueCount : Nat := 0
deriving DecidableEq, Repr

/-- A writer: `pretty` tells a `PrettyWriter`, and the levels are from the top. -/
structure Writer where
  pretty : Bool
  levels : List Level := []
  hasRoot : Bool := false
  out : Bytes := []
deriving DecidableEq, Repr

/-- `WriteIndent`, with `indentCharCount_` at its default. -/
def writeIndent (depth : Nat) : Bytes := List.replicate (depth * 4) 32

/-- `WriteString` over a text of any bytes. -/
def quote (text : Bytes) : Bytes := 34 :: (text.flatMap writeChar ++ [34])

/-- `i32toa` and its three siblings. -/
def writeInt (value : Int) : Bytes := ascii (toString value)

namespace Writer

variable (writer : Writer)

/-- Text to the output stream. -/
def put (text : Bytes) : Writer := { writer with out := writer.out ++ text }

/-- What `Prefix` puts in front of a part, and `PrettyPrefix`. -/
def separator (pretty : Bool) (depth : Nat) (level : Level) : Bytes :=
  if pretty then
    if level.inArray then
      (if 0 < level.valueCount then [44] else []) ++ 10 :: writeIndent depth
    else
      (if 0 < level.valueCount then
        if level.valueCount % 2 = 0 then [44, 10] else [58, 32]
      else [10]) ++
        if level.valueCount % 2 = 0 then writeIndent depth else []
  else if 0 < level.valueCount then
    if level.inArray then [44] else if level.valueCount % 2 = 0 then [44] else [58]
  else []

/-- `Prefix` and `PrettyPrefix`: in an object every other part is a name. -/
def writePrefix (isString : Bool) : Option Writer :=
  match writer.levels with
  | [] => if writer.hasRoot then none else some { writer with hasRoot := true }
  | level :: levels =>
      if !level.inArray && level.valueCount % 2 = 0 && !isString then none
      else some { writer with
        levels := { level with valueCount := level.valueCount + 1 } :: levels
        out := writer.out ++ separator writer.pretty writer.levels.length level }

/-- `StartObject` and `StartArray`. -/
def start (inArray : Bool) : Option Writer :=
  (writer.writePrefix false).map fun writer =>
    { writer with
      levels := { inArray } :: writer.levels
      out := writer.out ++ [if inArray then 91 else 123] }

/-- `EndObject` and `EndArray`. -/
def finish (inArray : Bool) : Option Writer :=
  match writer.levels with
  | [] => none
  | level :: levels =>
      if level.inArray ≠ inArray then none
      else some { writer with
        levels
        out := writer.out ++
          (if writer.pretty && level.valueCount ≠ 0 then 10 :: writeIndent levels.length else []) ++
          [if inArray then 93 else 125] }

/-- `String` and `Key`. -/
def string (text : Bytes) : Option Writer := (writer.writePrefix true).map (·.put (quote text))

/-- A literal or a number. -/
def plain (text : Bytes) : Option Writer := (writer.writePrefix false).map (·.put text)

end Writer

mutual

/-- `GenericValue::Accept`. -/
def accept : Value → Writer → Option Writer
  | .null, writer => writer.plain (ascii "null")
  | .bool value, writer => writer.plain (ascii (if value then "true" else "false"))
  | .int value, writer => writer.plain (writeInt value)
  | .double, _ => none
  | .string text, writer => writer.string text
  | .array elements, writer =>
      ((writer.start true).bind (acceptElements elements)).bind (·.finish true)
  | .object members, writer =>
      ((writer.start false).bind (acceptMembers members)).bind (·.finish false)

/-- The loop over the elements of an array. -/
def acceptElements : List Value → Writer → Option Writer
  | [], writer => some writer
  | element :: elements, writer => (accept element writer).bind (acceptElements elements)

/-- The loop over the members of an object. -/
def acceptMembers : List (Bytes × Value) → Writer → Option Writer
  | [], writer => some writer
  | (name, value) :: members, writer =>
      ((writer.string name).bind (accept value)).bind (acceptMembers members)

end

/-- `slothjson::encode<pretty>` of a document: the buffer is read as a C string. -/
def encodeText (pretty : Bool) (document : Value) : Option Bytes :=
  (accept document { pretty }).map fun writer => cstr writer.out

/-! ## The text of a value -/

/-- A new line, if there are any. -/
def newLine (pretty : Bool) (depth : Nat) : Bytes := if pretty then 10 :: writeIndent depth else []

/-- The end of a list of parts. -/
def lastLine (pretty : Bool) (depth : Nat) (empty : Bool) : Bytes :=
  if empty then [] else newLine pretty depth

mutual

/-- The text of a value at a depth. -/
def render (pretty : Bool) : Nat → Value → Bytes
  | _, .null => ascii "null"
  | _, .bool value => ascii (if value then "true" else "false")
  | _, .int value => writeInt value
  | _, .double => []
  | _, .string text => quote text
  | depth, .array elements =>
      91 :: (renderElements pretty (depth + 1) true elements ++
        lastLine pretty depth elements.isEmpty ++ [93])
  | depth, .object members =>
      123 :: (renderMembers pretty (depth + 1) true members ++
        lastLine pretty depth members.isEmpty ++ [125])

/-- The elements of an array, with what stands in front of each. -/
def renderElements (pretty : Bool) (depth : Nat) : Bool → List Value → Bytes
  | _, [] => []
  | first, element :: elements =>
      (if first then [] else [44]) ++ newLine pretty depth ++ render pretty depth element ++
        renderElements pretty depth false elements

/-- The members of an object. -/
def renderMembers (pretty : Bool) (depth : Nat) : Bool → List (Bytes × Value) → Bytes
  | _, [] => []
  | first, (name, value) :: members =>
      (if first then [] else [44]) ++ newLine pretty depth ++ quote name ++
        (if pretty then [58, 32] else [58]) ++ render pretty depth value ++
        renderMembers pretty depth false members

end

/-- Values without doubles, whose numbers are those of an `int64_t` or a `uint64_t`. -/
inductive Value.Integral : Value → Prop where
  | null : Integral .null
  | bool (value : Bool) : Integral (.bool value)
  | int {value : Int} (low : -9223372036854775808 ≤ value)
      (high : value < 18446744073709551616) : Integral (.int value)
  | string (text : Bytes) : Integral (.string text)
  | array {elements : List Value} (each : ∀ element ∈ elements, Integral element) :
      Integral (.array elements)
  | object {members : List (Bytes × Value)} (each : ∀ member ∈ members, Integral member.2) :
      Integral (.object members)

namespace Writer

/-- The next part may be a value. -/
def TakesValue (writer : Writer) : Prop :=
  match writer.levels with
  | [] => writer.hasRoot = false
  | level :: _ => level.inArray = true ∨ level.valueCount % 2 = 1

/-- The writer after a value with a text. -/
def wrote (writer : Writer) (text : Bytes) : Writer :=
  match writer.levels with
  | [] => { writer with hasRoot := true, out := writer.out ++ text }
  | level :: levels =>
      { writer with
        levels := { level with valueCount := level.valueCount + 1 } :: levels
        out := writer.out ++ separator writer.pretty writer.levels.length level ++ text }

variable {writer : Writer}

theorem writePrefix_eq {isString : Bool} (ready : writer.TakesValue) :
    writer.writePrefix isString = some (writer.wrote []) := by
  obtain ⟨pretty, levels, hasRoot, out⟩ := writer
  cases levels with
  | nil =>
      change hasRoot = false at ready
      simp [writePrefix, wrote, ready]
  | cons level levels =>
      have value : (!level.inArray && decide (level.valueCount % 2 = 0) && !isString) = false := by
        rcases ready with array | odd
        · simp [array]
        · simp [odd]
      simp only [writePrefix, value, Bool.false_eq_true, ↓reduceIte, wrote, List.append_nil]

theorem wrote_put (writer : Writer) (text more : Bytes) :
    (writer.wrote text).put more = writer.wrote (text ++ more) := by
  obtain ⟨pretty, levels, hasRoot, out⟩ := writer
  cases levels <;> simp only [wrote, put, List.append_assoc]

theorem plain_eq (ready : writer.TakesValue) (text : Bytes) :
    writer.plain text = some (writer.wrote text) := by
  rw [plain, writePrefix_eq ready, Option.map_some, wrote_put, List.nil_append]

theorem string_eq (ready : writer.TakesValue) (text : Bytes) :
    writer.string text = some (writer.wrote (quote text)) := by
  rw [string, writePrefix_eq ready, Option.map_some, wrote_put, List.nil_append]

theorem levels_wrote (writer : Writer) (text : Bytes) :
    (writer.wrote text).levels.length = writer.levels.length := by
  obtain ⟨pretty, levels, hasRoot, out⟩ := writer
  cases levels <;> rfl

theorem pretty_wrote (writer : Writer) (text : Bytes) :
    (writer.wrote text).pretty = writer.pretty := by
  obtain ⟨pretty, levels, hasRoot, out⟩ := writer
  cases levels <;> rfl

theorem start_eq (ready : writer.TakesValue) (inArray : Bool) :
    writer.start inArray =
      some { writer.wrote [if inArray then 91 else 123] with
        levels := { inArray } :: (writer.wrote []).levels } := by
  rw [start, writePrefix_eq ready, Option.map_some]
  obtain ⟨pretty, levels, hasRoot, out⟩ := writer
  cases levels <;> simp only [wrote, List.append_assoc, List.append_nil]

/-- The end of an array or an object that was started on a writer. -/
theorem finish_eq (writer : Writer) (inArray : Bool) (count : Nat) (text parts : Bytes) :
    ({ writer.wrote text with
      levels := ⟨inArray, count⟩ :: (writer.wrote []).levels
      out := (writer.wrote text).out ++ parts } : Writer).finish inArray =
      some (writer.wrote (text ++ parts ++
        lastLine writer.pretty writer.levels.length (count == 0) ++
        [if inArray then 93 else 125])) := by
  obtain ⟨pretty, levels, hasRoot, out⟩ := writer
  cases levels <;> cases pretty <;> by_cases zero : count = 0 <;>
    simp [finish, wrote, lastLine, newLine, zero, List.append_assoc]

end Writer

/-- The text of a value is put behind what is there, whatever that is. -/
def Writes (value : Value) : Prop :=
  ∀ writer : Writer, writer.TakesValue →
    accept value writer = some (writer.wrote (render writer.pretty writer.levels.length value))

/-- The separator of an element. -/
theorem separator_element (pretty : Bool) (depth count : Nat) :
    Writer.separator pretty depth ⟨true, count⟩ =
      (if (count == 0) = true then [] else [44]) ++ newLine pretty depth := by
  cases pretty <;> by_cases zero : count = 0 <;>
    simp [Writer.separator, newLine, zero, Nat.pos_iff_ne_zero]

/-- The separator of a name. -/
theorem separator_name (pretty : Bool) (depth count : Nat) (even : count % 2 = 0) :
    Writer.separator pretty depth ⟨false, count⟩ =
      (if (count == 0) = true then [] else [44]) ++ newLine pretty depth := by
  cases pretty <;> by_cases zero : count = 0 <;>
    simp [Writer.separator, newLine, zero, even, Nat.pos_iff_ne_zero]

/-- The separator of the value of a member. -/
theorem separator_value (pretty : Bool) (depth count : Nat) (even : count % 2 = 0) :
    Writer.separator pretty depth ⟨false, count + 1⟩ = if pretty then [58, 32] else [58] := by
  have odd : (count + 1) % 2 ≠ 0 := by omega
  cases pretty <;> simp [Writer.separator, odd]

theorem acceptElements_eq {elements : List Value} (each : ∀ element ∈ elements, Writes element)
    (pretty hasRoot : Bool) (count : Nat) (levels : List Level) (out : Bytes) :
    acceptElements elements ⟨pretty, ⟨true, count⟩ :: levels, hasRoot, out⟩ =
      some ⟨pretty, ⟨true, count + elements.length⟩ :: levels, hasRoot,
        out ++ renderElements pretty (levels.length + 1) (count == 0) elements⟩ := by
  induction elements generalizing count out with
  | nil =>
      simp only [acceptElements, List.length_nil, Nat.add_zero, renderElements, List.append_nil]
  | cons element elements ih =>
      have written := each element List.mem_cons_self
        ⟨pretty, ⟨true, count⟩ :: levels, hasRoot, out⟩ (.inl rfl)
      simp only [Writer.wrote, List.length_cons, separator_element] at written
      have later := ih (fun other member => each other (List.mem_cons_of_mem _ member)) (count + 1)
      rw [acceptElements, written, Option.bind_some, later, renderElements, List.length_cons]
      have more : (count + 1 == 0) = false := rfl
      simp only [more, List.append_assoc, Nat.add_assoc, Nat.add_comm 1]

theorem acceptMembers_eq {members : List (Bytes × Value)}
    (each : ∀ member ∈ members, Writes member.2) (pretty hasRoot : Bool) (count : Nat)
    (even : count % 2 = 0) (levels : List Level) (out : Bytes) :
    acceptMembers members ⟨pretty, ⟨false, count⟩ :: levels, hasRoot, out⟩ =
      some ⟨pretty, ⟨false, count + 2 * members.length⟩ :: levels, hasRoot,
        out ++ renderMembers pretty (levels.length + 1) (count == 0) members⟩ := by
  induction members generalizing count out with
  | nil =>
      simp only [acceptMembers, List.length_nil, Nat.mul_zero, Nat.add_zero, renderMembers,
        List.append_nil]
  | cons member members ih =>
      obtain ⟨name, value⟩ := member
      let named : Writer := ⟨pretty, ⟨false, count + 1⟩ :: levels, hasRoot, out ++
        Writer.separator pretty (levels.length + 1) ⟨false, count⟩ ++ quote name⟩
      have key : Writer.string ⟨pretty, ⟨false, count⟩ :: levels, hasRoot, out⟩ name =
          some named := by
        simp only [Writer.string, Writer.writePrefix, Bool.not_true, Bool.and_false,
          Bool.false_eq_true, ↓reduceIte, Option.map_some, Writer.put, List.length_cons, named]
      have odd : (count + 1) % 2 = 1 := by omega
      have written := each (name, value) List.mem_cons_self named (.inr odd)
      simp only [Writer.wrote, named, List.length_cons, separator_name _ _ _ even,
        separator_value _ _ _ even] at written
      have later := ih (fun other member => each other (List.mem_cons_of_mem _ member)) (count + 2)
        (by omega)
      rw [acceptMembers, key, Option.bind_some]
      simp only [named, separator_name _ _ _ even]
      rw [written, Option.bind_some, later, renderMembers, List.length_cons]
      have more : (count + 2 == 0) = false := rfl
      simp only [more, List.append_assoc, Nat.mul_add, Nat.mul_one, Nat.add_assoc, Nat.add_comm 2]

/-- **The writers write the text of a value**, at any place where a value may stand. -/
theorem Value.Integral.writes {value : Value} (integral : value.Integral) : Writes value := by
  induction integral with
  | null => exact fun writer ready => Writer.plain_eq ready _
  | bool value => exact fun writer ready => Writer.plain_eq ready _
  | int low high => exact fun writer ready => Writer.plain_eq ready _
  | string text => exact fun writer ready => Writer.string_eq ready _
  | @array elements _ each =>
      intro writer ready
      have parts := acceptElements_eq each writer.pretty (writer.wrote [91]).hasRoot 0
        (writer.wrote []).levels (writer.wrote [91]).out
      have closed := writer.finish_eq true elements.length [91]
        (renderElements writer.pretty (writer.levels.length + 1) true elements)
      rw [Writer.levels_wrote, Nat.zero_add] at parts
      rw [accept, Writer.start_eq ready, Option.bind_some]
      simp only [↓reduceIte, Writer.pretty_wrote]
      rw [parts, Option.bind_some]
      simp only [Writer.pretty_wrote] at closed
      refine closed.trans ?_
      cases elements <;> rfl
  | @object members _ each =>
      intro writer ready
      have parts := acceptMembers_eq each writer.pretty (writer.wrote [123]).hasRoot 0 rfl
        (writer.wrote []).levels (writer.wrote [123]).out
      have closed := writer.finish_eq false (2 * members.length) [123]
        (renderMembers writer.pretty (writer.levels.length + 1) true members)
      rw [Writer.levels_wrote, Nat.zero_add] at parts
      rw [accept, Writer.start_eq ready, Option.bind_some]
      simp only [Bool.false_eq_true, ↓reduceIte, Writer.pretty_wrote]
      rw [parts, Option.bind_some]
      simp only [Writer.pretty_wrote] at closed
      refine closed.trans ?_
      cases members <;> rfl

/-- What `encode<pretty>` gives for a document. -/
theorem encodeText_eq {document : Value} (integral : document.Integral) (pretty : Bool) :
    encodeText pretty document = some (cstr (render pretty 0 document)) := by
  rw [encodeText, integral.writes { pretty } rfl]
  rfl

end HttpBackEnd.Json
