import HttpBackEnd.Json.RoundTrip
import HttpBackEnd.Rds.Delivery

/-! # What was sent is read back

The reader of the program reads the JSON of a table back: each row is an object, or an array
in the compact format, with the values of the row. With the delivery of the JSON a client
that reads with it gets the table the database returned.
-/

namespace HttpBackEnd.Rds

open Json Transition

/-! ## Strings -/

/-- A control character is read back from its escape. -/
theorem parseHex4_escape {char : UInt8} (control : char < 32) :
    parseHex4 48 48 (hexDigit (char >>> 4)) (hexDigit (char &&& 15)) = some char.toNat := by
  have all : ∀ number < 32, parseHex4 48 48 (hexDigit (UInt8.ofNat number >>> 4))
      (hexDigit (UInt8.ofNat number &&& 15)) = some number := by decide
  have one := all char.toNat (UInt8.lt_iff_toNat_lt.mp control)
  rwa [UInt8.ofNat_toNat] at one

/-- Every byte is read back from its escape. -/
theorem parseStringToStream_escapeChar (char : UInt8) (stream : Bytes) :
    parseStringToStream (escapeChar char ++ stream) = put [char] (parseStringToStream stream) := by
  unfold escapeChar
  split_ifs with return' newline backslash quote formfeed backspace tab control
  · subst return'
    rfl
  · subst newline
    rfl
  · subst backslash
    rfl
  · subst quote
    rfl
  · subst formfeed
    rfl
  · subst backspace
    rfl
  · subst tab
    rfl
  · have small : char.toNat < 32 := UInt8.lt_iff_toNat_lt.mp control
    have hex := parseHex4_escape control
    have letter : escape 117 = none := rfl
    have plain : ¬(0xD800 ≤ char.toNat ∧ char.toNat ≤ 0xDBFF) := by omega
    have ascii : char.toNat ≤ 0x7F := by omega
    simp only [List.cons_append, List.nil_append]
    rw [parseStringToStream]
    simp only [↓reduceIte, letter, hex, if_neg plain, encodeUtf8, if_pos ascii]
    rw [show char.toNat.toUInt8 = char from UInt8.ofNat_toNat]
  · rw [List.singleton_append, parseStringToStream.eq_def]
    simp only [if_neg backslash, if_neg quote, if_neg control]

/-- Escaped strings come back. -/
theorem parseStringToStream_escape (text rest : Bytes) :
    parseStringToStream (escapeJsonStr text ++ 34 :: rest) = some (text, rest) := by
  induction text with
  | nil =>
      rw [escapeJsonStr, List.flatMap_nil, List.nil_append, parseStringToStream.eq_def]
      rfl
  | cons char text ih =>
      rw [escapeJsonStr, List.flatMap_cons, List.append_assoc, parseStringToStream_escapeChar,
        ← escapeJsonStr, ih]
      rfl

theorem zero_not_mem_escape (text : Bytes) : (0 : UInt8) ∉ escapeJsonStr text := by
  have hex : ∀ number < 32, (0 : UInt8) ≠ hexDigit (UInt8.ofNat number >>> 4) ∧
      (0 : UInt8) ≠ hexDigit (UInt8.ofNat number &&& 15) := by decide
  rw [escapeJsonStr, List.mem_flatMap]
  rintro ⟨char, _, zero⟩
  unfold escapeChar at zero
  split_ifs at zero with return' newline backslash quote formfeed backspace tab control
  all_goals try simp at zero
  · have digits := hex char.toNat (UInt8.lt_iff_toNat_lt.mp control)
    rw [UInt8.ofNat_toNat] at digits
    exact zero.elim digits.1 digits.2
  · subst zero
    exact control (by decide)

/-! ## Texts the reader reads -/

/-- A text that is read as a value, in front of anything that ends a number. -/
structure ReadsAs (text : Bytes) (value : Value) : Prop where
  opens : ∃ char rest, text = char :: rest ∧ Opens char
  reads : ∀ fuel rest, EndsNumber rest → 2 * (text ++ rest).length + 1 ≤ fuel →
    parseValue fuel (text ++ rest) = some (value, rest)
  plain : (0 : UInt8) ∉ text

variable {text : Bytes} {value : Value}

theorem ReadsAs.skipWhitespace (reads : ReadsAs text value) (rest : Bytes) :
    skipWhitespace (text ++ rest) = text ++ rest := by
  obtain ⟨char, more, rfl, opens⟩ := reads.opens
  rw [List.cons_append, skipWhitespace_opens opens]

theorem readsAs_string (text : Bytes) :
    ReadsAs (ascii "\"" ++ (escapeJsonStr text ++ ascii "\"")) (.string text) where
  opens := ⟨34, _, rfl, by simp [Opens]⟩
  reads := by
    intro fuel rest _ room
    obtain ⟨fuel, rfl⟩ : ∃ less, fuel = less + 1 := ⟨fuel - 1, by omega⟩
    have read := parseStringToStream_escape text rest
    change parseValue (fuel + 1) (34 :: (escapeJsonStr text ++ [34] ++ rest)) = _
    rw [List.append_assoc, List.singleton_append, parseValue_string, read]
    rfl
  plain := by
    have escaped := zero_not_mem_escape text
    simp [ascii, escaped]

theorem readsAs_null : ReadsAs (ascii "null") .null where
  opens := ⟨110, _, rfl, by simp [Opens]⟩
  reads := by
    intro fuel rest _ room
    obtain ⟨fuel, rfl⟩ : ∃ less, fuel = less + 1 := ⟨fuel - 1, by omega⟩
    rfl
  plain := by decide

theorem readsAs_int {number : Int} (low : -9223372036854775808 ≤ number)
    (high : number < 18446744073709551616) : ReadsAs (writeInt number) (.int number) where
  opens := by
    obtain ⟨char, rest, written, opens⟩ := (Value.Integral.int low high).opens false 0
    exact ⟨char, rest, written, opens⟩
  reads fuel rest ends room :=
    (Value.Integral.int low high).readsBack false 0 fuel rest ends room
  plain := zero_not_mem_writeInt number

/-! ## Lists of texts -/

theorem zero_not_mem_behindCommas {texts : List Bytes}
    (plain : ∀ text ∈ texts, (0 : UInt8) ∉ text) : (0 : UInt8) ∉ behindCommas texts := by
  rw [behindCommas, List.mem_flatMap]
  rintro ⟨text, member, zero⟩
  rcases List.mem_append.mp zero with comma | zero
  · exact absurd comma (by decide)
  · exact plain text member zero

theorem endsNumber_behindCommas {close : UInt8} (closes : close = 93 ∨ close = 125)
    (texts : List Bytes) (rest : Bytes) : EndsNumber (behindCommas texts ++ close :: rest) := by
  cases texts with
  | nil => exact endsNumber_closing false 0 rest closes
  | cons text texts =>
      rw [behindCommas_cons, List.append_assoc]
      exact endsNumber_comma _

/-- The elements of an array are read, the first without a comma. -/
theorem parseElements_texts {first : Bytes × Value} {parts : List (Bytes × Value)}
    (each : ∀ part ∈ first :: parts, ReadsAs part.1 part.2) (fuel : Nat) (rest : Bytes)
    (room : 2 * (first.1 ++ (behindCommas (parts.map Prod.fst) ++ 93 :: rest)).length + 2 ≤ fuel) :
    parseElements fuel (first.1 ++ (behindCommas (parts.map Prod.fst) ++ 93 :: rest)) =
      some (first.2 :: parts.map Prod.snd, rest) := by
  have own := each first List.mem_cons_self
  induction parts generalizing first fuel with
  | nil =>
      obtain ⟨fuel, rfl⟩ : ∃ less, fuel = less + 1 := ⟨fuel - 1, by omega⟩
      rw [List.map_nil] at room ⊢
      have read := own.reads fuel _ (endsNumber_behindCommas (.inl rfl) [] rest) (by omega)
      rw [parseElements, read]
      rfl
  | cons next parts ih =>
      obtain ⟨fuel, rfl⟩ : ∃ less, fuel = less + 1 := ⟨fuel - 1, by omega⟩
      have following := each next (List.mem_cons_of_mem _ List.mem_cons_self)
      have read := own.reads fuel _
        (endsNumber_behindCommas (.inl rfl) ((next :: parts).map Prod.fst) rest) (by omega)
      have text : behindCommas ((next :: parts).map Prod.fst) ++ 93 :: rest =
          44 :: (next.1 ++ (behindCommas (parts.map Prod.fst) ++ 93 :: rest)) := by
        rw [List.map_cons, behindCommas_cons, List.append_assoc, List.append_assoc]
        rfl
      rw [text] at room read ⊢
      have later := ih (fun part member => each part (List.mem_cons_of_mem _ member)) fuel (by
        simp only [List.length_append, List.length_cons] at room ⊢
        omega) following
      rw [parseElements, read]
      simp only [Option.bind_eq_bind, Option.bind_some, consume_comma]
      rw [following.skipWhitespace, later]
      rfl

/-- **An array of texts is read.** -/
theorem readsAs_array {parts : List (Bytes × Value)}
    (each : ∀ part ∈ parts, ReadsAs part.1 part.2) :
    ReadsAs (ascii "[" ++ ((ascii ",").intercalate (parts.map Prod.fst) ++ ascii "]"))
      (.array (parts.map Prod.snd)) := by
  cases parts with
  | nil =>
      refine ⟨⟨91, _, rfl, by simp [Opens]⟩, fun fuel rest _ room => ?_, by decide⟩
      obtain ⟨fuel, rfl⟩ : ∃ less, fuel = less + 1 := ⟨fuel - 1, by omega⟩
      rfl
  | cons first parts =>
      have own := each first List.mem_cons_self
      rw [List.map_cons, intercalate_comma]
      refine ⟨⟨91, _, rfl, by simp [Opens]⟩, fun fuel rest _ room => ?_, ?_⟩
      · obtain ⟨fuel, rfl⟩ : ∃ less, fuel = less + 1 := ⟨fuel - 1, by omega⟩
        have text :
            ascii "[" ++ (first.1 ++ behindCommas (parts.map Prod.fst) ++ ascii "]") ++ rest =
            91 :: (first.1 ++ (behindCommas (parts.map Prod.fst) ++ 93 :: rest)) := by
          simp [ascii]
        rw [text] at room ⊢
        have read := parseElements_texts each fuel rest (by
          simp only [List.length_append, List.length_cons] at room ⊢
          omega)
        have follows : consume 93 (skipWhitespace
            (first.1 ++ (behindCommas (parts.map Prod.fst) ++ 93 :: rest))) = none := by
          obtain ⟨char, more, written, opens⟩ := own.opens
          rw [own.skipWhitespace, written]
          exact if_neg opens.2.2.2.2.1
        rw [parseValue_array fuel follows, own.skipWhitespace, read]
        rfl
      · have later : (0 : UInt8) ∉ behindCommas (parts.map Prod.fst) := by
          refine zero_not_mem_behindCommas fun text member => ?_
          obtain ⟨part, listed, rfl⟩ := List.mem_map.mp member
          exact (each part (List.mem_cons_of_mem _ listed)).plain
        simp [ascii, own.plain, later]

/-- The text of a member. -/
def memberText (member : Bytes × (Bytes × Value)) : Bytes :=
  ascii "\"" ++ (escapeJsonStr member.1 ++ ascii "\"") ++ (ascii ":" ++ member.2.1)

/-- The name of a member is read, and its value comes next. -/
theorem parseMembers_text {member : Bytes × (Bytes × Value)}
    (reads : ReadsAs member.2.1 member.2.2) (fuel : Nat) (stream : Bytes) :
    parseMembers (fuel + 1) (memberText member ++ stream) =
      (parseValue fuel (member.2.1 ++ stream)).bind fun parsed =>
        match consume 44 (skipWhitespace parsed.2) with
        | some stream => (parseMembers fuel (skipWhitespace stream)).bind fun others =>
            some ((member.1, parsed.1) :: others.1, others.2)
        | none => (consume 125 (skipWhitespace parsed.2)).bind fun stream =>
            some ([(member.1, parsed.1)], stream) := by
  have text : memberText member ++ stream =
      34 :: (escapeJsonStr member.1 ++ 34 :: 58 :: (member.2.1 ++ stream)) := by
    simp [memberText, ascii]
  have opening : ∀ stream : Bytes, consume 34 (34 :: stream) = some stream := fun _ => rfl
  have colon : ∀ stream : Bytes, consume 58 (skipWhitespace (58 :: stream)) = some stream :=
    fun _ => rfl
  rw [text, parseMembers]
  simp only [opening, Option.bind_eq_bind, Option.bind_some, parseStringToStream_escape, colon,
    reads.skipWhitespace]
  rfl

/-- The members of an object are read, the first without a comma. -/
theorem parseMembers_texts {first : Bytes × (Bytes × Value)}
    {parts : List (Bytes × (Bytes × Value))}
    (each : ∀ part ∈ first :: parts, ReadsAs part.2.1 part.2.2) (fuel : Nat) (rest : Bytes)
    (room : 2 * (memberText first ++ (behindCommas (parts.map memberText) ++ 125 :: rest)).length +
      2 ≤ fuel) :
    parseMembers fuel (memberText first ++ (behindCommas (parts.map memberText) ++ 125 :: rest)) =
      some ((first :: parts).map fun part => (part.1, part.2.2), rest) := by
  have own := each first List.mem_cons_self
  have shorter : ∀ member : Bytes × (Bytes × Value),
      member.2.1.length ≤ (memberText member).length := by
    intro member
    simp only [memberText, List.length_append]
    omega
  induction parts generalizing first fuel with
  | nil =>
      obtain ⟨fuel, rfl⟩ : ∃ less, fuel = less + 1 := ⟨fuel - 1, by omega⟩
      rw [List.map_nil] at room ⊢
      have read := own.reads fuel _ (endsNumber_behindCommas (.inr rfl) [] rest) (by
        have := shorter first
        simp only [List.length_append] at room ⊢
        omega)
      rw [parseMembers_text own, read]
      rfl
  | cons next parts ih =>
      obtain ⟨fuel, rfl⟩ : ∃ less, fuel = less + 1 := ⟨fuel - 1, by omega⟩
      have following := each next (List.mem_cons_of_mem _ List.mem_cons_self)
      have read := own.reads fuel _
        (endsNumber_behindCommas (.inr rfl) ((next :: parts).map memberText) rest) (by
          have := shorter first
          simp only [List.length_append] at room ⊢
          omega)
      have text : behindCommas ((next :: parts).map memberText) ++ 125 :: rest =
          44 :: (memberText next ++ (behindCommas (parts.map memberText) ++ 125 :: rest)) := by
        rw [List.map_cons, behindCommas_cons, List.append_assoc, List.append_assoc]
        rfl
      rw [text] at room read ⊢
      have later := ih (fun part member => each part (List.mem_cons_of_mem _ member)) fuel (by
        simp only [List.length_append, List.length_cons] at room ⊢
        omega) following
      have solid : skipWhitespace
          (memberText next ++ (behindCommas (parts.map memberText) ++ 125 :: rest)) =
          memberText next ++ (behindCommas (parts.map memberText) ++ 125 :: rest) := rfl
      rw [parseMembers_text own, read]
      simp only [Option.bind_some, consume_comma]
      rw [solid, later]
      rfl

/-- **An object of texts is read.** -/
theorem readsAs_object {parts : List (Bytes × (Bytes × Value))}
    (each : ∀ part ∈ parts, ReadsAs part.2.1 part.2.2) :
    ReadsAs (ascii "\x7b" ++ ((ascii ",").intercalate (parts.map memberText) ++ ascii "\x7d"))
      (.object (parts.map fun part => (part.1, part.2.2))) := by
  cases parts with
  | nil =>
      refine ⟨⟨123, _, rfl, by simp [Opens]⟩, fun fuel rest _ room => ?_, by decide⟩
      obtain ⟨fuel, rfl⟩ : ∃ less, fuel = less + 1 := ⟨fuel - 1, by omega⟩
      rfl
  | cons first parts =>
      rw [List.map_cons (f := memberText), intercalate_comma]
      refine ⟨⟨123, _, rfl, by simp [Opens]⟩, fun fuel rest _ room => ?_, ?_⟩
      · obtain ⟨fuel, rfl⟩ : ∃ less, fuel = less + 1 := ⟨fuel - 1, by omega⟩
        have text : ascii "\x7b" ++ (memberText first ++ behindCommas (parts.map memberText) ++
            ascii "\x7d") ++ rest =
            123 :: (memberText first ++ (behindCommas (parts.map memberText) ++ 125 :: rest)) := by
          simp [ascii]
        rw [text] at room ⊢
        have read := parseMembers_texts each fuel rest (by
          simp only [List.length_append, List.length_cons] at room ⊢
          omega)
        have solid : skipWhitespace
            (memberText first ++ (behindCommas (parts.map memberText) ++ 125 :: rest)) =
            memberText first ++ (behindCommas (parts.map memberText) ++ 125 :: rest) := rfl
        have follows : consume 125 (skipWhitespace
            (memberText first ++ (behindCommas (parts.map memberText) ++ 125 :: rest))) = none :=
          rfl
        rw [parseValue_object fuel follows, solid, read]
        rfl
      · have plain : ∀ part ∈ first :: parts, (0 : UInt8) ∉ memberText part := by
          intro part listed
          simp [memberText, ascii, zero_not_mem_escape, (each part listed).plain]
        have later : (0 : UInt8) ∉ behindCommas (parts.map memberText) := by
          refine zero_not_mem_behindCommas fun text member => ?_
          obtain ⟨part, listed, rfl⟩ := List.mem_map.mp member
          exact plain part (List.mem_cons_of_mem _ listed)
        simp [ascii, plain first List.mem_cons_self, later]

/-- The reader reads a document that is such a text. -/
theorem ReadsAs.parse (reads : ReadsAs text value) : parse text = some value := by
  have read := reads.reads (2 * text.length + 1) [] (fun _ none => nomatch none)
    (by rw [List.append_nil])
  have skipped := reads.skipWhitespace []
  obtain ⟨char, more, written, _⟩ := reads.opens
  rw [List.append_nil] at read skipped
  rw [Json.parse, cstr_of_zero_not_mem reads.plain, skipped]
  simp only [read]
  rw [written]
  rfl

/-! ## Tables -/

/-- What a value of the table is when it is read back: a null, a text, or a whole number. -/
inductive Stands (col : DrizzleColumn) : Option Bytes → Value → Prop
  | null : Stands col none .null
  | empty : Stands col (some []) (.string [])
  | text (value : Bytes) (rough : roughType (stdColType col.type).code = .str) :
      Stands col (some value) (.string value)
  | number {number : Int} (low : -9223372036854775808 ≤ number)
      (high : number < 18446744073709551616)
      (rough : roughType (stdColType col.type).code = .int ∨
        roughType (stdColType col.type).code = .float) :
      Stands col (some (writeInt number)) (.int number)

/-- **A value is read back.** -/
theorem Stands.reads {col : DrizzleColumn} {cell : Option Bytes} (stands : Stands col cell value) :
    ReadsAs (cellJson col cell) value := by
  cases stands with
  | null => exact readsAs_null
  | empty => exact readsAs_string []
  | text value rough =>
      cases value with
      | nil => exact readsAs_string []
      | cons char rest =>
          rw [cellJson, rough]
          exact readsAs_string _
          simp
  | number low high rough =>
      have reads := readsAs_int low high
      obtain ⟨char, rest, written, _⟩ := writeInt_chars _
      rw [written] at reads ⊢
      rcases rough with rough | rough
      · rw [cellJson, rough]
        · exact reads
        · simp
      · rw [cellJson, rough]
        · exact reads
        · simp

/-- Texts and what they are read as, side by side. -/
theorem exists_parts {Source Target : Type} {holds : Source → Target → Prop}
    {text : Source → Bytes} {read : Target → Value} {sources : List Source} {targets : List Target}
    (related : List.Forall₂ holds sources targets)
    (each : ∀ source ∈ sources, ∀ target, holds source target →
      ReadsAs (text source) (read target)) :
    ∃ parts : List (Bytes × Value), (∀ part ∈ parts, ReadsAs part.1 part.2) ∧
      parts.map Prod.fst = sources.map text ∧ parts.map Prod.snd = targets.map read := by
  induction related with
  | nil => exact ⟨[], by simp, rfl, rfl⟩
  | @cons source target sources targets here later ih =>
      obtain ⟨parts, reads, texts, values⟩ :=
        ih fun other member => each other (List.mem_cons_of_mem _ member)
      refine ⟨(text source, read target) :: parts, ?_, ?_, ?_⟩
      · intro part member
        rcases List.mem_cons.mp member with rfl | member
        · exact each source List.mem_cons_self target here
        · exact reads part member
      · rw [List.map_cons, List.map_cons, texts]
      · rw [List.map_cons, List.map_cons, values]

/-- The same for the members of an object. -/
theorem exists_members {cells : List (DrizzleColumn × Option Bytes)} {values : List Value}
    (related : List.Forall₂ (fun cell value => Stands cell.1 cell.2 value) cells values)
    (named : ∀ cell ∈ cells, cell.1.column.name = cell.1.name) :
    ∃ parts : List (Bytes × (Bytes × Value)), (∀ part ∈ parts, ReadsAs part.2.1 part.2.2) ∧
      parts.map memberText = cells.map memberJson ∧
      parts.map (fun part => (part.1, part.2.2)) =
        (cells.map fun cell => cell.1.name).zip values := by
  induction related with
  | nil => exact ⟨[], by simp, rfl, rfl⟩
  | @cons cell value cells values here later ih =>
      obtain ⟨parts, reads, texts, read⟩ :=
        ih fun other member => named other (List.mem_cons_of_mem _ member)
      refine ⟨(cell.1.name, (cellJson cell.1 cell.2, value)) :: parts, ?_, ?_, ?_⟩
      · intro part member
        rcases List.mem_cons.mp member with rfl | member
        · exact here.reads
        · exact reads part member
      · rw [List.map_cons, List.map_cons, texts, memberJson, quoteName,
          named cell List.mem_cons_self]
        rfl
      · rw [List.map_cons, List.map_cons, List.zip_cons_cons, read]

/-- The values of a row. -/
def RowStands (table : Table) (row : Row) (values : List Value) : Prop :=
  List.Forall₂ (fun cell value => Stands cell.1 cell.2 value) (table.columns.zip row) values

/-- What a row is read as. -/
def Table.rowValue (table : Table) (format : JsonFormat) (values : List Value) : Value :=
  match format with
  | .normal => .object ((table.columns.map DrizzleColumn.name).zip values)
  | .compact => .array values

/-- What the JSON of a table is read as. -/
def Table.document (table : Table) (format : JsonFormat) (rows : List (List Value)) : Value :=
  match format with
  | .normal => .array (rows.map (table.rowValue .normal))
  | .compact => .array (.array (table.columns.map fun col => .string col.name) ::
      rows.map (table.rowValue .compact))

variable {table : Table}

/-- A name that fits its field is written whole. -/
theorem Table.Sound.column_name (sound : table.Sound) {col : DrizzleColumn}
    (member : col ∈ table.columns) : col.column.name = col.name := by
  rw [DrizzleColumn.column, Nat.mod_eq_of_lt (sound.named col member).2]
  exact List.take_length

/-- **A row is read back.** -/
theorem row_reads (sound : table.Sound) (format : JsonFormat) {row : Row} {values : List Value}
    (member : row ∈ table.rows) (stands : RowStands table row values) :
    ReadsAs (rowJson format (table.columns.zip row)) (table.rowValue format values) := by
  cases format with
  | normal =>
      obtain ⟨parts, reads, texts, read⟩ := exists_members stands fun cell inside =>
        sound.column_name (List.of_mem_zip inside).1
      have names : ((table.columns.zip row).map fun cell => cell.1.name) =
          table.columns.map DrizzleColumn.name := by
        have columns : (table.columns.zip row).map Prod.fst = table.columns :=
          List.map_fst_zip (Nat.le_of_eq (table.width row member).symm)
        calc (table.columns.zip row).map (fun cell => cell.1.name)
            = ((table.columns.zip row).map Prod.fst).map DrizzleColumn.name := by
              rw [List.map_map]
              rfl
          _ = table.columns.map DrizzleColumn.name := by rw [columns]
      have object := readsAs_object reads
      rwa [texts, read, names] at object
  | compact =>
      obtain ⟨parts, reads, texts, read⟩ : ∃ parts : List (Bytes × Value),
          (∀ part ∈ parts, ReadsAs part.1 part.2) ∧
          parts.map Prod.fst = (table.columns.zip row).map (fun cell => cellJson cell.1 cell.2) ∧
          parts.map Prod.snd = values.map id :=
        exists_parts stands fun cell _ value here => here.reads
      have array := readsAs_array reads
      rwa [texts, read, List.map_id] at array

/-- The names of the columns are read back. -/
theorem columns_read (sound : table.Sound) :
    ReadsAs (colsText (table.columns.map DrizzleColumn.column))
      (.array (table.columns.map fun col => .string col.name)) := by
  let parts := table.columns.map fun col => (quoteName col.column, Value.string col.name)
  have reads : ∀ part ∈ parts, ReadsAs part.1 part.2 := by
    intro part member
    obtain ⟨col, inside, rfl⟩ := List.mem_map.mp member
    change ReadsAs (quoteName col.column) _
    rw [quoteName, sound.column_name inside]
    exact readsAs_string col.name
  have array := readsAs_array reads
  rw [List.map_map, List.map_map] at array
  rw [colsText, List.map_map]
  exact array

/-- **The JSON of a table is read back.** -/
theorem json_reads (sound : table.Sound) {conf : JsonConf} (root : conf.root = [])
    {rows : List (List Value)} (stands : List.Forall₂ (RowStands table) table.rows rows) :
    ReadsAs (table.json conf) (table.document conf.format rows) := by
  have bare : table.json conf =
      ascii "[" ++ ((ascii ",").intercalate (table.rowsJson conf.format) ++ ascii "]") := by
    rw [Table.json, Table.closing, if_neg (not_not.mpr root), if_neg (not_not.mpr root),
      List.nil_append]
  obtain ⟨parts, reads, texts, read⟩ := exists_parts stands fun row member values here =>
    row_reads sound conf.format member here
  rw [bare]
  cases format : conf.format with
  | normal =>
      rw [format] at texts read
      have array := readsAs_array reads
      rwa [texts, read] at array
  | compact =>
      rw [format] at texts read
      have all : ∀ part ∈ (colsText (table.columns.map DrizzleColumn.column),
          Value.array (table.columns.map fun col => .string col.name)) :: parts,
          ReadsAs part.1 part.2 := by
        intro part member
        rcases List.mem_cons.mp member with rfl | member
        · exact columns_read sound
        · exact reads part member
      have array := readsAs_array all
      rwa [List.map_cons, List.map_cons, texts, read] at array

/-- **What the database returned is what is read back.** -/
theorem table_read_back (table : Table) (sound : table.Sound) (result : table.Result)
    (drizzle : BufSize) (conf : JsonConf) (root : conf.root = []) (rows : List (List Value))
    (stands : List.Forall₂ (RowStands table) table.rows rows) (returns : List Return)
    (delivers : Delivers table result .start returns .done) :
    ∃ final, (serving drizzle conf).run {} returns = some final ∧
      parse (final.sent.flatMap OutBuf.data) = some (table.document conf.format rows) := by
  obtain ⟨final, ran, served⟩ := show ∃ final, (serving drizzle conf).run {} returns = some final ∧
      final.Served table conf from
    served_run sound delivers nofun (serves_initial table result conf)
  refine ⟨final, ran, ?_⟩
  rw [served.text, jsonFrom_start]
  exact (json_reads sound root stands).parse

theorem table_read_back_sample :
    ∃ final, (serving ⟨4, by decide⟩ { bufSize := ⟨3, by decide⟩ }).run {} sampleReturns =
        some final ∧
      parse (final.sent.flatMap OutBuf.data) =
        some (.array [.object [(ascii "id", .int 12)]]) := by
  have number : Stands { type := .long, name := ascii "id" } (some (writeInt 12)) (.int 12) :=
    .number (by decide) (by decide) (.inl (by decide))
  rw [show writeInt 12 = [49, 50] by decide] at number
  exact table_read_back sampleTable sampleTable_sound sampleResult ⟨4, by decide⟩
    { format := .normal, bufSize := ⟨3, by decide⟩ } rfl [[.int 12]]
    (.cons (.cons number .nil) .nil) sampleReturns sampleTable_delivers

end HttpBackEnd.Rds
