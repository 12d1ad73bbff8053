import HttpBackEnd.Json.Reader
import HttpBackEnd.Library.LittleEndian

/-! # The stream of a result set

The drizzle module writes a result set as a stream of atoms: a header, the columns, a flag
for each row, and the fields with their lengths. The JSON filter reads it back, and asks for
every atom to lie in one buffer.
-/

namespace HttpBackEnd.Rds

open Json LittleEndian

/-- `drizzle_column_type_t`; the types that no branch names are `other`. -/
inductive DrizzleColumnType where
  | decimal | tiny | short | long | float | double | null | timestamp | longlong | int24
  | date | time | datetime | year | newdate | varchar | bit | newdecimal | enum | set
  | tinyBlob | mediumBlob | longBlob | blob | varString | string | geometry
  | other (code : UInt16)
deriving DecidableEq, Repr

/-- The number of a column type. -/
def DrizzleColumnType.code : DrizzleColumnType → UInt16
  | .decimal => 0
  | .tiny => 1
  | .short => 2
  | .long => 3
  | .float => 4
  | .double => 5
  | .null => 6
  | .timestamp => 7
  | .longlong => 8
  | .int24 => 9
  | .date => 10
  | .time => 11
  | .datetime => 12
  | .year => 13
  | .newdate => 14
  | .varchar => 15
  | .bit => 16
  | .newdecimal => 246
  | .enum => 247
  | .set => 248
  | .tinyBlob => 249
  | .mediumBlob => 250
  | .longBlob => 251
  | .blob => 252
  | .varString => 253
  | .string => 254
  | .geometry => 255
  | .other code => code

/-- `rds_rough_col_type_t`, in the two high bits of a standard type. -/
inductive RoughType where
  | int | float | str | bool
deriving DecidableEq, Repr

def RoughType.bits : RoughType → UInt16
  | .int => 0x0000
  | .float => 0x4000
  | .str => 0x8000
  | .bool => 0xc000

/-- `std_type & 0xc000`. -/
def roughType (stdType : UInt16) : RoughType :=
  if stdType &&& 0xc000 = RoughType.int.bits then .int
  else if stdType &&& 0xc000 = RoughType.float.bits then .float
  else if stdType &&& 0xc000 = RoughType.bool.bits then .bool
  else .str

/-- The standard types that `ngx_http_drizzle_std_col_type` gives, of `rds_col_type_t`. -/
inductive RdsColType where
  | unknown | bigint | bit | varchar | double | integer | decimal | real | smallint | time
  | timestamp | blob
deriving DecidableEq, Repr

def RdsColType.code : RdsColType → UInt16
  | .unknown => 0 ||| RoughType.str.bits
  | .bigint => 1 ||| RoughType.int.bits
  | .bit => 2 ||| RoughType.str.bits
  | .varchar => 6 ||| RoughType.str.bits
  | .double => 8 ||| RoughType.float.bits
  | .integer => 9 ||| RoughType.int.bits
  | .decimal => 11 ||| RoughType.float.bits
  | .real => 12 ||| RoughType.float.bits
  | .smallint => 13 ||| RoughType.int.bits
  | .time => 15 ||| RoughType.str.bits
  | .timestamp => 17 ||| RoughType.str.bits
  | .blob => 19 ||| RoughType.str.bits

/-- `ngx_http_drizzle_std_col_type`. -/
def stdColType : DrizzleColumnType → RdsColType
  | .decimal => .decimal
  | .tiny => .smallint
  | .short => .smallint
  | .long => .integer
  | .float => .real
  | .double => .double
  | .null => .unknown
  | .timestamp => .timestamp
  | .longlong => .bigint
  | .int24 => .integer
  | .date => .timestamp
  | .time => .time
  | .datetime => .timestamp
  | .year => .smallint
  | .newdate => .timestamp
  | .varchar => .varchar
  | .bit => .bit
  | .newdecimal => .decimal
  | .enum => .varchar
  | .set => .varchar
  | .tinyBlob => .blob
  | .mediumBlob => .blob
  | .longBlob => .blob
  | .blob => .blob
  | .varString => .varchar
  | .string => .varchar
  | .geometry => .varchar
  | .other _ => .unknown

/-- No column of a result set is a boolean. -/
theorem roughType_stdColType (type : DrizzleColumnType) :
    roughType (stdColType type).code ≠ .bool := by
  cases type with
  | other code =>
      change roughType RdsColType.unknown.code ≠ .bool
      decide
  | _ => decide

/-! ## What the drizzle module writes -/

/-- What `drizzle_result_st` says of a query. -/
structure DrizzleResult where
  errorCode : UInt16 := 0
  error : Bytes := []
  affectedRows : UInt64 := 0
  insertId : UInt64 := 0
  columnCount : UInt16

/-- `drizzle_column_st`, as far as it is read. -/
structure DrizzleColumn where
  type : DrizzleColumnType
  name : Bytes
deriving DecidableEq, Repr

/-- `resty_dbd_stream_version`. -/
def streamVersion : Nat := 3

/-- The bytes of `ngx_http_drizzle_output_result_header`. -/
def outputResultHeader (res : DrizzleResult) : Bytes :=
  let errstrLen : UInt16 := res.error.length.toUInt16
  bytes 1 0 ++ (bytes 4 streamVersion ++ (bytes 1 0 ++ (bytes 2 res.errorCode.toNat ++
    (bytes 2 res.errorCode.toNat ++ (bytes 2 errstrLen.toNat ++
      (res.error.take errstrLen.toNat ++ (bytes 8 res.affectedRows.toNat ++
        (bytes 8 res.insertId.toNat ++ bytes 2 res.columnCount.toNat))))))))

/-- The bytes of `ngx_http_drizzle_output_col`. -/
def outputCol (col : DrizzleColumn) : Bytes :=
  let colNameLen : UInt16 := col.name.length.toUInt16
  bytes 2 (stdColType col.type).code.toNat ++ (bytes 2 col.type.code.toNat ++
    (bytes 2 colNameLen.toNat ++ col.name.take colNameLen.toNat))

/-- The byte of `ngx_http_drizzle_output_row`. -/
def outputRow (row : UInt64) : Bytes := [if row ≠ 0 then 1 else 0]

/-- The bytes of `ngx_http_drizzle_output_field`: the part of a field from an offset on,
`none` for a null. Without a byte to go with it, the length of a field is not written. -/
def outputField (offset total : Nat) (field : Option Bytes) : Option Bytes :=
  let len := (field.getD []).length
  if offset = 0 then
    if len = 0 ∧ total ≠ 0 then none
    else
      match field with
      | none => some (bytes 4 4294967295)
      | some data => some (bytes 4 (total % 4294967296) ++ data)
  else some (field.getD [])

/-! ## What the JSON filter reads -/

/-- `ngx_http_rds_header_t`. -/
structure RdsHeader where
  stdErrcode : UInt16
  drvErrcode : UInt16
  errstr : Bytes
  affectedRows : UInt64
  insertId : UInt64
  colCount : UInt16
deriving DecidableEq, Repr

/-- `ngx_http_rds_column_t`. -/
structure RdsColumn where
  stdType : UInt16
  drvType : UInt16
  name : Bytes
deriving DecidableEq, Repr

/-- `ngx_http_rds_parse_header`: the header in front of a buffer, and what is behind it. -/
def parseHeader (buf : Bytes) : Option (RdsHeader × Bytes) := do
  guard (30 ≤ buf.length)
  let (endian, buf) := take 1 buf
  guard (endian = 0)
  let (version, buf) := take 4 buf
  guard (version = streamVersion)
  let (resultType, buf) := take 1 buf
  guard (resultType = 0)
  let (stdErrcode, buf) := take 2 buf
  let (drvErrcode, buf) := take 2 buf
  let (errstrLen, buf) := take 2 buf
  guard (errstrLen + 18 ≤ buf.length)
  let (errstr, buf) := (buf.take errstrLen, buf.drop errstrLen)
  let (affectedRows, buf) := take 8 buf
  let (insertId, buf) := take 8 buf
  let (colCount, buf) := take 2 buf
  return ({ stdErrcode := stdErrcode.toUInt16, drvErrcode := drvErrcode.toUInt16, errstr
            affectedRows := affectedRows.toUInt64, insertId := insertId.toUInt64
            colCount := colCount.toUInt16 }, buf)

/-- `ngx_http_rds_parse_col`. A column without a name is refused. -/
def parseCol (buf : Bytes) : Option (RdsColumn × Bytes) := do
  guard (6 ≤ buf.length)
  let (stdType, buf) := take 2 buf
  let (drvType, buf) := take 2 buf
  let (nameLen, buf) := take 2 buf
  guard (nameLen ≠ 0)
  guard (nameLen ≤ buf.length)
  return ({ stdType := stdType.toUInt16, drvType := drvType.toUInt16, name := buf.take nameLen },
    buf.drop nameLen)

/-! ## Reading what was written -/

/-- The header as it is read. -/
def DrizzleResult.header (res : DrizzleResult) : RdsHeader where
  stdErrcode := res.errorCode
  drvErrcode := res.errorCode
  errstr := res.error.take (res.error.length % 65536)
  affectedRows := res.affectedRows
  insertId := res.insertId
  colCount := res.columnCount

/-- The column as it is read. -/
def DrizzleColumn.column (col : DrizzleColumn) : RdsColumn where
  stdType := (stdColType col.type).code
  drvType := col.type.code
  name := col.name.take (col.name.length % 65536)

theorem toNat_toUInt16 (length : Nat) : length.toUInt16.toNat = length % 65536 := rfl

theorem toUInt16_toNat (value : UInt16) : value.toNat.toUInt16 = value := UInt16.ofNat_toNat

theorem toUInt64_toNat (value : UInt64) : value.toNat.toUInt64 = value := UInt64.ofNat_toNat

theorem guard_pos {condition : Prop} [Decidable condition] (holds : condition)
    {Result : Type} (next : Unit → Option Result) :
    (guard condition >>= next) = next () := by
  rw [guard, if_pos holds]
  rfl

theorem length_outputResultHeader (res : DrizzleResult) :
    (outputResultHeader res).length = 30 + res.error.length % 65536 := by
  have short : res.error.length % 65536 ≤ res.error.length := Nat.mod_le _ _
  simp only [outputResultHeader, toNat_toUInt16, List.length_append, length_bytes,
    List.length_take, Nat.min_eq_left short]
  omega

/-- **The header that was written is read.** -/
theorem parseHeader_outputResultHeader (res : DrizzleResult) (rest : Bytes) :
    parseHeader (outputResultHeader res ++ rest) = some (res.header, rest) := by
  have short : res.error.length % 65536 ≤ res.error.length := Nat.mod_le _ _
  have taken : (res.error.take (res.error.length % 65536)).length = res.error.length % 65536 :=
    List.length_take_of_le short
  have small : res.error.length % 65536 < 65536 := Nat.mod_lt _ (by decide)
  have long : 30 ≤ (outputResultHeader res ++ rest).length := by
    rw [List.length_append, length_outputResultHeader]
    omega
  have code : res.errorCode.toNat < 256 ^ 2 := res.errorCode.toNat_lt
  have rows : res.affectedRows.toNat < 256 ^ 8 := res.affectedRows.toNat_lt
  have insert : res.insertId.toNat < 256 ^ 8 := res.insertId.toNat_lt
  have count : res.columnCount.toNat < 256 ^ 2 := res.columnCount.toNat_lt
  have behind : res.error.length % 65536 + 18 ≤
      (res.error.take (res.error.length % 65536) ++ (bytes 8 res.affectedRows.toNat ++
        (bytes 8 res.insertId.toNat ++ (bytes 2 res.columnCount.toNat ++ rest)))).length := by
    simp only [List.length_append, length_bytes, taken]
    omega
  rw [parseHeader, guard_pos long]
  simp only [outputResultHeader, toNat_toUInt16, List.append_assoc,
    take_bytes (show 0 < 256 ^ 1 by decide), take_bytes (show streamVersion < 256 ^ 4 by decide),
    take_bytes code, take_bytes (show res.error.length % 65536 < 256 ^ 2 from small)]
  rw [guard_pos behind]
  simp only [List.take_left' taken, List.drop_left' taken, take_bytes rows, take_bytes insert,
    take_bytes count, toUInt16_toNat, toUInt64_toNat]
  rfl

/-- **The column that was written is read.** -/
theorem parseCol_outputCol {col : DrizzleColumn} (named : col.name.length % 65536 ≠ 0)
    (rest : Bytes) : parseCol (outputCol col ++ rest) = some (col.column, rest) := by
  have short : col.name.length % 65536 ≤ col.name.length := Nat.mod_le _ _
  have taken : (col.name.take (col.name.length % 65536)).length = col.name.length % 65536 :=
    List.length_take_of_le short
  have small : col.name.length % 65536 < 65536 := Nat.mod_lt _ (by decide)
  have long : 6 ≤ (outputCol col ++ rest).length := by
    simp only [outputCol, List.length_append, length_bytes]
    omega
  have std : (stdColType col.type).code.toNat < 256 ^ 2 := (stdColType col.type).code.toNat_lt
  have drv : col.type.code.toNat < 256 ^ 2 := col.type.code.toNat_lt
  have behind : col.name.length % 65536 ≤
      (col.name.take (col.name.length % 65536) ++ rest).length := by
    rw [List.length_append, taken]
    omega
  rw [parseCol, guard_pos long]
  simp only [outputCol, toNat_toUInt16, List.append_assoc, take_bytes std, take_bytes drv,
    take_bytes (show col.name.length % 65536 < 256 ^ 2 from small)]
  rw [guard_pos named, guard_pos behind]
  simp only [List.take_left' taken, List.drop_left' taken, toUInt16_toNat]
  rfl

end HttpBackEnd.Rds
