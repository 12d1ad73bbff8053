import HttpBackEnd.Conf.Settings

/-! # Tokens of a configuration file

`ngx_conf_read_token`: from the buffer of the open file to the words of one directive. The
words go into an array that is shared by all directives; only its count is reset, so the
elements beyond the count are those of earlier directives.
-/

namespace HttpBackEnd.Conf

/-! ## The argument array -/

/-- `cf->args`: the elements in memory and how many of them count. -/
structure Args where
  elts : Elements
  nelts : Nat

namespace Args

/-- `cf->args->nelts = 0`. -/
def reset (args : Args) : Args := { args with nelts := 0 }

/-- `ngx_array_push` with the word stored in the new element. -/
def push (args : Args) (word : Bytes) : Args where
  elts := Function.update args.elts args.nelts (some word)
  nelts := args.nelts + 1

/-- The array after the words of a directive have been read. -/
def fill (args : Args) (words : List Bytes) : Args := words.foldl push args.reset

theorem foldl_push_before (args : Args) (words : List Bytes) {index : Nat}
    (before : index < args.nelts) : (words.foldl push args).elts index = args.elts index := by
  induction words generalizing args with
  | nil => rfl
  | cons word words ih =>
      have still : index < (args.push word).nelts := Nat.lt_succ_of_lt before
      rw [List.foldl_cons, ih (args.push word) still]
      exact Function.update_of_ne (Nat.ne_of_lt before) _ _

/-- A directive with an argument has it in `value[1]`. -/
theorem fill_one (args : Args) (name first : Bytes) (rest : List Bytes) :
    (args.fill (name :: first :: rest)).elts 1 = some first := by
  rw [fill, List.foldl_cons, List.foldl_cons, foldl_push_before _ _ (by simp [push, reset])]
  rfl

end Args

/-! ## Scanning -/

/-- What `ngx_conf_read_token` returns, with the words it has pushed. -/
inductive Token where
  | ok (words : List Bytes)
  | blockStart (words : List Bytes)
  | blockDone
  | fileDone
  | error
deriving DecidableEq, Repr

/-- The copy loop of `ngx_conf_read_token`. -/
def unescape : Bytes → Bytes
  | 92 :: char :: src =>
      if char = 34 ∨ char = 39 ∨ char = 92 then char :: unescape src
      else if char = 116 then 9 :: unescape src
      else if char = 114 then 13 :: unescape src
      else if char = 110 then 10 :: unescape src
      else 92 :: unescape (char :: src)
  | char :: src => char :: unescape src
  | [] => []

/-- The variables of `ngx_conf_read_token`; `held` are the bytes from `start` on. -/
structure Scan where
  needSpace : Bool := false
  lastSpace : Bool := true
  sharpComment : Bool := false
  inVariable : Bool := false
  quoted : Bool := false
  sQuoted : Bool := false
  dQuoted : Bool := false
  held : Bytes := []
  words : List Bytes := []
deriving DecidableEq, Repr

/-- Space, tab, carriage return and line feed. -/
def isSpace (ch : UInt8) : Bool := ch = 32 || ch = 9 || ch = 13 || ch = 10

namespace Scan

/-- A character where a word may start. -/
def start (scan : Scan) (ch : UInt8) : Scan ⊕ Token :=
  if isSpace ch then .inl scan
  else
    let scan := { scan with held := [ch] }
    if ch = 59 ∨ ch = 123 then
      if scan.words.length = 0 then .inr .error
      else if ch = 123 then .inr (.blockStart scan.words)
      else .inr (.ok scan.words)
    else if ch = 125 then
      if scan.words.length ≠ 0 then .inr .error else .inr .blockDone
    else if ch = 35 then .inl { scan with sharpComment := true }
    else if ch = 92 then .inl { scan with quoted := true, lastSpace := false }
    else if ch = 34 then .inl { scan with held := [], dQuoted := true, lastSpace := false }
    else if ch = 39 then .inl { scan with held := [], sQuoted := true, lastSpace := false }
    else if ch = 36 then .inl { scan with inVariable := true, lastSpace := false }
    else .inl { scan with lastSpace := false }

/-- A word ends before the character. -/
def found (scan : Scan) (ch : UInt8) : Scan ⊕ Token :=
  let words := scan.words ++ [unescape scan.held.dropLast]
  if ch = 59 then .inr (.ok words)
  else if ch = 123 then .inr (.blockStart words)
  else .inl { scan with words := words }

/-- A character inside of a word. -/
def inside (scan : Scan) (ch : UInt8) : Scan ⊕ Token :=
  if ch = 123 ∧ scan.inVariable then .inl scan
  else
    let scan := { scan with inVariable := false }
    if ch = 92 then .inl { scan with quoted := true }
    else if ch = 36 then .inl { scan with inVariable := true }
    else if scan.dQuoted then
      if ch = 34 then { scan with dQuoted := false, needSpace := true }.found ch else .inl scan
    else if scan.sQuoted then
      if ch = 39 then { scan with sQuoted := false, needSpace := true }.found ch else .inl scan
    else if isSpace ch ∨ ch = 59 ∨ ch = 123 then { scan with lastSpace := true }.found ch
    else .inl scan

/-- One round of the loop of `ngx_conf_read_token`, with the character it has taken from
the buffer. -/
def next (scan : Scan) (ch : UInt8) : Scan ⊕ Token :=
  let scan := { scan with
    held := scan.held ++ [ch]
    sharpComment := if ch = 10 then false else scan.sharpComment }
  if scan.sharpComment then .inl scan
  else if scan.quoted then .inl { scan with quoted := false }
  else if scan.needSpace then
    if isSpace ch then .inl { scan with lastSpace := true, needSpace := false }
    else if ch = 59 then .inr (.ok scan.words)
    else if ch = 123 then .inr (.blockStart scan.words)
    else if ch = 41 then { scan with lastSpace := true, needSpace := false }.start ch
    else .inr .error
  else if scan.lastSpace then scan.start ch
  else scan.inside ch

end Scan

/-! ## Files -/

/-- `NGX_CONF_BUFFER`. -/
def ngxConfBuffer : Nat := 4096

/-- An open file: what has not been scanned of it, and how much of that is in the
buffer. -/
structure File where
  rest : Bytes
  loaded : Nat := 0
deriving DecidableEq, Repr

/-- The loop of `ngx_conf_read_token`. The buffer is filled when it is empty; a word that
takes all of it is an error. -/
def readTokenFrom (scan : Scan) (loaded : Nat) : Bytes → Token × File
  | [] =>
      if scan.words.length ≠ 0 ∨ scan.lastSpace = false then (.error, ⟨[], loaded⟩)
      else (.fileDone, ⟨[], loaded⟩)
  | ch :: rest =>
      if loaded = 0 ∧ scan.held.length = ngxConfBuffer then (.error, ⟨ch :: rest, loaded⟩)
      else
        let loaded :=
          if loaded = 0 then min (rest.length + 1) (ngxConfBuffer - scan.held.length) else loaded
        match scan.next ch with
        | .inl scan => readTokenFrom scan (loaded - 1) rest
        | .inr token => (token, ⟨rest, loaded - 1⟩)

/-- `ngx_conf_read_token`. -/
def ngxConfReadToken (file : File) : Token × File := readTokenFrom {} file.loaded file.rest

example : (ngxConfReadToken ⟨ascii "a 'b c' \"d\\n\" # e\n$f; g;", 0⟩).1 =
    .ok [ascii "a", ascii "b c", ascii "d\n", ascii "$f"] := by decide +kernel

end HttpBackEnd.Conf
