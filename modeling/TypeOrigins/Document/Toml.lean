import TypeOrigins.Document.Json
import TypeOrigins.Document.Moment

/-! # TOML

Reading documents written in TOML: tables, arrays of tables, dotted keys, strings of all four kinds,
integers, floats, dates and times, truth values, arrays and inline tables. A table is declared once,
a key is given once, and an inline value is never extended. -/

namespace TypeOrigins.Toml
set_option autoImplicit false

open Text

/-- Why a text was not read: it is malformed, or it holds an integer with too many digits. -/
inductive Fault where
  | malformed
  | longInteger (digits : Nat)
deriving DecidableEq, Repr

/-! ## Tables under construction -/

/-- How a table came to be: as a step to a longer header, by a header of its own, or as a step of a
dotted key. -/
inductive Standing where
  | implied
  | declared
  | dotted
deriving DecidableEq, Repr

/-- What a key of a table holds so far: a finished value, a table, or an array of tables of which
the last, at the head, is open. -/
inductive Item where
  | value (d : Document)
  | table (standing : Standing) (entries : List (String × Item))
  | tables (elements : List (List (String × Item)))

/-- A table under construction. -/
abbrev Entries := List (String × Item)

/-- What a key holds. -/
def Entries.get? (entries : Entries) (key : String) : Option Item :=
  (entries.find? fun e => e.1 == key).map (·.2)

/-- The table with a key given something. -/
def Entries.put (entries : Entries) (key : String) (item : Item) : Entries :=
  match entries with
  | [] => [(key, item)]
  | e :: rest => if e.1 == key then (key, item) :: rest else e :: Entries.put rest key item

/-- A change of a table that may fail. -/
abbrev Change := Entries → Except Fault Entries

/-- Goes along the keys of a header and changes the table there. -/
def alongHeader (change : Change) : List String → Change
  | [] => change
  | key :: rest => fun entries =>
      match entries.get? key with
      | none => do
          let inner ← alongHeader change rest []
          .ok (entries.put key (.table .implied inner))
      | some (.table standing inner) => do
          let inner' ← alongHeader change rest inner
          .ok (entries.put key (.table standing inner'))
      | some (.tables (last :: before)) => do
          let last' ← alongHeader change rest last
          .ok (entries.put key (.tables (last' :: before)))
      | some _ => .error .malformed

/-- Declares the table of a header. -/
def declareTable (key : String) : Change := fun entries =>
  match entries.get? key with
  | none => .ok (entries.put key (.table .declared []))
  | some (.table .implied inner) => .ok (entries.put key (.table .declared inner))
  | some _ => .error .malformed

/-- Opens another table of an array of tables. -/
def openElement (key : String) : Change := fun entries =>
  match entries.get? key with
  | none => .ok (entries.put key (.tables [[]]))
  | some (.tables elements) => .ok (entries.put key (.tables ([] :: elements)))
  | some _ => .error .malformed

/-- Gives the last of dotted keys a value. -/
def assign (value : Document) : List String → Change
  | [] => fun _ => .error .malformed
  | [key] => fun entries =>
      match entries.get? key with
      | none => .ok (entries.put key (.value value))
      | some _ => .error .malformed
  | key :: rest => fun entries =>
      match entries.get? key with
      | none => do
          let inner ← assign value rest []
          .ok (entries.put key (.table .dotted inner))
      | some (.table .declared _) => .error .malformed
      | some (.table _ inner) => do
          let inner' ← assign value rest inner
          .ok (entries.put key (.table .dotted inner'))
      | some _ => .error .malformed

mutual

/-- What a key holds, finished. -/
def Item.document : Item → Document
  | .value d => d
  | .table _ entries => .object (fieldsOf entries)
  | .tables elements => .list (listOf elements [])

/-- A table, finished. -/
def fieldsOf : List (String × Item) → Document.Fields
  | [] => []
  | (key, item) :: rest => (key, item.document) :: fieldsOf rest

/-- The tables of an array, finished, in the order in which they were opened. -/
def listOf : List (List (String × Item)) → List Document → List Document
  | [], done => done
  | e :: rest, done => listOf rest (.object (fieldsOf e) :: done)

end

/-! ## Strings and keys -/

/-- Whether a character may not stand in a text of one line. -/
def isControl (c : Char) : Bool := (c.toNat < 0x20 && c != '\t') || c.toNat == 0x7f

/-- The text without the spaces and tabs it starts with. -/
def skipSpace (cs : List Char) : List Char := cs.dropWhile fun c => c == ' ' || c == '\t'

/-- The character of an escape that is one letter. -/
def letterEscape? : Char → Option Char
  | 'b' => some (Char.ofNat 8)
  | 't' => some '\t'
  | 'n' => some '\n'
  | 'f' => some (Char.ofNat 12)
  | 'r' => some '\r'
  | '"' => some '"'
  | '\\' => some '\\'
  | _ => none

/-- The character that hexadecimal digits name. -/
def hexChar? (ds : List Char) (width : Nat) : Option Char :=
  let n := ds.foldl (fun n d => 16 * n + (hexDigit? d).getD 0) 0
  if ds.length == width && ds.all (fun d => (hexDigit? d).isSome) && n ≤ 0x10ffff &&
      !(0xd800 ≤ n && n ≤ 0xdfff) then some (Char.ofNat n)
  else none

/-- The rest of a string between double quotes; `done` holds its characters so far, the last first.
A string of several lines ends with three quotes. -/
def basicString (lines : Bool) : (fuel : Nat) → (done : List Char) → List Char →
    Except Fault (List Char × List Char)
  | 0, _, _ => .error .malformed
  | fuel + 1, done, cs =>
      match cs with
      | [] => .error .malformed
      | '"' :: rest =>
          if !lines then .ok (done.reverse, rest)
          else
            match rest with
            | '"' :: '"' :: '"' :: '"' :: rest' => .ok (('"' :: '"' :: done).reverse, rest')
            | '"' :: '"' :: '"' :: rest' => .ok (('"' :: done).reverse, rest')
            | '"' :: '"' :: rest' => .ok (done.reverse, rest')
            | _ => basicString lines fuel ('"' :: done) rest
      | '\\' :: 'u' :: rest =>
          match hexChar? (rest.take 4) 4 with
          | some c => basicString lines fuel (c :: done) (rest.drop 4)
          | none => .error .malformed
      | '\\' :: 'U' :: rest =>
          match hexChar? (rest.take 8) 8 with
          | some c => basicString lines fuel (c :: done) (rest.drop 8)
          | none => .error .malformed
      | '\\' :: e :: rest =>
          match letterEscape? e with
          | some c => basicString lines fuel (c :: done) rest
          | none =>
              match skipSpace (e :: rest) with
              | '\n' :: rest' =>
                  if lines then
                    basicString lines fuel done
                      (rest'.dropWhile fun c => c == ' ' || c == '\t' || c == '\n')
                  else .error .malformed
              | _ => .error .malformed
      | c :: rest =>
          if c == '\\' || (isControl c && !(lines && c == '\n')) then .error .malformed
          else basicString lines fuel (c :: done) rest

/-- The rest of a string between single quotes. -/
def literalString (lines : Bool) : (done : List Char) → List Char →
    Except Fault (List Char × List Char)
  | _, [] => .error .malformed
  | done, '\'' :: rest =>
      if !lines then .ok (done.reverse, rest)
      else
        match rest with
        | '\'' :: '\'' :: '\'' :: '\'' :: rest' => .ok (('\'' :: '\'' :: done).reverse, rest')
        | '\'' :: '\'' :: '\'' :: rest' => .ok (('\'' :: done).reverse, rest')
        | '\'' :: '\'' :: rest' => .ok (done.reverse, rest')
        | _ => literalString lines ('\'' :: done) rest
  | done, c :: rest =>
      if isControl c && !(lines && c == '\n') then .error .malformed
      else literalString lines (c :: done) rest

/-- The text without a line end at its start. -/
def dropLineEnd : List Char → List Char
  | '\n' :: rest => rest
  | cs => cs

/-- A string of any kind, at its first quote. -/
def string (cs : List Char) : Except Fault (List Char × List Char) :=
  match cs with
  | '"' :: '"' :: '"' :: rest => basicString true (rest.length + 1) [] (dropLineEnd rest)
  | '"' :: rest => basicString false (rest.length + 1) [] rest
  | '\'' :: '\'' :: '\'' :: rest => literalString true [] (dropLineEnd rest)
  | '\'' :: rest => literalString false [] rest
  | _ => .error .malformed

/-- Whether a character may stand in a key without quotes. -/
def isBare (c : Char) : Bool :=
  isAsciiDigit c || ('a' ≤ c && c ≤ 'z') || ('A' ≤ c && c ≤ 'Z') || c == '-' || c == '_'

/-- One part of a key. -/
def keyPart (cs : List Char) : Except Fault (String × List Char) :=
  match cs with
  | '"' :: rest => do
      let (s, rest') ← basicString false (rest.length + 1) [] rest
      .ok (String.ofList s, rest')
  | '\'' :: rest => do
      let (s, rest') ← literalString false [] rest
      .ok (String.ofList s, rest')
  | _ =>
      let word := cs.takeWhile isBare
      if word.isEmpty then .error .malformed
      else .ok (String.ofList word, cs.drop word.length)

/-- A key: parts with dots between them. The fuel bounds the characters ahead. -/
def key : (fuel : Nat) → List Char → Except Fault (List String × List Char)
  | 0, _ => .error .malformed
  | fuel + 1, cs => do
      let (part, rest) ← keyPart cs
      match skipSpace rest with
      | '.' :: rest' => do
          let (parts, rest'') ← key fuel (skipSpace rest')
          .ok (part :: parts, rest'')
      | rest' => .ok ([part], rest')

/-! ## Numbers -/

/-- Digits, between two of which a low line may stand; the digits, and the text after them. -/
def digitGroup (isDigit : Char → Bool) (done : List Char) : List Char → List Char × List Char
  | '_' :: d :: rest =>
      if !done.isEmpty && isDigit d then digitGroup isDigit (d :: done) rest
      else (done.reverse, '_' :: d :: rest)
  | d :: rest =>
      if isDigit d then digitGroup isDigit (d :: done) rest else (done.reverse, d :: rest)
  | [] => (done.reverse, [])

/-- The digits after a mark: an optional sign first, if `signed`. -/
def markedDigits? (isMark : Char → Bool) (signed : Bool) (cs : List Char) :
    Option (Bool × List Char × List Char) :=
  match cs with
  | m :: rest =>
      if isMark m then
        let (negative, body) := if signed then splitSign rest else (false, rest)
        let (ds, rest') := digitGroup isAsciiDigit [] body
        if ds.isEmpty then none else some (negative, ds, rest')
      else none
  | [] => none

/-- A decimal number. -/
def decimal (cs : List Char) : Except Fault (Document × List Char) :=
  let (negative, body) := splitSign cs
  let (whole, rest) :=
    match body with
    | '0' :: rest => (['0'], rest)
    | _ => digitGroup isAsciiDigit [] body
  if whole.isEmpty then .error .malformed
  else
    let fraction? := markedDigits? (· == '.') false rest
    let fraction := (fraction?.map (·.2.1)).getD []
    let rest₁ := (fraction?.map (·.2.2)).getD rest
    let exponent? := markedDigits? (fun c => c == 'e' || c == 'E') true rest₁
    let rest₂ := (exponent?.map (·.2.2)).getD rest₁
    if fraction?.isNone && exponent?.isNone then
      if whole.length ≤ digitLimit then .ok (.int (withSign negative (ofBase 10 whole)), rest)
      else .error (.longInteger whole.length)
    else
      let shift : Int := (exponent?.map fun e => withSign e.1 (ofBase 10 e.2.1)).getD 0
      .ok (.float (Binary64.ofDecimal negative (ofBase 10 (whole ++ fraction))
        (shift - fraction.length)), rest₂)

/-- An integer in another base, after its mark. -/
def basedInt (base : Nat) (isDigit : Char → Bool) (cs : List Char) :
    Except Fault (Document × List Char) :=
  let (ds, rest) := digitGroup isDigit [] cs
  if ds.isEmpty then .error .malformed else .ok (.int (ofBase base ds), rest)

/-! ## Dates and times -/

/-- Two digits that spell a number within bounds, and the text after them. -/
def bounded? (low high : Nat) (cs : List Char) : Option (Nat × List Char) :=
  (Moment.twoDigits? cs).filter fun r => low ≤ r.1 && r.1 ≤ high

/-- The text after a fraction of a second, if one is here. -/
def skipFraction : List Char → List Char
  | '.' :: d :: rest => if isAsciiDigit d then rest.dropWhile isAsciiDigit else '.' :: d :: rest
  | cs => cs

/-- The text after a time of day. -/
def skipClock? (cs : List Char) : Option (List Char) := do
  let (_, rest₁) ← bounded? 0 23 cs
  let rest₂ ← Moment.after? ':' rest₁
  let (_, rest₃) ← bounded? 0 59 rest₂
  let rest₄ ← Moment.after? ':' rest₃
  let (_, rest₅) ← bounded? 0 59 rest₄
  some (skipFraction rest₅)

/-- The text after an offset in hours and minutes. -/
def skipHours? (cs : List Char) : Option (List Char) := do
  let (_, rest₁) ← bounded? 0 23 cs
  let rest₂ ← Moment.after? ':' rest₁
  let (_, rest₃) ← bounded? 0 59 rest₂
  some rest₃

/-- The text after an offset from universal time, if one is here. -/
def skipOffset (cs : List Char) : List Char :=
  match cs with
  | 'Z' :: rest | 'z' :: rest => rest
  | '+' :: rest | '-' :: rest => (skipHours? rest).getD cs
  | _ => cs

/-- A date, and the text after it. -/
def date? (cs : List Char) : Option (Moment × List Char) := do
  let year := cs.take 4
  if year.length != 4 || !year.all isAsciiDigit then none
  let rest₁ ← Moment.after? '-' (cs.drop 4)
  let (month, rest₂) ← bounded? 1 12 rest₁
  let rest₃ ← Moment.after? '-' rest₂
  let (day, rest₄) ← bounded? 1 31 rest₃
  some ({ year := ofBase 10 year, month := month, day := day }, rest₄)

/-- The text after a time of day and an offset that follow a date, if they do. -/
def skipTime (cs : List Char) : List Char :=
  match cs with
  | 'T' :: rest | 't' :: rest | ' ' :: rest => ((skipClock? rest).map skipOffset).getD cs
  | _ => cs

/-- A date that exists, with or without a time, or a time of day alone; `none` if the text starts
with neither. -/
def moment? (cs : List Char) : Option (Except Fault (Document × List Char)) :=
  match date? cs with
  | some (date, rest) =>
      some (if date.fault?.isSome then .error .malformed else .ok (.moment, skipTime rest))
  | none => (skipClock? cs).map fun rest => .ok (.moment, rest)

/-! ## Words -/

/-- The words that are values. -/
def words : List (List Char × Document) :=
  [("true".toList, .bool true), ("false".toList, .bool false),
   ("inf".toList, .float (.infinite false)), ("+inf".toList, .float (.infinite false)),
   ("-inf".toList, .float (.infinite true)), ("nan".toList, .float .nan),
   ("+nan".toList, .float .nan), ("-nan".toList, .float .nan)]

/-- A number. -/
def number (cs : List Char) : Except Fault (Document × List Char) :=
  match cs with
  | '0' :: 'x' :: rest => basedInt 16 (fun c => (hexDigit? c).isSome) rest
  | '0' :: 'o' :: rest => basedInt 8 (fun c => '0' ≤ c && c ≤ '7') rest
  | '0' :: 'b' :: rest => basedInt 2 (fun c => c == '0' || c == '1') rest
  | _ => decimal cs

/-- A word, a date or time, or a number. -/
def scalar (cs : List Char) : Except Fault (Document × List Char) :=
  match words.find? fun w => w.1.isPrefixOf cs with
  | some w => .ok (w.2, cs.drop w.1.length)
  | none => (moment? cs).getD (number cs)

/-! ## Values -/

/-- The text after a comment, if one is here. -/
def skipComment (cs : List Char) : Except Fault (List Char) :=
  match cs with
  | '#' :: rest =>
      if (rest.takeWhile (· != '\n')).any isControl then .error .malformed
      else .ok (rest.dropWhile (· != '\n'))
  | _ => .ok cs

/-- The text after spaces, line ends and comments. -/
def skipGap : (fuel : Nat) → List Char → Except Fault (List Char)
  | 0, _ => .error .malformed
  | fuel + 1, cs =>
      match cs.dropWhile fun c => c == ' ' || c == '\t' || c == '\n' with
      | '#' :: rest => do
          let rest' ← skipComment ('#' :: rest)
          skipGap fuel rest'
      | rest => .ok rest

mutual

/-- A value. -/
def value : (fuel : Nat) → List Char → Except Fault (Document × List Char)
  | 0, _ => .error .malformed
  | fuel + 1, cs =>
      match cs with
      | '"' :: _ => do
          let (s, rest) ← string cs
          .ok (.text (String.ofList s), rest)
      | '\'' :: _ => do
          let (s, rest) ← string cs
          .ok (.text (String.ofList s), rest)
      | '[' :: rest => array fuel [] rest
      | '{' :: rest =>
          match skipSpace rest with
          | '}' :: rest' => .ok (.object [], rest')
          | rest' => inlineTable fuel [] rest'
      | _ => scalar cs

/-- The items of an array, up to its bracket; `done` holds those before, the last first. -/
def array : (fuel : Nat) → (done : List Document) → List Char →
    Except Fault (Document × List Char)
  | 0, _, _ => .error .malformed
  | fuel + 1, done, cs => do
      let rest ← skipGap (cs.length + 1) cs
      match rest with
      | ']' :: rest' => .ok (.list done.reverse, rest')
      | _ => do
          let (v, rest₁) ← value fuel rest
          let rest₂ ← skipGap (rest₁.length + 1) rest₁
          match rest₂ with
          | ',' :: rest' => array fuel (v :: done) rest'
          | ']' :: rest' => .ok (.list (v :: done).reverse, rest')
          | _ => .error .malformed

/-- The members of an inline table, up to its brace; `done` holds those before. -/
def inlineTable : (fuel : Nat) → (done : Entries) → List Char →
    Except Fault (Document × List Char)
  | 0, _, _ => .error .malformed
  | fuel + 1, done, cs => do
      let (path, rest) ← key (cs.length + 1) cs
      match rest with
      | '=' :: rest₁ => do
          let (v, rest₂) ← value fuel (skipSpace rest₁)
          let done' ← assign v path done
          match skipSpace rest₂ with
          | ',' :: rest' => inlineTable fuel done' (skipSpace rest')
          | '}' :: rest' => .ok (.object (fieldsOf done'), rest')
          | _ => .error .malformed
      | _ => .error .malformed

end

/-! ## Documents -/

/-- The text after the end of a statement: spaces, a comment, and the end of the line. -/
def endLine (cs : List Char) : Except Fault (List Char) := do
  let rest ← skipComment (skipSpace cs)
  match rest with
  | [] => .ok []
  | '\n' :: rest' => .ok rest'
  | _ => .error .malformed

/-- The keys of a header before the last, and the last. -/
def splitLast (path : List String) : List String × String :=
  (path.dropLast, path.getLast?.getD "")

/-- The statements of a document, where `header` is the table that keys are given in. -/
def statements : (fuel : Nat) → (header : List String) → (root : Entries) → List Char →
    Except Fault Entries
  | 0, _, root, cs => if cs.isEmpty then .ok root else .error .malformed
  | fuel + 1, header, root, cs =>
      match skipSpace cs with
      | [] => .ok root
      | '\n' :: rest => statements fuel header root rest
      | '#' :: rest => do
          let rest' ← endLine ('#' :: rest)
          statements fuel header root rest'
      | '[' :: '[' :: rest => do
          let (path, rest₁) ← key (rest.length + 1) (skipSpace rest)
          match rest₁ with
          | ']' :: ']' :: rest₂ => do
              let (before, last) := splitLast path
              let root' ← alongHeader (openElement last) before root
              let rest₃ ← endLine rest₂
              statements fuel path root' rest₃
          | _ => .error .malformed
      | '[' :: rest => do
          let (path, rest₁) ← key (rest.length + 1) (skipSpace rest)
          match rest₁ with
          | ']' :: rest₂ => do
              let (before, last) := splitLast path
              let root' ← alongHeader (declareTable last) before root
              let rest₃ ← endLine rest₂
              statements fuel path root' rest₃
          | _ => .error .malformed
      | rest => do
          let (path, rest₁) ← key (rest.length + 1) rest
          match rest₁ with
          | '=' :: rest₂ => do
              let (v, rest₃) ← value (2 * rest₂.length + 4) (skipSpace rest₂)
              let root' ← alongHeader (assign v path) header root
              let rest₄ ← endLine rest₃
              statements fuel header root' rest₄
          | _ => .error .malformed

/-- The mapping a text spells. -/
def read (cs : List Char) : Except Fault Document.Fields := do
  let root ← statements (cs.length + 1) [] [] cs
  .ok (fieldsOf root)

end TypeOrigins.Toml
