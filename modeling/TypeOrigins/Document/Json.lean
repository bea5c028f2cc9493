import TypeOrigins.Document.Basic
import TypeOrigins.Number.Shortest
import TypeOrigins.Text.Numeral
import TypeOrigins.Text.Quoted

/-! # JSON

Reading and writing documents as JSON. The reader also takes the words `NaN`, `Infinity` and
`-Infinity`, lets the last of equal names win, and reports the first fault with its place. It goes
into lists and objects as deep as it has room for. A string with half of a surrogate pair is no text
of characters; the half is replaced, and what was read counts as not intact. The writer uses ASCII
characters only. -/

namespace TypeOrigins.Json
set_option autoImplicit false

open Text

/-! ## Faults -/

/-- What is wrong with a text that is not JSON. -/
inductive Reason where
  | byteOrderMark
  | expectingValue
  | expectingName
  | expectingColon
  | expectingComma
  | extraData
  | unterminatedString
  | controlCharacter
  | badEscape
  | badUnicodeEscape
deriving DecidableEq, Repr

/-- The wording of a reason. -/
def Reason.message : Reason → String
  | .byteOrderMark => "Unexpected UTF-8 BOM (decode using utf-8-sig)"
  | .expectingValue => "Expecting value"
  | .expectingName => "Expecting property name enclosed in double quotes"
  | .expectingColon => "Expecting ':' delimiter"
  | .expectingComma => "Expecting ',' delimiter"
  | .extraData => "Extra data"
  | .unterminatedString => "Unterminated string starting at"
  | .controlCharacter => "Invalid control character at"
  | .badEscape => "Invalid \\escape"
  | .badUnicodeEscape => "Invalid \\uXXXX escape"

/-- The collections that values are nested in. -/
inductive Collection where
  | list
  | object
deriving DecidableEq, Repr

/-- The word for a collection. -/
def Collection.word : Collection → String
  | .list => "array"
  | .object => "object"

/-- Why reading stopped: the text is not JSON at a position, it holds an integer with too many
digits, or a collection in it is nested too deep. -/
inductive Fault where
  | malformed (reason : Reason) (position : Nat)
  | longInteger (digits : Nat)
  | tooDeep (collection : Collection)
deriving DecidableEq, Repr

/-- What is said of a collection that is nested too deep. -/
def Collection.tooDeepMessage (c : Collection) : String :=
  "maximum recursion depth exceeded while decoding a JSON " ++ c.word ++ " from a unicode string"

/-- The line of a position and the column in it, both from one. -/
def lineColumn (cs : List Char) (position : Nat) : Nat × Nat :=
  let before := cs.take position
  ((before.filter (· == '\n')).length + 1,
    (before.reverse.takeWhile (· != '\n')).length + 1)

/-- The wording of a fault in a text. -/
def Reason.messageAt (reason : Reason) (cs : List Char) (position : Nat) : String :=
  let (line, column) := lineColumn cs position
  reason.message ++ ": line " ++ toString line ++ " column " ++ toString column ++
    " (char " ++ toString position ++ ")"

/-! ## Reading -/

/-- A place in a text: how many characters are behind it, and those ahead. -/
structure Cursor where
  position : Nat
  rest : List Char

/-- Fails at a place. -/
def fail {α : Type} (reason : Reason) (position : Nat) : Except Fault α :=
  .error (.malformed reason position)

/-- The place after `n` characters more. -/
def Cursor.skip (c : Cursor) (n : Nat) : Cursor :=
  ⟨c.position + n, c.rest.drop n⟩

/-- White space between the parts of a text. -/
def isSpace (c : Char) : Bool :=
  c == ' ' || c == '\t' || c == '\n' || c == '\r'

/-- The place of the next part. -/
def Cursor.skipSpace (c : Cursor) : Cursor :=
  c.skip (c.rest.takeWhile isSpace).length

/-- The number of four hexadecimal digits. -/
def hex4? : List Char → Option Nat
  | [a, b, c, d] => do
      let a ← hexDigit? a
      let b ← hexDigit? b
      let c ← hexDigit? c
      let d ← hexDigit? d
      some (((a * 16 + b) * 16 + c) * 16 + d)
  | _ => none

/-- The code unit after `\u`, where `position` is that of the `u` and `rest` follows it. A quote has
to follow the four digits somewhere, so they may not end the text. -/
def codeUnit (position : Nat) (rest : List Char) : Except Fault Nat :=
  match hex4? (rest.take 4), rest.drop 4 with
  | some n, _ :: _ => .ok n
  | _, _ => fail .badUnicodeEscape position

/-- A character that was read, and whether it is what the text spells. -/
structure ReadChar where
  char : Char
  intact : Bool := true

/-- The character of a code unit; half of a pair is replaced. -/
def charOfUnit (n : Nat) : ReadChar :=
  if 0xd800 ≤ n && n ≤ 0xdfff then ⟨Char.ofNat 0xfffd, false⟩ else ⟨Char.ofNat n, true⟩

/-- The character of an escape that is one letter. -/
def simpleEscape? : Char → Option Char
  | '"' => some '"'
  | '\\' => some '\\'
  | '/' => some '/'
  | 'b' => some (Char.ofNat 8)
  | 'f' => some (Char.ofNat 12)
  | 'n' => some '\n'
  | 'r' => some '\r'
  | 't' => some '\t'
  | _ => none

/-- The character of a `\u` escape and the number of characters after the `u` that it takes. Two
escapes in a row that are the halves of a pair are one character. -/
def unicodeEscape (position : Nat) (rest : List Char) : Except Fault (ReadChar × Nat) := do
  let high ← codeUnit position rest
  let after := rest.drop 4
  match after with
  | '\\' :: 'u' :: more =>
      if 0xd800 ≤ high && high ≤ 0xdbff && 6 < after.length then
        let low ← codeUnit (position + 6) more
        if 0xdc00 ≤ low && low ≤ 0xdfff then
          .ok (⟨Char.ofNat (0x10000 + (high - 0xd800) * 0x400 + (low - 0xdc00)), true⟩, 10)
        else .ok (charOfUnit high, 4)
      else .ok (charOfUnit high, 4)
  | _ => .ok (charOfUnit high, 4)

/-- The rest of a string that opened at `opened`, and whether it is intact; `done` holds its
characters so far, the last first. The fuel bounds the characters ahead. -/
def stringTail (opened : Nat) :
    (fuel : Nat) → (done : List ReadChar) → Cursor → Except Fault ((String × Bool) × Cursor)
  | 0, _, _ => fail .unterminatedString opened
  | fuel + 1, done, c =>
      match c.rest with
      | [] => fail .unterminatedString opened
      | '"' :: rest =>
          .ok ((String.ofList (done.reverse.map ReadChar.char), done.all ReadChar.intact),
            ⟨c.position + 1, rest⟩)
      | ['\\'] => fail .unterminatedString opened
      | '\\' :: 'u' :: rest => do
          let (ch, n) ← unicodeEscape (c.position + 1) rest
          stringTail opened fuel (ch :: done) ⟨c.position + 2 + n, rest.drop n⟩
      | '\\' :: e :: rest =>
          match simpleEscape? e with
          | some ch => stringTail opened fuel (⟨ch, true⟩ :: done) ⟨c.position + 2, rest⟩
          | none => fail .badEscape c.position
      | ch :: rest =>
          if ch.toNat ≤ 0x1f then fail .controlCharacter c.position
          else stringTail opened fuel (⟨ch, true⟩ :: done) ⟨c.position + 1, rest⟩

/-- The string after an opening quote, and whether it is intact. -/
def string (c : Cursor) : Except Fault ((String × Bool) × Cursor) :=
  stringTail (c.position - 1) (c.rest.length + 1) [] c

/-- The values of digits. -/
def digitValues (cs : List Char) : List Nat := cs.filterMap asciiDigit?

/-- The digits of the integer part of a number: a zero alone, or digits that start with another. -/
def integerPart (cs : List Char) : List Char :=
  match cs with
  | '0' :: _ => ['0']
  | _ => cs.takeWhile isAsciiDigit

/-- The digits after a point, if a digit follows it. -/
def fractionPart? (cs : List Char) : Option (List Char) :=
  match cs with
  | '.' :: rest =>
      let ds := rest.takeWhile isAsciiDigit
      if ds.isEmpty then none else some ds
  | _ => none

/-- The exponent after `e`, if it has a digit: its value and the characters it takes. -/
def exponentPart? (cs : List Char) : Option (Int × Nat) :=
  match cs with
  | e :: rest =>
      if e == 'e' || e == 'E' then
        let (negative, body) := splitSign rest
        let ds := body.takeWhile isAsciiDigit
        if ds.isEmpty then none
        else some (withSign negative (ofDigits (digitValues ds)),
          1 + (rest.length - body.length) + ds.length)
      else none
  | [] => none

/-- A number: an integer, or a float if it has a fraction or an exponent. -/
def number (c : Cursor) : Except Fault (Document × Cursor) :=
  let (negative, body) :=
    match c.rest with
    | '-' :: rest => (true, rest)
    | rest => (false, rest)
  let whole := integerPart body
  if whole.isEmpty then fail .expectingValue c.position
  else
    let afterWhole := body.drop whole.length
    let fraction? := fractionPart? afterWhole
    let fraction := fraction?.getD []
    let afterFraction :=
      if fraction?.isSome then afterWhole.drop (fraction.length + 1) else afterWhole
    let exponent? := exponentPart? afterFraction
    let size := (if negative then 1 else 0) + whole.length +
      (if fraction?.isSome then fraction.length + 1 else 0) + (exponent?.map (·.2)).getD 0
    if fraction?.isNone && exponent?.isNone then
      if whole.length ≤ digitLimit then
        .ok (.int (withSign negative (ofDigits (digitValues whole))), c.skip size)
      else .error (.longInteger whole.length)
    else
      let shift := (exponent?.map (·.1)).getD 0
      .ok (.float (Binary64.ofDecimal negative (ofDigits (digitValues (whole ++ fraction)))
        (shift - fraction.length)), c.skip size)

/-- The words that are values. -/
def words : List (List Char × Document) :=
  [("null".toList, .null), ("true".toList, .bool true), ("false".toList, .bool false),
   ("NaN".toList, .float .nan), ("Infinity".toList, .float (.infinite false)),
   ("-Infinity".toList, .float (.infinite true))]

/-- A word that is a value, or a number. -/
def scalar (c : Cursor) : Except Fault (Document × Cursor) :=
  match words.find? fun w => w.1.isPrefixOf c.rest with
  | some w => .ok (w.2, c.skip w.1.length)
  | none => number c

/-- What was read, and whether all its strings are intact. -/
structure Reading where
  document : Document
  intact : Bool := true

mutual

/-- A value. The room is for the collections that it may be nested in, and the fuel bounds the
characters ahead twice over. -/
def value : (room fuel : Nat) → Cursor → Except Fault (Reading × Cursor)
  | _, 0, c => fail .expectingValue c.position
  | room, fuel + 1, c =>
      match c.rest, room with
      | '"' :: rest, _ => do
          let ((s, intact), c') ← string ⟨c.position + 1, rest⟩
          .ok (⟨.text s, intact⟩, c')
      | '[' :: _, 0 => .error (.tooDeep .list)
      | '[' :: rest, room + 1 =>
          let c' := Cursor.skipSpace ⟨c.position + 1, rest⟩
          match c'.rest with
          | ']' :: _ => .ok (⟨.list [], true⟩, c'.skip 1)
          | _ => items room fuel true [] c'
      | '{' :: _, 0 => .error (.tooDeep .object)
      | '{' :: rest, room + 1 =>
          let c' := Cursor.skipSpace ⟨c.position + 1, rest⟩
          match c'.rest with
          | '}' :: _ => .ok (⟨.object [], true⟩, c'.skip 1)
          | _ => members room fuel true [] c'
      | _, _ => (scalar c).map fun (d, c') => (⟨d, true⟩, c')

/-- The items of a list from one on; `done` holds those before it, the last first, and `intact` says
whether they are. -/
def items : (room fuel : Nat) → (intact : Bool) → (done : List Document) → Cursor →
    Except Fault (Reading × Cursor)
  | _, 0, _, _, c => fail .expectingValue c.position
  | room, fuel + 1, intact, done, c => do
      let (v, c₁) ← value room fuel c
      let c₂ := c₁.skipSpace
      let intact' := intact && v.intact
      match c₂.rest with
      | ']' :: _ => .ok (⟨.list (v.document :: done).reverse, intact'⟩, c₂.skip 1)
      | ',' :: _ => items room fuel intact' (v.document :: done) (c₂.skip 1).skipSpace
      | _ => fail .expectingComma c₂.position

/-- The members of an object from one on; `done` holds the fields before it, and `intact` says
whether they are. -/
def members : (room fuel : Nat) → (intact : Bool) → (done : Document.Fields) → Cursor →
    Except Fault (Reading × Cursor)
  | _, 0, _, _, c => fail .expectingName c.position
  | room, fuel + 1, intact, done, c =>
      match c.rest with
      | '"' :: rest => do
          let ((name, named), c₁) ← string ⟨c.position + 1, rest⟩
          let c₂ := c₁.skipSpace
          match c₂.rest with
          | ':' :: _ =>
              let (v, c₃) ← value room fuel (c₂.skip 1).skipSpace
              let c₄ := c₃.skipSpace
              let intact' := intact && named && v.intact
              let done' := done.put name v.document
              match c₄.rest with
              | '}' :: _ => .ok (⟨.object done', intact'⟩, c₄.skip 1)
              | ',' :: _ => members room fuel intact' done' (c₄.skip 1).skipSpace
              | _ => fail .expectingComma c₄.position
          | _ => fail .expectingColon c₂.position
      | _ => fail .expectingName c.position

end

/-- What a text spells, if there is room for the depth of its collections. -/
def read (room : Nat) (cs : List Char) : Except Fault Reading :=
  match cs with
  | '\ufeff' :: _ => fail .byteOrderMark 0
  | _ => do
      let (v, c) ← value room (2 * cs.length + 4) (Cursor.skipSpace ⟨0, cs⟩)
      let c' := c.skipSpace
      if c'.rest.isEmpty then .ok v else fail .extraData c'.position

/-! ## Writing -/

/-- One code unit as an escape. -/
def unitEscape (n : Nat) : List Char := '\\' :: 'u' :: hexDigits 4 n

/-- One character inside a string: ASCII, with the higher planes as pairs. -/
def escapeChar (c : Char) : List Char :=
  let n := c.toNat
  if c == '"' then ['\\', '"']
  else if c == '\\' then ['\\', '\\']
  else if c == '\n' then ['\\', 'n']
  else if c == '\r' then ['\\', 'r']
  else if c == '\t' then ['\\', 't']
  else if n == 8 then ['\\', 'b']
  else if n == 12 then ['\\', 'f']
  else if 0x20 ≤ n && n < 0x7f then [c]
  else if n < 0x10000 then unitEscape n
  else unitEscape (0xd800 + (n - 0x10000) / 0x400) ++ unitEscape (0xdc00 + (n - 0x10000) % 0x400)

/-- A string with its quotes. -/
def writeString (s : String) : String :=
  String.ofList ('"' :: s.toList.flatMap escapeChar ++ ['"'])

/-- A float in its shortest form. The special ones have names of their own. -/
def writeFloat : Binary64 → String
  | .nan => "NaN"
  | .infinite negative => if negative then "-Infinity" else "Infinity"
  | x => x.display

mutual

/-- A document on one line. A moment, which JSON has no word for, is written as nothing. -/
def write : Document → String
  | .null | .moment => "null"
  | .bool b => if b then "true" else "false"
  | .int n => toString n
  | .float x => writeFloat x
  | .text s => writeString s
  | .list items => "[" ++ ", ".intercalate (writeAll items) ++ "]"
  | .object fields => "\x7b" ++ ", ".intercalate (writeFields fields) ++ "\x7d"

/-- The items of a list, each on one line. -/
def writeAll : List Document → List String
  | [] => []
  | d :: rest => write d :: writeAll rest

/-- The fields of an object, each on one line. -/
def writeFields : Document.Fields → List String
  | [] => []
  | (key, d) :: rest => (writeString key.wording ++ ": " ++ write d) :: writeFields rest

end

/-- The spaces before a line at a depth. -/
def margin (depth : Nat) : String := String.ofList (List.replicate (2 * depth) ' ')

/-- Parts on lines of their own between two brackets. -/
def block (depth : Nat) (opening closing : String) (parts : List String) : String :=
  if parts.isEmpty then opening ++ closing
  else opening ++ "\n" ++ ",\n".intercalate (parts.map (margin (depth + 1) ++ ·)) ++ "\n" ++
    margin depth ++ closing

mutual

/-- A document with each item and each field on a line of its own, two spaces further in. -/
def writeLines (depth : Nat) : Document → String
  | .list items => block depth "[" "]" (writeAllLines (depth + 1) items)
  | .object fields => block depth "\x7b" "\x7d" (writeFieldsLines (depth + 1) fields)
  | d => write d

/-- The items of a list, each over lines of its own. -/
def writeAllLines (depth : Nat) : List Document → List String
  | [] => []
  | d :: rest => writeLines depth d :: writeAllLines depth rest

/-- The fields of an object, each over lines of its own. -/
def writeFieldsLines (depth : Nat) : Document.Fields → List String
  | [] => []
  | (key, d) :: rest =>
      (writeString key.wording ++ ": " ++ writeLines depth d) :: writeFieldsLines depth rest

end

end TypeOrigins.Json
