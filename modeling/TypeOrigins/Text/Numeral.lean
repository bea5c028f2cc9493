import TypeOrigins.Text.Blank
import TypeOrigins.Text.Digit

/-! # Numerals

Integers as people write them: white space around, an optional sign, and digits that single low
lines may group. `readInt?` takes the digits of any script, as flags and environment variables do;
`readWhole` takes the ASCII ones and is lenient about zeros, as the number fields of a document are.
No numeral has more than `digitLimit` digits. -/

namespace TypeOrigins.Text
set_option autoImplicit false

/-- The most digits a numeral may have. -/
def digitLimit : Nat := 4300

/-- Whether an integer has more digits than a numeral may have. -/
def isLong (n : Int) : Bool := Nat.pow 10 digitLimit ≤ n.natAbs

/-- What is said of a numeral with too many digits. -/
def longNumeralMessage (digits : Nat) : String :=
  "Exceeds the limit (" ++ toString digitLimit ++
    " digits) for integer string conversion: value has " ++ toString digits ++
    " digits; use sys.set_int_max_str_digits() to increase the limit"

/-- What is said of an integer that would be written with too many digits. -/
def longIntegerMessage : String :=
  "Exceeds the limit (" ++ toString digitLimit ++
    " digits) for integer string conversion; use sys.set_int_max_str_digits() to increase the limit"

/-- The number that decimal digits spell, the most significant first. -/
def ofDigits (ds : List Nat) : Nat :=
  ds.foldl (fun n d => 10 * n + d) 0

/-- A sign, and the text after it. A text without a sign is positive. -/
def splitSign : List Char → Bool × List Char
  | '-' :: rest => (true, rest)
  | '+' :: rest => (false, rest)
  | rest => (false, rest)

/-- The integer of a sign and a magnitude. -/
def withSign (negative : Bool) (n : Nat) : Int :=
  if negative then -(n : Int) else n

/-- The digits of a non-empty text of digits in which a single low line may stand between two. -/
def digitRun? (value? : Char → Option Nat) : List Char → Option (List Nat)
  | [] => none
  | [c] => (value? c).map ([·])
  | c :: '_' :: rest => do
      let d ← value? c
      let ds ← digitRun? value? rest
      some (d :: ds)
  | c :: rest => do
      let d ← value? c
      let ds ← digitRun? value? rest
      some (d :: ds)

/-- The integer a text spells in the digits of any script. -/
def readInt? (cs : List Char) : Option Int :=
  let (negative, body) := splitSign (trim isWhite cs)
  match digitRun? digitValue? body with
  | some ds => if ds.length ≤ digitLimit then some (withSign negative (ofDigits ds)) else none
  | none => none

/-! ## Whole numbers in documents -/

/-- Why a text is no whole number. -/
inductive NumeralFault where
  | malformed
  | tooLong
deriving DecidableEq, Repr

/-- The integer of a plain numeral: a minus sign or none, and then a zero or digits of which the
first is not zero. The length that is limited is that of the sign and the digits, whatever follows
them. -/
def readPlain (cs : List Char) : Except NumeralFault Int :=
  let (negative, body) :=
    match cs with
    | '-' :: rest => (true, rest)
    | _ => (false, cs)
  let digits := body.takeWhile isAsciiDigit
  match digits with
  | [] => .error .malformed
  | ['0'] => if body.length = 1 then .ok 0 else .error .malformed
  | '0' :: _ => .error .malformed
  | _ =>
      if digitLimit < digits.length + (if negative then 1 else 0) then .error .tooLong
      else if digits.length < body.length then .error .malformed
      else .ok (withSign negative (ofDigits (digits.filterMap asciiDigit?)))

/-- The text after leading zeros, among which low lines may stand. `last` is the character before
`cs`, and stays if nothing else does, or if a point follows it. -/
def dropZerosAfter (last : Char) : List Char → Option (List Char)
  | [] => some [last]
  | c :: rest =>
      if c = '0' || c = '_' then dropZerosAfter c rest
      else if c = '-' || isAsciiDigit c then some (c :: rest)
      else if c = '.' then some (last :: c :: rest)
      else none

/-- A text without its leading zeros, if it starts with a digit. A minus sign may follow zeros. -/
def dropZeros : List Char → Option (List Char)
  | '0' :: rest => dropZerosAfter '0' rest
  | c :: rest => if isAsciiDigit c then some (c :: rest) else none
  | [] => none

/-- A text without a fraction of zeros at its end; a point that something else follows, or nothing,
stays. -/
def dropZeroFraction (cs : List Char) : List Char :=
  match cs.dropWhile (· != '.') with
  | _ :: '0' :: zeros => if zeros.all (· == '0') then cs.takeWhile (· != '.') else cs
  | _ => cs

/-- Whether two low lines stand side by side. -/
def hasDoubleLine : List Char → Bool
  | '_' :: '_' :: _ => true
  | _ :: rest => hasDoubleLine rest
  | [] => false

/-- A text without its low lines, if they are single and inside. -/
def dropLines (cs : List Char) : List Char :=
  if cs.head? == some '_' || cs.getLast? == some '_' || hasDoubleLine cs then cs
  else cs.filter (· != '_')

/-- A numeral as a plain one: without the white space around it, a plus sign, leading zeros, a
fraction of zeros, and single low lines between digits. -/
def plainForm? (cs : List Char) : Option (List Char) :=
  let (negative, body) := splitSign (trim isWhite cs)
  (dropZeros body).map fun ds =>
    let plain := dropLines (dropZeroFraction ds)
    if negative then '-' :: plain else plain

/-- The integer a text spells in ASCII digits. A plain numeral that is too long is told apart from
one that is malformed; any other numeral is brought to its plain form first. -/
def readWhole (cs : List Char) : Except NumeralFault Int :=
  match readPlain cs with
  | .error .malformed =>
      match (plainForm? cs).map readPlain with
      | some (.ok n) => .ok n
      | _ => .error .malformed
  | r => r

end TypeOrigins.Text
