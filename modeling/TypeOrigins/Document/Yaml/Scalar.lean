import TypeOrigins.Document.Moment
import TypeOrigins.Number.Shortest
import TypeOrigins.Text.LowerCase
import TypeOrigins.Text.Numeral
import TypeOrigins.Text.Quoted

/-! # YAML scalars

What the text of a scalar stands for. A tag says the kind of a node; a plain scalar without a tag
has the one that `Tag.ofPlain` reads off its form, by the rules of YAML 1.1: numbers also in other
bases and in sixtieths, many words for true and false, dates. `Scalar.ofText` is the value of a text
under a tag. -/

namespace TypeOrigins.Yaml
set_option autoImplicit false

open Text
open Moment (twoDigits? after?)

/-! ## Faults -/

/-- Why the text of a scalar has no value under its tag. -/
inductive ScalarFault where
  | longInteger (digits : Nat)
  | badInteger (base : Nat) (text : List Char)
  | badFloat (text : List Char)
  | badMoment (fault : MomentFault)
  | noMoment
  | noNumber
  | noTruth (word : List Char)
  | codePoint
  | hugeCodePoint
  | hugeUnit
deriving DecidableEq, Repr

/-- The wording of a fault. -/
def ScalarFault.message : ScalarFault → String
  | .longInteger digits => longNumeralMessage digits
  | .badInteger base text =>
      "invalid literal for int() with base " ++ toString base ++ ": " ++
        quoted (String.ofList text)
  | .badFloat text => "could not convert string to float: " ++ quoted (String.ofList text)
  | .badMoment f => f.message
  | .noMoment => "'NoneType' object has no attribute 'groupdict'"
  | .noNumber => "string index out of range"
  | .noTruth word => quoted (String.ofList word)
  | .codePoint => "chr() arg not in range(0x110000)"
  | .hugeCodePoint => "Python int too large to convert to C int"
  | .hugeUnit => "int too large to convert to float"

/-- Why a text was not read: it is not YAML, a scalar in it has no value, or it is beyond what is read
here. -/
inductive Fault where
  | malformed
  | scalar (fault : ScalarFault)
  | beyond
deriving DecidableEq, Repr

/-! ## The form of plain scalars -/

/-- The kinds of nodes. -/
inductive Tag where
  | null
  | truth
  | int
  | float
  | timestamp
  | text
  | merge
  | value
  | sequence
  | mapping
  | set
  | pairs
  | binary
  | unknown
deriving DecidableEq, Repr

/-- The words for true and false. -/
def truthWords : List (String × Bool) :=
  [("yes", true), ("no", false), ("true", true), ("false", false), ("on", true), ("off", false)]

/-- A word in small letters, with a capital first, or all in capitals. -/
def casings (word : String) : List String :=
  let cs := word.toList
  let capital :=
    match cs with
    | c :: rest => c.toUpper :: rest
    | [] => []
  [word, String.ofList capital, String.ofList (cs.map Char.toUpper)]

/-- The words for nothing. -/
def nullWords : List String := ["", "~"] ++ casings "null"

/-- Whether a character is a digit or a low line. -/
def isDigitOrLine (c : Char) : Bool := isAsciiDigit c || c == '_'

/-- The pieces of a text between colons. -/
def splitColons : List Char → List (List Char)
  | [] => [[]]
  | c :: rest =>
      if c = ':' then [] :: splitColons rest
      else
        match splitColons rest with
        | [] => [[c]]
        | piece :: pieces => (c :: piece) :: pieces

/-- Whether a piece is a number below sixty of one or two digits. -/
def isSixtieth : List Char → Bool
  | [a] => isAsciiDigit a
  | [a, b] => '0' ≤ a && a ≤ '5' && isAsciiDigit b
  | _ => false

/-- Whether a text is a digit that a class has, then digits and low lines. -/
def isRun (first : Char → Bool) : List Char → Bool
  | [] => false
  | c :: rest => first c && rest.all isDigitOrLine

/-- Whether a text has the form of an integer without its sign: binary, octal, decimal, hexadecimal,
or in sixtieths. -/
def isMagnitude : List Char → Bool
  | ['0'] => true
  | '0' :: 'b' :: rest =>
      !rest.isEmpty && rest.all fun c => c == '0' || c == '1' || c == '_'
  | '0' :: 'x' :: rest => !rest.isEmpty && rest.all fun c => (hexDigit? c).isSome || c == '_'
  | '0' :: rest => rest.all fun c => ('0' ≤ c && c ≤ '7') || c == '_'
  | cs =>
      match splitColons cs with
      | run :: pieces => isRun (fun c => '1' ≤ c && c ≤ '9') run && pieces.all isSixtieth
      | [] => false

/-- Whether a text has the form of an integer. -/
def isInt (cs : List Char) : Bool := isMagnitude (splitSign cs).2

/-- Whether a text is nothing, or an exponent with a sign. -/
def isExponent : List Char → Bool
  | [] => true
  | e :: sign :: ds =>
      (e == 'e' || e == 'E') && (sign == '+' || sign == '-') && !ds.isEmpty && ds.all isAsciiDigit
  | _ => false

/-- Whether a text has the form of a float: digits with a point among them, sixtieths with a point,
or a special value. -/
def isFloat (cs : List Char) : Bool :=
  let body := (splitSign cs).2
  let signed := body.length < cs.length
  let whole := body.takeWhile fun c => isDigitOrLine c || c == ':'
  if body == ".inf".toList || body == ".Inf".toList || body == ".INF".toList then true
  else if cs == ".nan".toList || cs == ".NaN".toList || cs == ".NAN".toList then true
  else
    match body.drop whole.length with
    | '.' :: rest =>
        let fraction := rest.takeWhile isDigitOrLine
        let tail := rest.drop fraction.length
        match splitColons whole with
        | [[]] =>
            !signed && isRun isAsciiDigit fraction && isExponent tail
        | [run] => isRun isAsciiDigit run && isExponent tail
        | run :: pieces => isRun isAsciiDigit run && pieces.all isSixtieth && tail.isEmpty
        | [] => false
    | _ => false

/-! ## Moments -/

/-- One or two digits at the start of a text, and the text after them. -/
def shortNumber? : List Char → Option (Nat × List Char)
  | a :: b :: rest =>
      if !isAsciiDigit a then none
      else if isAsciiDigit b then some (ofBase 10 [a, b], rest)
      else some (ofBase 10 [a], b :: rest)
  | [a] => if isAsciiDigit a then some (ofBase 10 [a], []) else none
  | [] => none

/-- Whether a character is a space or a tab. -/
def isSpaceOrTab (c : Char) : Bool := c == ' ' || c == '\t'

/-- The offset at the end of a time: nothing, `Z`, or hours and minutes with a sign. -/
def zone? (cs : List Char) : Option (Option Int) :=
  match cs with
  | [] => some none
  | _ =>
      match cs.dropWhile isSpaceOrTab with
      | ['Z'] => some (some 0)
      | sign :: rest => do
          if sign != '+' && sign != '-' then none
          let (hours, rest₁) ← shortNumber? rest
          let minutes ←
            match rest₁ with
            | [] => some 0
            | ':' :: rest₂ =>
                match twoDigits? rest₂ with
                | some (m, []) => some m
                | _ => none
            | _ => none
          some (some (withSign (sign == '-') (60 * hours + minutes)))
      | [] => none

/-- The microseconds of a fraction of a second, of which six digits count. -/
def microseconds (fraction : List Char) : Nat :=
  let ds := fraction.take 6
  ofBase 10 (ds ++ List.replicate (6 - ds.length) '0')

/-- The time of day and the offset at the end of a timestamp. -/
def clock? (cs : List Char) : Option (Clock × Option Int) := do
  let (hour, rest₁) ← shortNumber? cs
  let rest₂ ← after? ':' rest₁
  let (minute, rest₃) ← twoDigits? rest₂
  let rest₄ ← after? ':' rest₃
  let (second, rest₅) ← twoDigits? rest₄
  let (fraction, rest₆) :=
    match rest₅ with
    | '.' :: rest => (rest.takeWhile isAsciiDigit, rest.dropWhile isAsciiDigit)
    | _ => ([], rest₅)
  let offset ← zone? rest₆
  some (⟨hour, minute, second, microseconds fraction⟩, offset)

/-- The moment a text spells: a date, or a date with a time of day after a `T` or spaces. -/
def moment? (cs : List Char) : Option Moment := do
  let year := cs.take 4
  if year.length != 4 || !year.all isAsciiDigit then none
  let rest₁ ← after? '-' (cs.drop 4)
  let (month, rest₂) ← shortNumber? rest₁
  let rest₃ ← after? '-' rest₂
  let (day, rest₄) ← shortNumber? rest₃
  let date : Moment := { year := ofBase 10 year, month := month, day := day }
  match rest₄ with
  | [] => some date
  | c :: rest₅ =>
      let (clock, offset) ←
        if c = 'T' || c = 't' then clock? rest₅
        else if isSpaceOrTab c then clock? (rest₅.dropWhile isSpaceOrTab)
        else none
      some { date with clock := some clock, offset := offset }

/-- Whether a plain scalar is a timestamp. A date alone has two digits for the month and the day. -/
def isTimestamp (cs : List Char) : Bool :=
  match moment? cs with
  | none => false
  | some m => m.clock.isSome || cs.length == 10

/-! ## Tags -/

/-- The tag that a plain scalar has by its form. -/
def Tag.ofPlain (cs : List Char) : Tag :=
  let s := String.ofList cs
  if nullWords.contains s then .null
  else if truthWords.any fun w => (casings w.1).contains s then .truth
  else if isFloat cs then .float
  else if isInt cs then .int
  else if isTimestamp cs then .timestamp
  else if s == "<<" then .merge
  else if s == "=" then .value
  else .text

/-- What the names of the tags that are known start with. -/
def tagStem : String := "tag:yaml.org,2002:"

/-- The tag with a name. -/
def Tag.ofName (name : String) : Tag :=
  let known : List (String × Tag) :=
    [("null", .null), ("bool", .truth), ("int", .int), ("float", .float),
     ("timestamp", .timestamp), ("str", .text), ("merge", .merge), ("value", .value),
     ("seq", .sequence), ("map", .mapping), ("set", .set), ("omap", .pairs), ("pairs", .pairs),
     ("binary", .binary)]
  match known.find? fun k => tagStem ++ k.1 == name with
  | some k => k.2
  | none => .unknown

/-! ## Values -/

/-- The value of a scalar. -/
inductive Scalar where
  | null
  | bool (b : Bool)
  | int (n : Int)
  | float (x : Binary64)
  | text (s : String)
  | moment (m : Moment)
deriving DecidableEq, Repr

/-- The mark that may stand after a zero in front of digits in a base. -/
def baseMark? (base : Nat) : Option Char :=
  if base == 2 then some 'b' else if base == 8 then some 'o' else if base == 16 then some 'x'
  else none

/-- A text without the mark of a base in front of it. -/
def dropMark (base : Nat) (cs : List Char) : List Char :=
  match cs with
  | '0' :: c :: rest => if baseMark? base == some c.toLower then rest else cs
  | _ => cs

/-- The value of a digit of any script, or of a letter that is a hexadecimal digit. -/
def anyDigit? (c : Char) : Option Nat := (digitValue? c).or (hexDigit? c)

/-- The integer that a text spells in a base: white space around, a sign, the mark of the base, and
digits of any script. Only decimal digits may be too many. -/
def intIn (base : Nat) (cs : List Char) : Except Fault Int :=
  let (negative, body) := splitSign (trim isWhite cs)
  let ds := (dropMark base body).map fun c => (anyDigit? c).filter (· < base)
  if ds.isEmpty || ds.contains none then .error (.scalar (.badInteger base cs))
  else if base == 10 && digitLimit < ds.length then .error (.scalar (.longInteger ds.length))
  else .ok (withSign negative (ds.foldl (fun n d => base * n + d.getD 0) 0))

/-- The number that pieces spell, of which each counts sixty times the next. -/
def sixtieths : Int → List (List Char) → Except Fault Int
  | n, [] => .ok n
  | n, piece :: rest => do
      let k ← intIn 10 piece
      sixtieths (60 * n + k) rest

/-- The integer a text spells. -/
def intOf (cs : List Char) : Except Fault Int :=
  let digits := cs.filter (· != '_')
  let (negative, body) := splitSign digits
  let magnitude : Except Fault Int :=
    match body with
    | [] => .error (.scalar .noNumber)
    | ['0'] => .ok 0
    | '0' :: 'b' :: rest => intIn 2 rest
    | '0' :: 'x' :: rest => intIn 16 rest
    | '0' :: _ => intIn 8 body
    | _ => if body.contains ':' then sixtieths 0 (splitColons body) else intIn 10 body
  magnitude.map fun n => if negative then -n else n

/-- A digit of any script as an ASCII one; other characters stay. -/
def plainDigit (c : Char) : Char :=
  match digitValue? c with
  | some d => Char.ofNat (0x30 + d)
  | none => c

/-- The number that a decimal with or without a point and an exponent spells, in ASCII digits. -/
def decimalFloat? (negative : Bool) (cs : List Char) : Option Binary64 :=
  let whole := cs.takeWhile isAsciiDigit
  let rest := cs.drop whole.length
  let fraction :=
    match rest with
    | '.' :: ds => ds.takeWhile isAsciiDigit
    | _ => []
  let tail :=
    match rest with
    | '.' :: ds => ds.drop fraction.length
    | _ => rest
  let shift? : Option Int :=
    match tail with
    | [] => some 0
    | e :: ds =>
        let (below, digits) := splitSign ds
        if (e == 'e' || e == 'E') && !digits.isEmpty && digits.all isAsciiDigit then
          some (withSign below (ofBase 10 digits))
        else none
  if whole.isEmpty && fraction.isEmpty then none
  else
    shift?.map fun shift =>
      Binary64.ofDecimal negative (ofBase 10 (whole ++ fraction)) (shift - fraction.length)

/-- The float that a piece of text spells: white space around, a sign, and a decimal or a word. -/
def pieceFloat (cs : List Char) : Except Fault Binary64 :=
  let (negative, body) := splitSign (trim isWhite cs)
  let word := body.map Char.toLower
  if word == "inf".toList || word == "infinity".toList then .ok (.infinite negative)
  else if word == "nan".toList then .ok .nan
  else
    match decimalFloat? negative (body.map plainDigit) with
    | some x => .ok x
    | none => .error (.scalar (.badFloat cs))

/-- The sum of numbers, the last first, of which each counts `unit` times sixty to its place. A unit
may be too large for a float. -/
def sixtiethsFloat (unit : Nat) (total : Binary64) : List Binary64 → Except Fault Binary64
  | [] => .ok total
  | x :: rest =>
      match Binary64.ofQuotient false unit 1 with
      | .infinite _ => .error (.scalar .hugeUnit)
      | u => sixtiethsFloat (60 * unit) (total.add (x.mul u)) rest

/-- The float a text spells. -/
def floatOf (cs : List Char) : Except Fault Binary64 :=
  let digits := lowerAfter [] (cs.filter (· != '_'))
  let (negative, body) := splitSign digits
  let magnitude : Except Fault Binary64 :=
    if digits.isEmpty then .error (.scalar .noNumber)
    else if body == ".inf".toList then .ok (.infinite false)
    else if body == ".nan".toList then .ok .nan
    else if body.contains ':' then do
      let pieces ← (splitColons body).mapM pieceFloat
      sixtiethsFloat 1 (.finite false 0 0) pieces.reverse
    else pieceFloat body
  let sign := Binary64.ofScaled negative 1 0
  magnitude.map (Binary64.mul sign)

/-- The value of a text under a tag. -/
def Scalar.ofText (tag : Tag) (cs : List Char) : Except Fault Scalar :=
  match tag with
  | .null => .ok .null
  | .truth =>
      match truthWords.find? fun w => w.1.toList == lowerAfter [] cs with
      | some w => .ok (.bool w.2)
      | none => .error (.scalar (.noTruth (lowerAfter [] cs)))
  | .int => (intOf cs).map .int
  | .float => (floatOf cs).map .float
  | .timestamp =>
      match moment? cs with
      | none => .error (.scalar .noMoment)
      | some m =>
          match m.fault? with
          | none => .ok (.moment m)
          | some f => .error (.scalar (.badMoment f))
  | .text => .ok (.text (String.ofList cs))
  | .binary => .error .beyond
  | .merge | .value | .sequence | .mapping | .set | .pairs | .unknown => .error .malformed

/-! ## Keys -/

/-- What is written of an integer that has too many digits. -/
def longIntegerKey : String := "<unprintable int object>"

/-- The wording of a scalar as a key. -/
def Scalar.wording : Scalar → String
  | .null => "None"
  | .bool b => if b then "1" else "0"
  | .int n => if isLong n then longIntegerKey else toString n
  | .float x => x.display
  | .text s => s
  | .moment m => m.wording

/-- The whole number a scalar equals. -/
def Scalar.whole? : Scalar → Option Int
  | .bool b => some (if b then 1 else 0)
  | .int n => some n
  | .float x => x.whole?
  | _ => none

/-- Whether two scalars are the same key: equal numbers are, whatever their kind, and an undefined
number is the same as none. -/
def Scalar.sameKey (a b : Scalar) : Bool :=
  match a.whole?, b.whole? with
  | some m, some n => m == n
  | none, none => a == b && a != .float .nan
  | _, _ => false

end TypeOrigins.Yaml
