import TypeOrigins.Number.Binary64

/-! # The shortest decimal of a number

A number of the 64-bit binary format is written with the fewest digits that read back as it, and of
several such decimals with the nearest. `shortest` finds them, grid by grid, in exact arithmetic;
`display` decides where an exponent is written. -/

namespace TypeOrigins.Binary64
set_option autoImplicit false

/-- A quotient over ten to a power, as a quotient. -/
def scaleTen (num den : Nat) (power : Int) : Nat × Nat :=
  if power ≥ 0 then (num, den * Nat.pow 10 power.toNat)
  else (num * Nat.pow 10 (-power).toNat, den)

/-- The power of ten at or below a positive quotient. `guess` is not above it, and the fuel bounds
how far it is below. -/
def decimalExponent (num den : Nat) : (fuel : Nat) → (guess : Int) → Int
  | 0, guess => guess
  | fuel + 1, guess =>
      let (n, d) := scaleTen num den (guess + 1)
      if n ≥ d then decimalExponent num den fuel (guess + 1) else guess

/-- The nearest multiple of ten to `power` that reads back as a magnitude, as a factor. -/
def gridPoint? (magnitude : Binary64) (num den : Nat) (power : Int) : Option Nat :=
  let (n, d) := scaleTen num den power
  let below := n / d
  let nearest := roundDiv n d
  let farther := if nearest = below then below + 1 else below
  if ofDecimal false nearest power = magnitude then some nearest
  else if ofDecimal false farther power = magnitude then some farther
  else none

/-- The fewest digits that read back as a magnitude, and the power of ten of the last. The grids
from `power` down are tried; the fuel bounds their number. -/
def shortestFrom (magnitude : Binary64) (num den : Nat) : (fuel : Nat) → (power : Int) → Nat × Int
  | 0, power => (roundDiv (scaleTen num den power).1 (scaleTen num den power).2, power)
  | fuel + 1, power =>
      match gridPoint? magnitude num den power with
      | some digits => (digits, power)
      | none => shortestFrom magnitude num den fuel (power - 1)

/-- The fewest digits of a positive magnitude `mantissa` times two to `exponent`, and the power of
ten of the last. -/
def shortest (mantissa : Nat) (exponent : Int) : Nat × Int :=
  let (num, den) :=
    if exponent ≥ 0 then (mantissa * Nat.pow 2 exponent.toNat, 1)
    else (mantissa, Nat.pow 2 (-exponent).toNat)
  let top := decimalExponent num den 700 (-330)
  shortestFrom (.finite false mantissa exponent) num den 17 top

/-- Digits without the zeros at their end, and how many those are. -/
def dropTrailingZeros (ds : List Char) : List Char × Nat :=
  let zeros := (ds.reverse.takeWhile (· == '0')).length
  (ds.take (ds.length - zeros), zeros)

/-- An exponent of at least two digits with its sign. -/
def exponentText (e : Int) : String :=
  let ds := toString e.natAbs
  (if e < 0 then "-" else "+") ++ (if ds.length < 2 then "0" ++ ds else ds)

/-- Digits with a point after the first `point` of them; zeros fill what is missing. From seventeen
digits before the point on, and from four zeros after it on, there is an exponent instead. -/
def placePoint (ds : List Char) (point : Int) : String :=
  if -4 < point && point ≤ 16 then
    if point ≤ 0 then
      "0." ++ String.ofList (List.replicate (-point).toNat '0' ++ ds)
    else if (ds.length : Int) ≤ point then
      String.ofList (ds ++ List.replicate (point.toNat - ds.length) '0') ++ ".0"
    else String.ofList (ds.take point.toNat) ++ "." ++ String.ofList (ds.drop point.toNat)
  else
    let fraction := if ds.length ≤ 1 then "" else "." ++ String.ofList (ds.drop 1)
    String.ofList (ds.take 1) ++ fraction ++ "e" ++ exponentText (point - 1)

/-- The text of a number. -/
def display : Binary64 → String
  | .nan => "nan"
  | .infinite negative => if negative then "-inf" else "inf"
  | .finite negative m e =>
      let sign := if negative then "-" else ""
      if m = 0 then sign ++ "0.0"
      else
        let (digits, power) := shortest m e
        let all := (toString digits).toList
        let (ds, _) := dropTrailingZeros all
        sign ++ placePoint ds (all.length + power)

end TypeOrigins.Binary64
