/-! # Double-precision numbers

The numbers of the 64-bit binary format, exactly: a sign, a natural mantissa and a power of two, or
one of the special values. `ofDecimal` rounds a decimal to the nearest of them, a tie to the even
mantissa. -/

namespace TypeOrigins
set_option autoImplicit false

/-- A number of the 64-bit binary format; a finite one is its mantissa times two to its exponent. -/
inductive Binary64 where
  | nan
  | infinite (negative : Bool)
  | finite (negative : Bool) (mantissa : Nat) (exponent : Int)
deriving DecidableEq, Repr

namespace Binary64

/-- The quotient of two numbers rounded to the nearest integer, a tie to the even one. -/
def roundDiv (num den : Nat) : Nat :=
  let q := num / den
  let r := num % den
  if 2 * r > den || (2 * r == den && q % 2 == 1) then q + 1 else q

/-- A quotient scaled by a power of two, as a quotient. -/
def scale (num den : Nat) (exponent : Int) : Nat × Nat :=
  if exponent ≥ 0 then (num, den * Nat.pow 2 exponent.toNat)
  else (num * Nat.pow 2 (-exponent).toNat, den)

/-- The binary exponent at which a positive quotient has 53 significant bits, but not below the
smallest one of the format. -/
def exponentOf (num den : Nat) : Int :=
  let guess : Int := (Nat.log2 num : Int) - (Nat.log2 den : Int) - 53
  let (n, d) := scale num den guess
  let e := if n ≥ d * Nat.pow 2 53 then guess + 1 else guess
  if e < -1074 then -1074 else e

/-- The number of the format nearest to a quotient. Equal numbers have equal forms: the mantissa has
53 bits unless the exponent is the smallest one, and zero has the exponent zero. -/
def ofQuotient (negative : Bool) (num den : Nat) : Binary64 :=
  if num == 0 then .finite negative 0 0
  else
    let e := exponentOf num den
    let (n, d) := scale num den e
    let m := roundDiv n d
    if e + (Nat.log2 m : Int) ≥ 1024 then .infinite negative
    else if m = Nat.pow 2 53 then .finite negative (Nat.pow 2 52) (e + 1)
    else .finite negative m e

/-- The number of the format nearest to `digits` times ten to `exponent`. Decimals far outside the
range of the format are not computed with. -/
def ofDecimal (negative : Bool) (digits : Nat) (exponent : Int) : Binary64 :=
  if digits == 0 then .finite negative 0 0
  else
    let size : Int := (Nat.log2 digits : Int)
    if exponent > 400 then .infinite negative
    else if exponent < -(400 + size) then .finite negative 0 0
    else if exponent ≥ 0 then ofQuotient negative (digits * Nat.pow 10 exponent.toNat) 1
    else ofQuotient negative digits (Nat.pow 10 (-exponent).toNat)

/-- The number of the format nearest to a mantissa times two to an exponent. -/
def ofScaled (negative : Bool) (mantissa : Nat) (exponent : Int) : Binary64 :=
  if exponent ≥ 0 then ofQuotient negative (mantissa * Nat.pow 2 exponent.toNat) 1
  else ofQuotient negative mantissa (Nat.pow 2 (-exponent).toNat)

/-- A mantissa with its sign. -/
def signed (negative : Bool) (m : Nat) : Int := if negative then -(m : Int) else m

/-- The sum of two numbers, rounded. Opposite infinities have none. -/
def add : Binary64 → Binary64 → Binary64
  | .finite s m e, .finite t n f =>
      let low := min e f
      let sum := signed s m * Int.pow 2 (e - low).toNat + signed t n * Int.pow 2 (f - low).toNat
      ofScaled (sum < 0) sum.natAbs low
  | .infinite s, .infinite t => if s = t then .infinite s else .nan
  | .infinite s, .finite _ _ _ => .infinite s
  | .finite _ _ _, .infinite t => .infinite t
  | _, _ => .nan

/-- The product of two numbers, rounded. -/
def mul : Binary64 → Binary64 → Binary64
  | .finite s m e, .finite t n f => ofScaled (s != t) (m * n) (e + f)
  | .infinite s, .finite t n _ => if n = 0 then .nan else .infinite (s != t)
  | .finite s m _, .infinite t => if m = 0 then .nan else .infinite (s != t)
  | .infinite s, .infinite t => .infinite (s != t)
  | _, _ => .nan

/-- Whether a number is neither infinite nor undefined. -/
def isFinite : Binary64 → Bool
  | .finite _ _ _ => true
  | _ => false

/-- The integer a number is, if it is one. -/
def whole? : Binary64 → Option Int
  | .finite negative m e =>
      let magnitude? : Option Nat :=
        if e ≥ 0 then some (m * Nat.pow 2 e.toNat)
        else if m % Nat.pow 2 (-e).toNat == 0 then some (m / Nat.pow 2 (-e).toNat)
        else none
      magnitude?.map fun n => if negative then -(n : Int) else n
  | _ => none

end Binary64

end TypeOrigins
