/-!
# Binary floating point of double precision, exactly

A finite double is an integer mantissa times a power of two.  All operations are
computed on natural numbers and rounded once, to the nearest double and on a tie
to the one with the even mantissa, so nothing here depends on the arithmetic of
the machine.

Powers of two count the values of a word and move a binary point, and those of ten
move a decimal point.
-/

namespace BridgeFinder.Number

/-! ## Powers -/

/-- Two to the given power; a word of that many bits has so many values. -/
def powerOfTwo (exponent : Nat) : Nat :=
  Nat.pow 2 exponent

/-- Ten to the given power. -/
def powerOfTen (exponent : Nat) : Nat :=
  Nat.pow 10 exponent

/-! ## Doubles -/

/-- A double: `finite s m e` is `m · 2 ^ e`, negated if `s`.  Zero has two signs.
The functions below build only values with `m < powerOfTwo 53` and `-1074 ≤ e`, and
among the equal ones that with the least exponent. -/
inductive Binary64 where
  | nan
  | infinite (negative : Bool)
  | finite (negative : Bool) (mantissa : Nat) (exponent : Int)
deriving DecidableEq, Repr, Inhabited

namespace Binary64

/-- The least exponent of a finite double. -/
def leastExponent : Int := -1074

/-- The largest exponent of a finite double. -/
def largestExponent : Int := 971

/-- Divide, rounding to the nearest natural number and a tie to the even one. -/
def divideToEven (num den : Nat) : Nat :=
  let quotient := num / den
  let remainder := num % den
  if 2 * remainder < den then quotient
  else if 2 * remainder > den then quotient + 1
  else if quotient % 2 = 0 then quotient else quotient + 1

/-- Round `num / den`, where `den` is positive, to a double of the given sign. -/
def ofRatio (negative : Bool) (num den : Nat) : Binary64 :=
  if num = 0 then finite negative 0 leastExponent
  else
    let guess : Int := (num.log2 : Int) - (den.log2 : Int) - 52
    let below := if guess < 0 then num * powerOfTwo guess.natAbs < den * powerOfTwo 52
      else num < den * powerOfTwo (52 + guess.natAbs)
    let exponent := max leastExponent (if below then guess - 1 else guess)
    let mantissa :=
      if exponent < 0 then divideToEven (num * powerOfTwo exponent.natAbs) den
      else divideToEven num (den * powerOfTwo exponent.natAbs)
    let (mantissa, exponent) :=
      if mantissa = powerOfTwo 53 then (powerOfTwo 52, exponent + 1) else (mantissa, exponent)
    if exponent > largestExponent then infinite negative
    else finite negative mantissa exponent

/-- Round a natural number. -/
def ofNat (n : Nat) : Binary64 :=
  ofRatio false n 1

/-- Round `digits · 10 ^ power`, given a sign.  Powers beyond the reach of the
doubles are decided without computing them. -/
def ofDecimal (negative : Bool) (digits : Nat) (power : Int) : Binary64 :=
  let width : Int := (Nat.toDigits 10 digits).length
  if digits = 0 then finite negative 0 leastExponent
  else if power + width > 310 then infinite negative
  else if power + width < -330 then finite negative 0 leastExponent
  else if power < 0 then ofRatio negative digits (powerOfTen power.natAbs)
  else ofRatio negative (digits * powerOfTen power.natAbs) 1

/-- The value of a finite double without its sign, as a ratio. -/
def ratio (mantissa : Nat) (exponent : Int) : Nat × Nat :=
  if exponent < 0 then (mantissa, powerOfTwo exponent.natAbs)
  else (mantissa * powerOfTwo exponent.natAbs, 1)

/-- The product, rounded once. -/
def mul : Binary64 → Binary64 → Binary64
  | finite s m e, finite t n f =>
      let (a, b) := ratio m e
      let (c, d) := ratio n f
      ofRatio (s != t) (a * c) (b * d)
  | infinite s, finite t n _ => if n = 0 then nan else infinite (s != t)
  | finite s m _, infinite t => if m = 0 then nan else infinite (s != t)
  | infinite s, infinite t => infinite (s != t)
  | _, _ => nan

/-- The quotient, rounded once. -/
def div : Binary64 → Binary64 → Binary64
  | finite s m e, finite t n f =>
      if n = 0 then if m = 0 then nan else infinite (s != t)
      else
        let (a, b) := ratio m e
        let (c, d) := ratio n f
        ofRatio (s != t) (a * d) (b * c)
  | infinite s, finite t _ _ => infinite (s != t)
  | finite s _ _, infinite t => finite (s != t) 0 leastExponent
  | _, _ => nan

/-- The same value with the opposite sign. -/
def neg : Binary64 → Binary64
  | nan => nan
  | infinite s => infinite (!s)
  | finite s m e => finite (!s) m e

/-- Neither an infinity nor a NaN. -/
def isFinite : Binary64 → Bool
  | finite _ _ _ => true
  | _ => false

/-- Zero of either sign. -/
def isZero : Binary64 → Bool
  | finite _ m _ => m == 0
  | _ => false

/-- Equality of values: the two zeros are equal, and here NaN is equal to
itself. -/
def sameValue : Binary64 → Binary64 → Bool
  | nan, nan => true
  | infinite s, infinite t => s == t
  | finite s m e, finite t n f => (m == 0 && n == 0) || (s == t && m == n && e == f)
  | _, _ => false

/-- The nearest integer, halves away from zero, clamped to `0 … limit`.  NaN
counts as zero. -/
def toNatClamped (limit : Nat) : Binary64 → Nat
  | nan => 0
  | infinite negative => if negative then 0 else limit
  | finite negative m e =>
      if negative then 0
      else
        let (a, b) := ratio m e
        min limit ((2 * a + b) / (2 * b))

end Binary64

end BridgeFinder.Number
