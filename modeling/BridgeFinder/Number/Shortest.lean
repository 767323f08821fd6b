import BridgeFinder.Number.Binary64

/-!
# Shortest decimals

Every finite double has a decimal with the fewest digits among those that round
back to it, and among these one that is nearest to it.  `shortest` finds it by
trying the two neighbours of the value on the decimal grids of one to seventeen
digits.  Three notations write it: plain, plain with a mandatory decimal point,
and scientific for very small and very large values.
-/

namespace BridgeFinder.Number.Binary64

/-- The two multiples of `10 ^ power` around `num / den`, as multipliers. -/
def gridNeighbours (num den : Nat) (power : Int) : Nat × Nat :=
  let below :=
    if power < 0 then num * powerOfTen power.natAbs / den else num / (den * powerOfTen power.natAbs)
  (below, below + 1)

/-- Compare the distances of `a · 10 ^ power` and `b · 10 ^ power` from `num / den`,
where the value lies between them: is the first one at most as far away? -/
def nearerBelow (num den : Nat) (power : Int) (below above : Nat) : Bool :=
  if power < 0 then 2 * (num * powerOfTen power.natAbs) ≤ (below + above) * den
  else 2 * num ≤ (below + above) * (den * powerOfTen power.natAbs)

/-- On the grid of `power`, the multiplier that reads back as the double
`m · 2 ^ e`, if one of the two neighbours does. -/
def hit? (m : Nat) (e : Int) (power : Int) : Option Nat :=
  let (num, den) := ratio m e
  let (below, above) := gridNeighbours num den power
  let readsBack (digits : Nat) : Bool := ofDecimal false digits power == finite false m e
  match readsBack below, readsBack above with
  | true, true => some (if nearerBelow num den power below above then below else above)
  | true, false => some below
  | false, true => some above
  | false, false => none

/-- The place of the leading digit of `num / den`: the power of ten it stands
for. -/
def leadingPower (num den : Nat) : Int :=
  let width (n : Nat) : Int := (Nat.toDigits 10 n).length
  let guess := width num - width den
  let reached :=
    if guess < 0 then den ≤ num * powerOfTen guess.natAbs else den * powerOfTen guess.natAbs ≤ num
  if reached then guess else guess - 1

/-- Search the grids of `count` digits and more, at most `left` of them. -/
def shortestFrom (m : Nat) (e : Int) (leading : Int) : Nat → Nat → Nat × Int
  | 0, count => (0, leading - count + 1)
  | left + 1, count =>
      let power := leading - count + 1
      match hit? m e power with
      | some digits => (digits, power)
      | none => shortestFrom m e leading left (count + 1)

/-- Move trailing zeros of `digits` into the power of ten, at most `left` of
them. -/
def stripZeros : Nat → Nat → Int → Nat × Int
  | 0, digits, power => (digits, power)
  | left + 1, digits, power =>
      if digits ≠ 0 ∧ digits % 10 = 0 then stripZeros left (digits / 10) (power + 1)
      else (digits, power)

/-- The shortest decimal `digits · 10 ^ power` of the double `m · 2 ^ e`, without
trailing zeros.  Zero has the digit zero. -/
def shortest (m : Nat) (e : Int) : Nat × Int :=
  if m = 0 then (0, 0)
  else
    let (num, den) := ratio m e
    let (digits, power) := shortestFrom m e (leadingPower num den) 17 1
    stripZeros 20 digits power

/-- Write `digits · 10 ^ power` positionally.  `pointed` asks for a decimal point
even in an integer. -/
def positional (pointed : Bool) (digits : Nat) (power : Int) : String :=
  let text := Nat.toDigits 10 digits
  if 0 ≤ power then
    String.ofList (text ++ List.replicate (if digits = 0 then 0 else power.natAbs) '0' ++
      (if pointed then ['.', '0'] else []))
  else
    let places := power.natAbs
    let padded := List.replicate (places + 1 - text.length) '0' ++ text
    String.ofList (padded.take (padded.length - places) ++ '.' ::
      padded.drop (padded.length - places))

/-- Write the sign and the given text of the magnitude. -/
def signed (negative : Bool) (text : String) : String :=
  if negative then "-" ++ text else text

/-- The plain notation: positional, with a decimal point only where one is
needed. -/
def plainText : Binary64 → String
  | nan => "NaN"
  | infinite negative => signed negative "inf"
  | finite negative m e =>
      let (digits, power) := shortest m e
      signed negative (positional false digits power)

/-- The plain notation, with `.0` after an integer. -/
def pointedText : Binary64 → String
  | nan => "NaN"
  | infinite negative => signed negative "inf"
  | finite negative m e =>
      let (digits, power) := shortest m e
      signed negative (positional true digits power)

/-- The notation of numbers in JSON: positional with a decimal point from `1e-5` up
to below `1e16`, and scientific with a signed exponent beyond. -/
def jsonText : Binary64 → String
  | nan => "null"
  | infinite _ => "null"
  | finite negative m e =>
      let (digits, power) := shortest m e
      let text := Nat.toDigits 10 digits
      let leading := power + text.length - 1
      if digits = 0 ∨ (-5 ≤ leading ∧ leading ≤ 15) then
        signed negative (positional true digits power)
      else
        let tail := if text.length ≤ 1 then [] else '.' :: text.drop 1
        let sign := if leading < 0 then '-' else '+'
        signed negative (String.ofList (text.take 1 ++ tail ++ 'e' :: sign ::
          Nat.toDigits 10 leading.natAbs))

end BridgeFinder.Number.Binary64
