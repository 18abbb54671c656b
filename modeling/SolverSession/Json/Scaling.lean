import SolverSession.Numeral

/-!
# Numerals as doubles

A numeral is read in working precision: as many of its digits as fit are collected in a 64-bit word,
the word is converted to a double, and the double is multiplied or divided by a power of ten. Each
of these steps rounds, so the result may differ from the nearest double in the last place.
-/
namespace SolverSession.Json

def wordLimit : Nat := 0x10000000000000000

def absorb (word : Nat) : List Nat → Nat × Nat
  | [] => (word,0)
  | d :: ds =>
    if 10*word+d < wordLimit then
      let (word,taken) := absorb (10*word+d) ds
      (word,taken+1)
    else (word,0)

def powerOfTen (k : Nat) : Float := Float.ofScientific 1 false k

/-- A double times a power of ten; nothing if it overflows. Powers below the least one are divided
off in steps of 308, of which `fuel` are allowed. -/
def scale : Nat → Float → Int → Option Float
  | fuel, x, exponent =>
    if exponent.natAbs ≤ 308 then
      if 0 ≤ exponent then
        let y := x*powerOfTen exponent.natAbs
        if y.isInf then none else some y
      else some (x/powerOfTen exponent.natAbs)
    else if x == 0 then some x
    else if 0 ≤ exponent then none
    else match fuel with
      | 0 => some 0
      | fuel+1 => scale fuel (x/powerOfTen 308) (exponent+308)

/-- The double a numeral is read as. Digits before the point that do not fit count as factors of
ten, those after it are dropped; three divisions bring every word to zero. -/
def floatOf? (n : Numeral) : Option Float :=
  let digits := Numeral.digitsOf n.whole
  let (whole,taken) := absorb 0 digits
  let (word,places) := absorb whole n.fraction
  let exponent : Int := n.exponent.getD 0+(digits.length-taken : Nat)-places
  (scale 3 (Float.ofNat word) exponent).map fun x => if n.negative then -x else x

end SolverSession.Json
