/-!
# Decimals of doubles

A finite double has an exact decimal expansion. `Decimal.shortest` takes the fewest leading digits
of it that still read back as the same double, rounded down or up, whichever of the two reads back;
if both do, the nearer one, and on an exact tie the one a rule chooses.
-/
namespace SolverSession

structure Decimal where
  digits : Nat
  exponent : Int
deriving DecidableEq

inductive Tie where
  | toEven
  | up

namespace Decimal

def toFloat (d : Decimal) : Float := Float.ofScientific d.digits (d.exponent < 0) d.exponent.natAbs

def numDigits (n : Nat) : Nat := (Nat.toDigits 10 n).length

def binary (x : Float) : Nat × Int :=
  let bits := x.toBits.toNat
  let exponent := bits/0x10000000000000 % 0x800
  let fraction := bits % 0x10000000000000
  (if exponent = 0 then fraction else 0x10000000000000+fraction,(max exponent 1 : Nat)-1075)

/-- The size of a finite double, digit for digit. A binary fraction `m/2^s` is `m·5^s/10^s`. -/
def exact (x : Float) : Decimal :=
  let (mantissa,power) := binary x
  if 0 ≤ power then ⟨mantissa*Nat.pow 2 power.toNat,0⟩ else ⟨mantissa*Nat.pow 5 power.natAbs,power⟩

def readsBack (d : Decimal) (x : Float) : Bool := d.toFloat.toBits == x.toBits

/-- The decimal of `n` digits that stands for the positive double `x`, if there is one: the first
`n` digits of its expansion `e`, or these digits and one more in the last place. -/
def ofLength? (tie : Tie) (x : Float) (e : Decimal) (n : Nat) : Option Decimal :=
  let cut := numDigits e.digits-n
  let unit := Nat.pow 10 cut
  let low : Decimal := ⟨e.digits/unit,e.exponent+cut⟩
  let high : Decimal := ⟨low.digits+1,low.exponent⟩
  match low.readsBack x, high.readsBack x with
  | false, false => none
  | true, false => some low
  | false, true => some high
  | true, true =>
    let rest := 2*(e.digits % unit)
    if rest < unit then some low
    else if unit < rest then some high
    else match tie with
      | .toEven => if low.digits % 2 = 0 then some low else some high
      | .up => some high

def stripZeros : Nat → Decimal → Decimal
  | 0, d => d
  | fuel+1, d =>
    if d.digits ≠ 0 ∧ d.digits % 10 = 0 then stripZeros fuel ⟨d.digits/10,d.exponent+1⟩ else d

/-- The shortest decimal that reads back as the finite positive double `x`. Seventeen digits are
tried; beyond them the exact expansion stands for itself. -/
def shortest (tie : Tie) (x : Float) : Decimal :=
  let e := exact x
  let d := ((List.range 17).findSome? fun n => ofLength? tie x e (n+1)).getD e
  stripZeros (numDigits d.digits) d

end Decimal
end SolverSession
