/-!
# Doubles as exact numbers

A finite double is a whole number times a power of two. `Double.ofFloat?` reads sign, mantissa and
exponent off the bits, and `rational?` gives the rational number they stand for. Infinities and NaN
have no exact value.
-/
namespace CavityRepair

/-- A finite double taken apart: its magnitude is `mantissa · 2 ^ exponent`. -/
structure Double where
  negative : Bool
  mantissa : Nat
  exponent : Int
  deriving DecidableEq, Repr

namespace Double

/-- Exponent field of the bits; 2047 marks infinities and NaN, 0 the numbers without hidden bit. -/
def exponentField (x : Float) : Nat := (x.toBits >>> 52).toNat % 2048

/-- The bit above the stored ones of the mantissa; it is set in doubles of normal size. -/
def hiddenBit : Nat := 1 <<< 52

/-- The 52 stored bits of the mantissa. -/
def mantissaField (x : Float) : Nat := x.toBits.toNat % hiddenBit

/-- Whether the sign bit is set; also true of `-0`. -/
def signBit (x : Float) : Bool := x.toBits >>> 63 == 1

/-- The parts of a finite double. -/
def ofFloat? (x : Float) : Option Double :=
  let field := exponentField x
  if field = 2047 then none
  else if field = 0 then some ⟨signBit x, mantissaField x, -1074⟩
  else some ⟨signBit x, mantissaField x + hiddenBit, (field : Int) - 1075⟩

/-- The number a double stands for. -/
def value (d : Double) : Rat :=
  let magnitude : Rat :=
    if 0 ≤ d.exponent then mkRat (d.mantissa <<< d.exponent.toNat : Nat) 1
    else mkRat d.mantissa (1 <<< (-d.exponent).toNat)
  if d.negative then -magnitude else magnitude

end Double

/-- The rational number a double stands for, if it is finite. -/
def rational? (x : Float) : Option Rat := (Double.ofFloat? x).map Double.value

/-- Whether a double is neither infinite nor NaN. -/
def finite (x : Float) : Bool := (Double.ofFloat? x).isSome

/-- A NaN is not finite and has bits left beside sign and exponent. -/
def notANumber (x : Float) : Bool := !finite x && Double.mantissaField x != 0

theorem rational?_isSome (x : Float) : (rational? x).isSome = finite x := by
  simp [rational?, finite]

/-- A rational number whose denominator is a power of two, as a double. Numbers that are doubles of
normal size are met exactly; zero becomes `+0`. -/
def ofDyadic (r : Rat) : Float := (Float.ofInt r.num).scaleB (-(r.den.log2 : Int))

end CavityRepair
