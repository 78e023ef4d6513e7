import CavityRepair.Number.Double
/-!
# Doubles as decimal text

The text of a double is the shortest decimal that reads back as the same double, written out in
full: no exponent, no point on whole numbers.

A double `m · 2 ^ q` owns the numbers that round to it: half a gap to either side, ends included
when `m` is even. The gap below a power of two is half as wide. `shortest` walks the decimal grids
`10 ^ k` from coarse to fine and stops at the first that has a point in the interval; only the two
grid points next to the value need a look, since a grid that meets the interval meets it in one of
them.
-/
namespace CavityRepair

/-- The decimal `digits · 10 ^ exponent`. -/
structure Decimal where
  digits : Nat
  exponent : Int
  deriving DecidableEq, Repr

namespace Decimal

/-- The interval of numbers that round to a double, laid over the grid `10 ^ k`. All four are in
one unit that makes them whole: the value, the distances down to the lower and up to the upper end,
and the width of the grid. -/
structure Lens where
  value : Nat
  below : Nat
  above : Nat
  grid : Nat
  deriving DecidableEq, Repr

/-- The magnitude of `d` seen on the grid `10 ^ k`. The unit is a quarter of the gap above it. -/
def lens (d : Double) (k : Int) : Lens :=
  let quarter := d.exponent - 2
  let unit := Nat.pow 10 (-k).toNat <<< quarter.toNat
  let narrow := d.mantissa = Double.hiddenBit ∧ d.exponent ≠ -1074
  { value := 4 * d.mantissa * unit
    below := (if narrow then 1 else 2) * unit
    above := 2 * unit
    grid := Nat.pow 10 k.toNat <<< (-quarter).toNat }

/-- Whether the grid point `n` lies in the interval; the ends belong to it when `closed`. -/
def Lens.holds (l : Lens) (closed : Bool) (n : Nat) : Bool :=
  let point := n * l.grid
  if closed then decide (l.value ≤ point + l.below ∧ point ≤ l.value + l.above)
  else decide (l.value < point + l.below ∧ point < l.value + l.above)

/-- The grid point of the interval next to the value, if there is one; of two at the same distance
the greater. -/
def Lens.hit? (l : Lens) (closed : Bool) : Option Nat :=
  let low := l.value / l.grid
  let high := low + 1
  match l.holds closed low, l.holds closed high with
  | true, true => if l.value - low * l.grid < high * l.grid - l.value then some low else some high
  | true, false => some low
  | false, true => some high
  | false, false => none

/-- The first hit on the grids `10 ^ k`, `10 ^ (k - 1)`, …, looking at `grids` of them. -/
def search (d : Double) : (grids : Nat) → (k : Int) → Option Decimal
  | 0, _ => none
  | grids + 1, k =>
    match (lens d k).hit? (d.mantissa % 2 == 0) with
    | some n => some ⟨n, k⟩
    | none => search d grids (k - 1)

/-- An exponent of ten above the magnitude of `d`, at most two too great. -/
def ceiling (d : Double) : Int := (d.exponent + d.mantissa.log2 + 1) * 30103 / 100000 + 1

/-- The shortest decimal that rounds to the magnitude of `d`. Seventeen digits always suffice, so
the search meets a hit within its grids. -/
def shortest (d : Double) : Decimal :=
  if d.mantissa = 0 then ⟨0, 0⟩ else (search d 22 (ceiling d)).getD ⟨0, 0⟩

/-- A decimal written out in full. -/
def positional (n : Decimal) : String :=
  let digits := Nat.toDigits 10 n.digits
  if 0 ≤ n.exponent then String.ofList (digits ++ List.replicate n.exponent.toNat '0')
  else
    let places := (-n.exponent).toNat
    let padded := List.replicate (places + 1 - digits.length) '0' ++ digits
    let split := padded.length - places
    String.ofList (padded.take split ++ '.' :: padded.drop split)

end Decimal

/-- The text of a double. -/
def floatText (x : Float) : String :=
  match Double.ofFloat? x with
  | some d => (if d.negative then "-" else "") ++ (Decimal.shortest d).positional
  | none =>
    if notANumber x then "NaN" else if Double.signBit x then "-inf" else "inf"

end CavityRepair
