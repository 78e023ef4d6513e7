import CavityRepair.Document.Basic
import CavityRepair.Number.Shortest
/-!
# Numbers of JSON documents

A number without fraction and exponent is a whole number if it fits 64 bits. Every other number is
the nearest double, and so is `-0`. A number too great for a double is no number.
-/
namespace CavityRepair.Document

/-- The parts of a number as written. -/
structure Numeral where
  negative : Bool
  whole : List Char
  fraction : Option (List Char)
  exponent : Option (Bool × List Char)

/-- The value of a row of digits. -/
def digitsValue (digits : List Char) : Nat :=
  digits.foldl (fun n c => 10 * n + (c.toNat - '0'.toNat)) 0

/-- Takes the digits off the front of a text; at least one is there. -/
def digits? (s : List Char) : Option (List Char × List Char) :=
  let digits := s.takeWhile Char.isDigit
  if digits = [] then none else some (digits, s.dropWhile Char.isDigit)

/-- Takes a number apart. Whole parts have no leading zero. -/
def numeral? (s : List Char) : Option Numeral := do
  let negative := s.head? == some '-'
  let (whole, rest) ← digits? (if negative then s.tail else s)
  if whole.head? = some '0' ∧ whole.length ≠ 1 then none
  let (fraction, rest) ← match rest with
    | '.' :: rest => (digits? rest).map fun (digits, rest) => (some digits, rest)
    | _ => some (none, rest)
  let exponent : Option (Bool × List Char) ← match rest with
    | [] => some none
    | e :: rest =>
      if e = 'e' ∨ e = 'E' then
        let below := rest.head? == some '-'
        let signed := below || rest.head? == some '+'
        match digits? (if signed then rest.tail else rest) with
        | some (digits, []) => some (some (below, digits))
        | _ => none
      else none
  return ⟨negative, whole, fraction, exponent⟩

/-- The double nearest to `mantissa · 10 ^ exponent`, none if there is no finite one. Exponents so
far out that the digits cannot make up for them are settled by magnitude alone. -/
def nearest? (mantissa : Nat) (exponent : Int) (digits : Nat) : Option Float :=
  if mantissa = 0 ∨ exponent + digits < -400 then some 0.0
  else if 400 < exponent then none
  else
    let x := Float.ofScientific mantissa (decide (exponent < 0)) exponent.natAbs
    if finite x then some x else none

/-- The number that a numeral stands for. -/
def Numeral.value? (n : Numeral) : Option Document :=
  let plain := n.fraction.isNone && n.exponent.isNone
  let whole := digitsValue n.whole
  if plain && !n.negative && decide (whole < UInt64.size) then some (.integer whole)
  else if plain && n.negative && decide (0 < whole ∧ 2 * whole ≤ UInt64.size) then
    some (.integer (-whole))
  else do
    let fraction := n.fraction.getD []
    let shift : Int := match n.exponent with
      | some (below, digits) => if below then -(digitsValue digits : Int) else digitsValue digits
      | none => 0
    let digits := n.whole ++ fraction
    let x ← nearest? (digitsValue digits) (shift - fraction.length) digits.length
    return .float (if n.negative then -x else x)

/-- The number written as a text. -/
def number? (s : List Char) : Option Document := do (← numeral? s).value?

/-- A double as a document. What is not finite has no number and becomes null. -/
def ofFloat (x : Float) : Document := if finite x then .float x else .null

/-- The text of a double: all its digits, and a point also on whole numbers. What is not finite has
no text of its own. -/
def floatLiteral (x : Float) : String :=
  if !finite x then "null"
  else
    let text := floatText x
    if '.' ∈ text.toList then text else text ++ ".0"

end CavityRepair.Document
