/-!
# JSON documents

The values of JSON. Whole numbers that fit 64 bits, signed or unsigned, are kept exactly and apart
from all other numbers, which are doubles. Objects keep their fields in order; of fields with the
same name the last one counts.
-/
namespace CavityRepair

/-- A JSON value. -/
inductive Document where
  | null
  | bool (b : Bool)
  | integer (n : Int)
  | float (x : Float)
  | string (s : String)
  | array (items : List Document)
  | object (fields : List (String × Document))
  deriving Repr

namespace Document

/-- A natural number as a document. -/
def ofNat (n : Nat) : Document := .integer n

/-- A text if there is one, and null if not. -/
def ofOption {α : Type} (encode : α → Document) : Option α → Document
  | some a => encode a
  | none => .null

/-- The value of a field of an object. -/
def field? (d : Document) (name : String) : Option Document :=
  match d with
  | .object fields => (fields.reverse.find? fun entry => entry.1 = name).map (·.2)
  | _ => none

/-- The items of an array. -/
def array? : Document → Option (List Document)
  | .array items => some items
  | _ => none

/-- A text. -/
def string? : Document → Option String
  | .string s => some s
  | _ => none

/-- A truth value. -/
def bool? : Document → Option Bool
  | .bool b => some b
  | _ => none

/-- A whole number. -/
def integer? : Document → Option Int
  | .integer n => some n
  | _ => none

/-- A whole number of the given width in bits. -/
def nat? (width : Nat) : Document → Option Nat
  | .integer (.ofNat n) => if n < 1 <<< width then some n else none
  | _ => none

/-- A number as a double. -/
def float? : Document → Option Float
  | .integer n => some (.ofInt n)
  | .float x => some x
  | _ => none

/-- An array whose items are all read in the same way. -/
def list? {α : Type} (read : Document → Option α) (d : Document) : Option (List α) := do
  (← d.array?).mapM read

theorem nat?_ofNat {width n : Nat} (h : n < 1 <<< width) : nat? width (ofNat n) = some n := by
  simp [nat?, ofNat, h]

end Document

end CavityRepair
