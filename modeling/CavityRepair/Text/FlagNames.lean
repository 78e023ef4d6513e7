import CavityRepair.Tetrahedron.Flags
import CavityRepair.Text.Blank
import CavityRepair.Text.Hex
/-!
# Flag words as text

A flag word is written as the names of its set bits, in ascending order and joined by bars, then the
bits without a name as one hexadecimal number. The word without bits is the empty text.

Reading is more liberal: blanks around a name do not matter, names may repeat and come in any
order, and a hexadecimal number may stand anywhere and hold any bit.

The program declares the names of its bits and leaves it to others to print and to parse them. That
they do so as `FlagNames.write` and `FlagNames.read?` do is an assumption.
-/
namespace CavityRepair

/-- The names of the bits of a word, in ascending order. -/
abbrev FlagNames (width : Nat) := List (String × Fin width)

namespace FlagNames

variable {width : Nat}

/-- The bits that have names. -/
def known (names : FlagNames width) : BitVec width :=
  names.foldl (fun bits entry => bits ||| BitVec.twoPow width entry.2) 0

/-- The items of the text of a word. -/
def items (names : FlagNames width) (bits : BitVec width) : List (List Char) :=
  let rest := bits &&& ~~~known names
  (names.filter fun entry => bits.getLsbD entry.2).map (fun entry => entry.1.toList)
    ++ if rest = 0 then [] else ['0' :: 'x' :: hexText rest.toNat]

/-- The text of a word. -/
def write (names : FlagNames width) (bits : BitVec width) : List Char :=
  [' ', '|', ' '].intercalate (items names bits)

/-- The pieces between the bars of a text. -/
def pieces : List Char → List (List Char)
  | [] => [[]]
  | c :: rest =>
    if c = '|' then [] :: pieces rest
    else match pieces rest with
      | [] => [[c]]
      | first :: others => (c :: first) :: others

/-- The word that a hexadecimal number stands for, if it fits. A plus sign may precede it. -/
def number? (digits : List Char) : Option (BitVec width) := do
  let n ← hex? (match digits with
    | '+' :: rest => rest
    | _ => digits)
  if n < 1 <<< width then some (BitVec.ofNat width n) else none

/-- The bits that an item stands for. -/
def item? (names : FlagNames width) (item : List Char) : Option (BitVec width) :=
  match item with
  | '0' :: 'x' :: digits => number? digits
  | _ => (names.find? fun entry => entry.1.toList = item).map fun entry =>
      BitVec.twoPow width entry.2

/-- The word that a text stands for. -/
def read? (names : FlagNames width) (text : List Char) : Option (BitVec width) :=
  if trim text = [] then some 0
  else do
    let words ← (pieces (trim text)).mapM fun piece => item? names (trim piece)
    return words.foldl (· ||| ·) 0

end FlagNames

/-- The names of the flags of a tetrahedron. -/
def TetFlags.names : FlagNames 16 :=
  edges.map (fun e => (s!"EDGE_{e}", (TetMark.edge e).bit))
    ++ facets.map (fun f => (s!"FACET_{f}", (TetMark.facet f).bit))
    ++ [("DELETED", TetMark.deleted.bit)]

/-- The names of the flags of a boundary face. -/
def FaceFlags.names : FlagNames 8 :=
  corners.map (fun c => (s!"EDGE_{c}", (FaceMark.side c).bit)) ++ [("FACET", FaceMark.face.bit)]

/-- The text of the flags of a tetrahedron. -/
def TetFlags.text (flags : TetFlags) : String := .ofList (names.write flags.bits)

/-- The flags of a tetrahedron, read from their text. -/
def TetFlags.read? (text : String) : Option TetFlags := (names.read? text.toList).map (⟨·⟩)

/-- The text of the flags of a boundary face. -/
def FaceFlags.text (flags : FaceFlags) : String := .ofList (names.write flags.bits)

/-- The flags of a boundary face, read from their text. -/
def FaceFlags.read? (text : String) : Option FaceFlags := (names.read? text.toList).map (⟨·⟩)

end CavityRepair
