import CavityRepair.Tetrahedron.HalfFace
/-!
# Pairing half-faces by key

Half-faces with the same key belong together, two to a key. Half-faces are added one after the
other; the first with a key waits and the second is paired with it. A third has no place, and its
key is the error.
-/
namespace CavityRepair

/-- Half-faces by key, those that came last in front. -/
structure Pairing (κ : Type) where
  /-- The half-faces without a partner. -/
  waiting : List (κ × HalfFace)
  /-- The pairs. Of each the half-face that came later is in front. -/
  paired : List (κ × HalfFace × HalfFace)
  deriving Repr

namespace Pairing

variable {κ : Type}

/-- Nothing was added. -/
def empty : Pairing κ := ⟨[], []⟩

variable [DecidableEq κ]

/-- Adds a half-face. -/
@[specialize] def add (p : Pairing κ) (key : κ) (side : HalfFace) : Except κ (Pairing κ) :=
  match p.waiting.find? fun entry => decide (entry.1 = key) with
  | some (_, other) =>
    .ok ⟨p.waiting.eraseP fun entry => decide (entry.1 = key), (key, side, other) :: p.paired⟩
  | none =>
    if p.paired.any fun pair => decide (pair.1 = key) then .error key
    else .ok ⟨(key, side) :: p.waiting, p.paired⟩

/-- Adds half-faces in order. -/
@[specialize] def addAll (p : Pairing κ) : List (κ × HalfFace) → Except κ (Pairing κ)
  | [] => .ok p
  | (key, side) :: rest => do (← p.add key side).addAll rest

/-- The pairs of half-faces in the order in which they were found. -/
def links (p : Pairing κ) : List (HalfFace × HalfFace) := p.paired.reverse.map (·.2)

/-- The half-faces without a partner in the order in which they came. -/
def unpaired (p : Pairing κ) : List (κ × HalfFace) := p.waiting.reverse

end Pairing

end CavityRepair
