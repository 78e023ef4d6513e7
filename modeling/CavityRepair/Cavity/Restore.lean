import CavityRepair.Cavity.Basic
import CavityRepair.Cavity.Policy
import CavityRepair.Cavity.SwapRemoval
/-!
# Restoring tetrahedra

A deleted tetrahedron is given back: its faces leave the ball, and facets of it that were inside the
cavity become boundary, seen from the tetrahedron itself.

* `length_of_restore`: the deleted list gets shorter by one.
-/
namespace CavityRepair

/-- The places of the faces behind which a tetrahedron lies, looking at faces from the last to the
first and at most for `room` places. -/
def Mesh.facesBefore {ε : Type} (m : Mesh) (tet : Nat) :
    (room : Nat) → List (BallFace × Nat) → Attempt ε (List Nat)
  | 0, _ => .ok []
  | _ + 1, [] => .ok []
  | room + 1, (face, place) :: rest => do
    let inner ← found (m.twin? face.outer)
    if inner.tet = tet then return place :: (← m.facesBefore tet room rest)
    else m.facesBefore tet (room + 1) rest

/-- The half-faces of a tetrahedron whose twins are not among those of removed faces. -/
def Mesh.exposed {ε : Type} (m : Mesh) (removed : List HalfFace) :
    List HalfFace → Attempt ε (List HalfFace)
  | [] => .ok []
  | inner :: rest => do
    let outer ← found (m.twin? inner)
    let others ← m.exposed removed rest
    return if outer ∈ removed then others else inner :: others

/-- The places of the faces that a tetrahedron leaves behind when it is given back, or why it cannot
be. With checks on, there must be as many as the mesh gives it. -/
def Site.facesToRemove (s : Site) (tet : Nat) (policy : Policy) :
    Attempt CavityError (List Nat) := do
  s.mesh.checkTet tet
  let gone ← found (s.mesh.deleted? tet)
  require (gone = true) (.notDeleted tet)
  require (tet ∈ s.cavity.deleted) (.missingFromDeletedSet tet)
  let places ← s.mesh.facesBefore tet 4 s.cavity.ball.zipIdx.reverse
  if policy.checks then
    let expected ← s.mesh.boundary [tet]
    require (expected.length = places.length)
      (.boundaryMismatch tet places.length expected.length)
  return places

/-- Gives a tetrahedron back, together with the faces at some places. -/
def Site.giveBack (s : Site) (tet : Nat) (places : List Nat) : Attempt CavityError Site := do
  let deleted ← found (swapErase? s.cavity.deleted tet)
  let mesh := s.mesh.unmark tet .deleted
  let (removed, ball) ← found (swapRemoveAll? s.cavity.ball places)
  let exposed ← mesh.exposed (removed.map (·.outer)) (HalfFace.ofTet tet)
  let added ← mesh.ballFaces exposed
  return ⟨mesh, ⟨deleted, ball ++ added⟩⟩

/-- Gives a deleted tetrahedron back. -/
def Site.restore (s : Site) (tet : Nat) (policy : Policy) : Attempt CavityError Site := do
  s.giveBack tet (← s.facesToRemove tet policy)

theorem length_of_giveBack {s s' : Site} {tet : Nat} {places : List Nat}
    (h : s.giveBack tet places = .ok s') :
    s'.cavity.deleted.length + 1 = s.cavity.deleted.length := by
  obtain ⟨deleted, hdeleted, h⟩ := bind_eq_ok_iff.1 h
  obtain ⟨⟨removed, ball⟩, -, h⟩ := bind_eq_ok_iff.1 h
  obtain ⟨exposed, -, h⟩ := bind_eq_ok_iff.1 h
  obtain ⟨added, -, h⟩ := bind_eq_ok_iff.1 h
  cases h
  exact length_of_swapErase? (found_eq_ok_iff.1 hdeleted)

/-- One tetrahedron is gone from the deleted list afterwards. -/
theorem length_of_restore {s s' : Site} {tet : Nat} {policy : Policy}
    (h : s.restore tet policy = .ok s') :
    s'.cavity.deleted.length + 1 = s.cavity.deleted.length := by
  obtain ⟨places, -, h⟩ := bind_eq_ok_iff.1 h
  exact length_of_giveBack h

end CavityRepair
