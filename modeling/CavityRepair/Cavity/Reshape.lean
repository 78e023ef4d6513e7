import CavityRepair.Cavity.Boundary
import CavityRepair.Cavity.Restore
import CavityRepair.Cavity.StarShape
/-!
# Reshaping

A cavity is made star-shaped for a point by giving back, again and again, the tetrahedron behind the
first blind face. Each restoration makes the deleted list shorter, so this ends.
-/
namespace CavityRepair

/-- What a reshaping did. It may have been given up; what it did until then stands. -/
structure Reshape where
  /-- The mesh and the cavity afterwards. -/
  site : Site
  /-- The tetrahedra given back, in order. -/
  restored : List Nat
  /-- How many times the ball was looked over. -/
  scans : Nat
  outcome : Attempt CavityError Unit

/-- The tetrahedron that lies behind a face inside the cavity. -/
def Site.behind {ε : Type} (s : Site) (place : Nat) : Attempt ε Nat := do
  let face ← found s.cavity.ball[place]?
  let inner ← found (s.mesh.twin? face.outer)
  return inner.tet

variable [Orient3d]

/-- Gives back the tetrahedron behind the first blind face. The answer is empty if there is none. -/
def Site.repair? (s : Site) (p : Point) (policy : Policy) :
    Option (Attempt CavityError (Nat × Site)) :=
  (s.blindFace? p policy).map fun place => do
    let tet ← s.behind place
    let site ← s.restore tet policy
    return (tet, site)

theorem length_of_repair? {s s' : Site} {p : Point} {policy : Policy} {tet : Nat}
    (h : s.repair? p policy = some (.ok (tet, s'))) :
    s'.cavity.deleted.length + 1 = s.cavity.deleted.length := by
  obtain ⟨place, -, h⟩ := Option.map_eq_some_iff.1 h
  obtain ⟨tet', -, h⟩ := bind_eq_ok_iff.1 h
  obtain ⟨site, hsite, h⟩ := bind_eq_ok_iff.1 h
  cases h
  exact length_of_restore hsite

/-- Gives back tetrahedra until no face is blind. -/
def Site.shrink (s : Site) (p : Point) (policy : Policy) : Reshape :=
  match _h : s.repair? p policy with
  | none => ⟨s, [], 1, .ok ()⟩
  | some (.error fault) => ⟨s, [], 1, .error fault⟩
  | some (.ok (tet, next)) =>
    let later := next.shrink p policy
    { later with restored := tet :: later.restored, scans := later.scans + 1 }
termination_by s.cavity.deleted.length
decreasing_by
  have := length_of_repair? _h
  omega

/-- The point that a cavity is to be reshaped for, or why it cannot be. -/
def Site.checkReshape (s : Site) (vertex : Vertex) (checkpoint : Nat) (policy : Policy) :
    Attempt CavityError Point := do
  let p ← s.position vertex
  s.cavity.checkCheckpoint checkpoint
  if policy.checks then s.checkBoundary checkpoint
  return p

/-- Makes the cavity star-shaped for a vertex. -/
def Site.reshape (s : Site) (vertex : Vertex) (checkpoint : Nat) (policy : Policy) : Reshape :=
  match s.checkReshape vertex checkpoint policy with
  | .error fault => ⟨s, [], 0, .error fault⟩
  | .ok p => s.shrink p policy

end CavityRepair
