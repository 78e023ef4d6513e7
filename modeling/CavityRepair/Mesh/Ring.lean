import CavityRepair.Mesh.Basic
/-!
# Edge rings

The tetrahedra around an edge form a ring: each is left through one of its two facets at the edge
and the next is entered through the twin. `Mesh.ring` walks it once around from a given tetrahedron.
A walk in a mesh that nothing has checked may lose the edge or not come back, which is refused; it
never takes more steps than the mesh has tetrahedra.
-/
namespace CavityRepair

/-- A tetrahedron of a ring. -/
structure RingStep where
  tet : Nat
  /-- The edge of the ring in this tetrahedron. -/
  edge : Edge
  /-- The two corners off the edge: opposite to the facet of entry and to the facet of exit. -/
  apexes : Vertex × Vertex
  deriving DecidableEq, Repr

/-- Why a walk around an edge was given up. -/
inductive RingError where
  /-- The walk did not return to its first tetrahedron. -/
  | notClosed (tet : Nat) (edge : Edge) (steps : Nat)
  /-- A tetrahedron lacks the corner that the walk turns towards. -/
  | broken (tet : Nat) (vertex : Vertex)
  deriving DecidableEq, Repr

/-- The text of a refusal. -/
def RingError.message : RingError → String
  | .notClosed tet edge steps =>
    s!"Ring around edge {edge} of tetrahedron {tet} did not close after {steps} steps"
  | .broken tet vertex =>
    s!"Edge ring entered tetrahedron {tet}, which does not contain vertex {vertex}"

/-- The midpoint of the edge opposite to the ring's edge, none in a ghost. -/
def Mesh.oppositeMidpoint? (m : Mesh) (step : RingStep) : Option Point := do
  let a ← m.point? step.apexes.1
  let b ← m.point? step.apexes.2
  return a.midpoint b

/-- Walks on from a tetrahedron that was entered through facet `entry` and is left through facet
`exit`, for as many steps as remain. -/
def Mesh.walkRing (m : Mesh) (start : Nat) (edge : Edge) :
    (remaining : Nat) → (tet : Nat) → (entry exit : Facet) → Attempt RingError (List RingStep)
  | 0, tet, entry, exit => do
    let nodes ← found m.nodes[tet]?
    require (entry ≠ exit) (.broken tet (nodes.get entry))
    refuse (.notClosed start edge (m.size + 1))
  | remaining + 1, tet, entry, exit => do
    let nodes ← found m.nodes[tet]?
    let carried := nodes.get entry
    match Edge.ofFacets? entry exit with
    | none => refuse (.broken tet carried)
    | some here =>
      let step := ⟨tet, here, (carried, nodes.get exit)⟩
      let across ← found (m.twin? ⟨tet, exit⟩)
      if across.tet = start then return [step]
      else
        let next ← found m.nodes[across.tet]?
        match next.slotOf? carried with
        | none => refuse (.broken across.tet carried)
        | some out => return step :: (← m.walkRing start edge remaining across.tet across.facet out)

/-- The ring around an edge of a tetrahedron, which comes first. -/
def Mesh.ring (m : Mesh) (tet : Nat) (edge : Edge) : Attempt RingError (List RingStep) :=
  m.walkRing tet edge m.size tet edge.facets.1 edge.facets.2

end CavityRepair
