import CavityRepair.Cavity.Restore
/-!
# Rescuing constrained edges

When every tetrahedron around a constrained edge is deleted, the edge is lost. `Site.rescue` walks
the rings of the constrained edges of the tetrahedra deleted since a checkpoint and gives back one
tetrahedron of each ring that is deleted as a whole: the one whose edge opposite to the ring's has
its midpoint farthest from the point that is to be inserted, of several the one with the lowest
index. The first tetrahedron since the checkpoint contains the point and is never given back, nor is
a ghost.
-/
namespace CavityRepair

/-- What a rescue has done so far. -/
structure Rescue where
  site : Site
  /-- The edges of tetrahedra that were met on a ring. -/
  visited : List (Nat × Edge)
  /-- The rings walked, the latest first. -/
  rings : List (List RingStep)
  /-- The tetrahedra given back, the latest first. -/
  restored : List Nat

/-- What a rescue did. It may have been given up; what it did until then stands. -/
structure RescueReport where
  rescue : Rescue
  outcome : Attempt CavityError Unit

/-- What a rescue works towards. -/
structure RescueGoal where
  /-- The point to be inserted. -/
  point : Point
  /-- The tetrahedron that contains it. -/
  start : Nat
  /-- The color of tetrahedra that were touched. -/
  color : UInt16
  policy : Policy

/-- Whether a tetrahedron at some distance is to be preferred to another. -/
def isFarther (a b : Float × Nat) : Bool := a.1 > b.1 || (a.1 == b.1 && a.2 < b.2)

/-- The best of some tetrahedra at their distances, on top of the best so far. -/
def farthestOf (best : Option (Float × Nat)) : List (Float × Nat) → Option (Float × Nat)
  | [] => best
  | entry :: rest =>
    match best with
    | none => farthestOf (some entry) rest
    | some old => farthestOf (some (if isFarther entry old then entry else old)) rest

/-- The tetrahedra of a ring that may be given back, with the distances of their opposite edges. -/
def Mesh.candidates (m : Mesh) (ring : List RingStep) (start : Nat) (p : Point) :
    List (Float × Nat) :=
  (ring.filter (·.tet ≠ start)).filterMap fun step =>
    (m.oppositeMidpoint? step).map fun midpoint => (midpoint.squaredDistance p, step.tet)

/-- The tetrahedron of a ring to give back. -/
def Mesh.farthestMember? (m : Mesh) (ring : List RingStep) (start : Nat) (p : Point) : Option Nat :=
  (farthestOf none (m.candidates ring start p)).map (·.2)

/-- Notes the edges of a ring as visited. The answer also tells whether all its tetrahedra are
deleted. With checks on, an edge must not have been visited before. -/
def Mesh.visitRing (m : Mesh) (policy : Policy) (visited : List (Nat × Edge)) :
    List RingStep → Attempt CavityError (List (Nat × Edge) × Bool)
  | [] => .ok (visited, true)
  | step :: rest => do
    require (policy.checks = false ∨ (step.tet, step.edge) ∉ visited)
      (.ringRevisited step.tet step.edge)
    let gone ← found (m.deleted? step.tet)
    let (visited, others) ← m.visitRing policy ((step.tet, step.edge) :: visited) rest
    return (visited, gone && others)

/-- Whether the ring around an edge is still to be walked: the tetrahedron is deleted, the edge
constrained and not yet met. -/
def Rescue.isDue {ε : Type} (r : Rescue) (tet : Nat) (edge : Edge) : Attempt ε Bool := do
  let flags ← found r.site.mesh.flags[tet]?
  return flags.has .deleted && flags.has (.edge edge) && (tet, edge) ∉ r.visited

/-- Gives back a tetrahedron in the goal's color. The color is there even if the rest fails. -/
def Rescue.giveBack (r : Rescue) (goal : RescueGoal) (tet : Nat) : RescueReport :=
  match r.site.mesh.setColor (ε := CavityError) tet goal.color with
  | .error fault => ⟨r, .error fault⟩
  | .ok mesh =>
    let painted : Site := ⟨mesh, r.site.cavity⟩
    match painted.restore tet goal.policy with
    | .error fault => ⟨{ r with site := painted }, .error fault⟩
    | .ok site => ⟨{ r with site := site, restored := tet :: r.restored }, .ok ()⟩

/-- Walks the ring around an edge of a tetrahedron and gives one of its tetrahedra back if all are
deleted. -/
def Rescue.walk (r : Rescue) (goal : RescueGoal) (tet : Nat) (edge : Edge) : RescueReport :=
  let m := r.site.mesh
  match withCause CavityError.ring (m.ring tet edge) with
  | .error fault => ⟨r, .error fault⟩
  | .ok ring =>
    let walked := { r with rings := ring :: r.rings }
    match m.visitRing goal.policy r.visited ring with
    | .error fault => ⟨walked, .error fault⟩
    | .ok (visited, swallowed) =>
      let walked := { walked with visited := visited }
      if swallowed then
        match m.farthestMember? ring goal.start goal.point with
        | none => ⟨walked, refuse (.noRescueCandidate tet edge)⟩
        | some member => walked.giveBack goal member
      else ⟨walked, .ok ()⟩

/-- Walks the rings of some edges of tetrahedra that are due when it is their turn. -/
def Rescue.sweep (r : Rescue) (goal : RescueGoal) : List (Nat × Edge) → RescueReport
  | [] => ⟨r, .ok ()⟩
  | (tet, edge) :: rest =>
    match r.isDue tet edge with
    | .error fault => ⟨r, .error fault⟩
    | .ok false => r.sweep goal rest
    | .ok true =>
      let report := r.walk goal tet edge
      match report.outcome with
      | .error _ => report
      | .ok () => report.rescue.sweep goal rest

/-- Gives those of some tetrahedra a color that are deleted. -/
def Mesh.paintDeleted {ε : Type} (m : Mesh) (color : UInt16) : List Nat → Attempt ε Mesh
  | [] => .ok m
  | tet :: rest => do
    let gone ← found (m.deleted? tet)
    if gone then (← m.setColor tet color).paintDeleted color rest
    else m.paintDeleted color rest

/-- With checks on, refuses a first tetrahedron that is real and does not contain the point. -/
def Site.checkStart [Orient3d] (s : Site) (vertex : Vertex) (p : Point) (start : Nat)
    (policy : Policy) :
    Attempt CavityError Unit :=
  if policy.checks then do
    let ghost ← found (s.mesh.ghost? start)
    let inside ← found (s.mesh.contains? start p)
    require (ghost = true ∨ inside = true) (.pointOutsideStart start vertex)
  else .ok ()

/-- The point that constrained edges are to be rescued from, or why they cannot be. -/
def Site.checkRescue (s : Site) (vertex : Vertex) (checkpoint : Nat) :
    Attempt CavityError Point := do
  let p ← s.position vertex
  s.cavity.checkCheckpoint checkpoint
  return p

/-- Every edge of some tetrahedra. -/
def edgesOf (tets : List Nat) : List (Nat × Edge) :=
  tets.flatMap fun tet => edges.map fun edge => (tet, edge)

/-- Rescues the edges of the tetrahedra deleted for a vertex and colors those that stay deleted. -/
def Rescue.run (r : Rescue) (goal : RescueGoal) (fresh : List Nat) : RescueReport :=
  let report := r.sweep goal (edgesOf fresh)
  match report.outcome with
  | .error _ => report
  | .ok () =>
    let site := report.rescue.site
    match site.mesh.paintDeleted goal.color fresh with
    | .error fault => { report with outcome := .error fault }
    | .ok mesh => { report with rescue.site := ⟨mesh, site.cavity⟩ }

/-- Rescues the constrained edges of the tetrahedra deleted since a checkpoint. -/
def Site.rescue [Orient3d] (s : Site) (vertex : Vertex) (color : UInt16) (checkpoint : Nat)
    (policy : Policy) : RescueReport :=
  let idle : Rescue := ⟨s, [], [], []⟩
  match s.checkRescue vertex checkpoint with
  | .error fault => ⟨idle, .error fault⟩
  | .ok p =>
    match s.cavity.deleted.drop checkpoint with
    | [] => ⟨idle, .ok ()⟩
    | start :: others =>
      match s.checkStart vertex p start policy with
      | .error fault => ⟨idle, .error fault⟩
      | .ok () => idle.run ⟨p, start, color, policy⟩ (start :: others)

end CavityRepair
