import CavityRepair.Proofs.Mesh.Edits
import CavityRepair.Proofs.Mesh.Hull
/-!
# Neighbors face each other

In a mesh that was built, the real tetrahedra have positions, and every ghost passes the corners of
its hull triangle the other way round (`Mesh.Hulled`). Edits leave this alone, and also whether
`Mesh.validate` accepts the mesh (`Mesh.Built.validate_edit_iff`).

The other results ask that the signs of the test are exact for the vertices. Then the real
tetrahedra are negatively oriented as well (`Mesh.Oriented`). When the mesh is accepted, the twin of
a half-face of a real tetrahedron passes the same corners in the opposite direction, whether a real
tetrahedron or a ghost lies behind it (`Mesh.Built.opposite_twin`).
-/
namespace CavityRepair

/-- A ghost has the vertex at infinity in its last slot. -/
theorem Quad.isGhost_iff {q : Quad Vertex} : q.isGhost = true ↔ q.get 3 = Vertex.ghost :=
  decide_eq_true_iff

namespace Mesh

/-! ## Exact positions -/

/-- The exact position of a vertex, none for the vertex at infinity. -/
def position? (m : Mesh) (v : Vertex) : Option Position := (m.point? v).bind Point.position?

/-- The exact position of a vertex, the origin if it has none. -/
def pos (m : Mesh) (v : Vertex) : Position := (m.position? v).getD ⟨0, 0, 0⟩

variable {m m' : Mesh}

theorem trianglePoints?_eq_some_iff {t : Triple Vertex} {u : Triple Point} :
    m.trianglePoints? t = some u ↔
      m.point? t.c0 = some u.c0 ∧ m.point? t.c1 = some u.c1 ∧ m.point? t.c2 = some u.c2 := by
  obtain ⟨a, b, c⟩ := u
  simp only [trianglePoints?, Option.bind_eq_bind, Option.bind_eq_some_iff, Option.pure_def,
    Option.some_inj, Triple.mk.injEq]
  constructor
  · rintro ⟨_, ha, _, hb, _, hc, rfl, rfl, rfl⟩
    exact ⟨ha, hb, hc⟩
  · rintro ⟨ha, hb, hc⟩
    exact ⟨a, ha, b, hb, c, hc, rfl, rfl, rfl⟩

/-- Corners that are passed in the opposite direction have positions that are so. -/
theorem exists_opposite_points {t u : Triple Vertex} (h : t.Opposite u) {p : Triple Point}
    (hp : m.trianglePoints? t = some p) :
    ∃ q, m.trianglePoints? u = some q ∧ p.Opposite q := by
  simp only [trianglePoints?_eq_some_iff] at hp ⊢
  obtain ⟨h0, h1, h2⟩ := hp
  rcases h with rfl | rfl | rfl
  · exact ⟨⟨p.c1, p.c0, p.c2⟩, ⟨h1, h0, h2⟩, .inl rfl⟩
  · exact ⟨⟨p.c0, p.c2, p.c1⟩, ⟨h0, h2, h1⟩, .inr (.inl rfl)⟩
  · exact ⟨⟨p.c2, p.c1, p.c0⟩, ⟨h2, h1, h0⟩, .inr (.inr rfl)⟩

theorem position?_eq {v : Vertex} {a : Point} {p : Position} (ha : m.point? v = some a)
    (hp : a.position? = some p) : m.position? v = some p := by
  rw [position?, ha, Option.bind_some, hp]

theorem pos_eq {v : Vertex} {p : Position} (h : m.position? v = some p) : m.pos v = p := by
  rw [pos, h, Option.getD_some]

/-- The determinant of a point with a triangle is that of their exact positions. -/
theorem det?_of_corners {t : Triple Vertex} {a : Point} {x : Position} {u : Triple Point}
    (hx : a.position? = some x) (ht : m.trianglePoints? t = some u)
    (hp : ∀ w ∈ t.toList, ∃ p, m.position? w = some p) :
    det? a u.c0 u.c1 u.c2 = some (detFrom x (t.map m.pos)) := by
  have hposition : ∀ {w : Vertex} {b : Point}, w ∈ t.toList → m.point? w = some b →
      b.position? = some (m.pos w) := by
    intro w b hw hb
    obtain ⟨p, hp⟩ := hp w hw
    rw [pos_eq hp]
    rwa [position?, hb, Option.bind_some] at hp
  obtain ⟨h0, h1, h2⟩ := trianglePoints?_eq_some_iff.1 ht
  exact det?_eq_some_iff.2 ⟨_, _, _, _, hx, hposition (by simp [Triple.toList]) h0,
    hposition (by simp [Triple.toList]) h1, hposition (by simp [Triple.toList]) h2, rfl⟩

/-- Points with exact positions have the determinant of these. -/
theorem det?_of_position {v : Vertex} {t : Triple Vertex} {a : Point} {u : Triple Point}
    (ha : m.point? v = some a) (ht : m.trianglePoints? t = some u)
    (hp : ∀ w ∈ v :: t.toList, ∃ p, m.position? w = some p) :
    det? a u.c0 u.c1 u.c2 = some (detFrom (m.pos v) (t.map m.pos)) := by
  obtain ⟨⟨x, hx⟩, hcorners⟩ := List.forall_mem_cons.1 hp
  rw [pos_eq hx]
  rw [position?, ha, Option.bind_some] at hx
  exact det?_of_corners hx ht hcorners

theorem mem_vertices {v : Vertex} {a : Point} (ha : m.point? v = some a) : a ∈ m.vertices :=
  Array.mem_of_getElem? ha

theorem mem_vertices_of_triangle {t : Triple Vertex} {u : Triple Point}
    (ht : m.trianglePoints? t = some u) :
    u.c0 ∈ m.vertices ∧ u.c1 ∈ m.vertices ∧ u.c2 ∈ m.vertices := by
  obtain ⟨h0, h1, h2⟩ := trianglePoints?_eq_some_iff.1 ht
  exact ⟨mem_vertices h0, mem_vertices h1, mem_vertices h2⟩

/-- A test whose signs are exact for the vertices sees them on the sides of triangles that their
exact positions give. -/
theorem orientation_of_position [Orient3d] (hexact : Orient3d.ExactOn m.vertices) {v : Vertex}
    {t : Triple Vertex} {a : Point} {u : Triple Point} (ha : m.point? v = some a)
    (ht : m.trianglePoints? t = some u) (hp : ∀ w ∈ v :: t.toList, ∃ p, m.position? w = some p) :
    orientation a u.c0 u.c1 u.c2 = .ofSign (detFrom (m.pos v) (t.map m.pos)) := by
  obtain ⟨h0, h1, h2⟩ := mem_vertices_of_triangle ht
  exact hexact a (mem_vertices ha) _ h0 _ h1 _ h2 _ (det?_of_position ha ht hp)

/-! ## Built meshes -/

/-- The corners of real tetrahedra have exact positions, and every ghost turns the triangle around
that it stands before. -/
structure Hulled (m : Mesh) : Prop where
  placed : ∀ {tet : Nat} {nodes : Quad Vertex}, m.nodes[tet]? = some nodes →
    nodes.isGhost = false → ∀ v ∈ nodes.toList, v ≠ Vertex.ghost ∧ ∃ p, m.position? v = some p
  ghost : ∀ {tet : Nat} {nodes : Quad Vertex}, m.nodes[tet]? = some nodes →
    nodes.isGhost = true → ∃ t, m.triangle? (m.twin ⟨tet, 3⟩) = some t ∧ nodes = ghostNodes t

/-- A hulled mesh of which the real tetrahedra are negatively oriented. -/
structure Oriented (m : Mesh) : Prop extends m.Hulled where
  negative : ∀ {tet : Nat} {nodes : Quad Vertex}, m.nodes[tet]? = some nodes →
    nodes.isGhost = false → detOf (nodes.map m.pos) < 0

/-- There are never so many vertices that the one at infinity would have a position. -/
theorem Built.point?_ghost [Orient3d] {edits : List MeshEdit} (h : Built edits m) :
    m.point? Vertex.ghost = none := by
  suffices hcount : m.vertices.size ≤ Vertex.ghost.toNat from Array.getElem?_eq_none hcount
  induction h with
  | closed hm =>
    rw [vertices_of_ofTetrahedra hm]
    exact (ofTetrahedra_eq_ok hm).1.le
  | @edited edits m m' edit hbuilt hedit ih =>
    exact size_vertices_of_edit hbuilt.sound.toLinked ih hedit

/-- What stands behind the input tetrahedra stands before the hull. -/
theorem ClosedBy.exists_hull {tets : List (Quad Vertex)} {hull : List HalfFace}
    (h : m.ClosedBy tets hull) {tet : Nat} (htet : tet < m.size) (hle : tets.length ≤ tet) :
    ∃ i k, tet = tets.length + i ∧ hull[i]? = some k := by
  obtain ⟨i, rfl⟩ := Nat.exists_eq_add_of_le hle
  have hi : i < hull.length := by
    rw [h.size_eq] at htet
    omega
  exact ⟨i, _, rfl, List.getElem?_eq_getElem hi⟩

/-- The ghosts are what stands behind the input tetrahedra. -/
theorem ClosedBy.isGhost_iff {tets : List (Quad Vertex)} {hull : List HalfFace}
    (h : m.ClosedBy tets hull) (hinfinity : m.point? Vertex.ghost = none) {tet : Nat}
    {nodes : Quad Vertex} (hn : m.nodes[tet]? = some nodes) :
    nodes.isGhost = true ↔ tets.length ≤ tet := by
  constructor
  · intro hghost
    by_contra hlt
    obtain ⟨q, hq, -, p, hp⟩ := h.real (List.getElem?_eq_getElem (Nat.lt_of_not_le hlt))
    obtain rfl := Option.some_inj.1 (hq.symm.trans hn)
    have hpoint := tetPoints?_eq_some_iff.1 hp 3
    rw [Quad.isGhost_iff.1 hghost, hinfinity] at hpoint
    cases hpoint
  · intro hle
    obtain ⟨i, k, rfl, hi⟩ := h.exists_hull (lt_size_of_nodes hn) hle
    obtain ⟨-, -, t, -, hghost, -⟩ := h.ghost hi
    obtain rfl := Option.some_inj.1 (hn.symm.trans hghost)
    simp [Quad.isGhost, ghostNodes]

theorem ClosedBy.isGhost_eq_false_iff {tets : List (Quad Vertex)} {hull : List HalfFace}
    (h : m.ClosedBy tets hull) (hinfinity : m.point? Vertex.ghost = none) {tet : Nat}
    {nodes : Quad Vertex} (hn : m.nodes[tet]? = some nodes) :
    nodes.isGhost = false ↔ tet < tets.length := by
  rw [← Bool.not_eq_true, h.isGhost_iff hinfinity hn, not_le]

/-- A mesh that was just built is hulled: all points are finite, and the vertex at infinity is not
among those of a real tetrahedron. -/
theorem hulled_of_ofTetrahedra [Orient3d] {vertices : Array Point} {tets : List (Quad Vertex)}
    (h : ofTetrahedra vertices tets = .ok m) : m.Hulled := by
  obtain ⟨hull, hclosed⟩ := exists_closedBy h
  have hinfinity := (Built.closed h).point?_ghost
  refine ⟨fun {tet nodes} hn hg v hv => ?_, fun {tet nodes} hn hg => ?_⟩
  · have hlt := (hclosed.isGhost_eq_false_iff hinfinity hn).1 hg
    obtain ⟨q, hq, -, p, hp⟩ := hclosed.real (List.getElem?_eq_getElem hlt)
    obtain rfl := Option.some_inj.1 (hq.symm.trans hn)
    obtain ⟨i, rfl⟩ := Quad.mem_toList.1 hv
    have hpoint := tetPoints?_eq_some_iff.1 hp i
    refine ⟨fun heq => ?_, ?_⟩
    · rw [heq, hinfinity] at hpoint
      cases hpoint
    · have hmem := mem_vertices hpoint
      rw [vertices_of_ofTetrahedra h] at hmem
      obtain ⟨x, hx⟩ := (finite_of_ofTetrahedra h _ hmem).exists_position
      exact ⟨x, position?_eq hpoint hx⟩
  · obtain ⟨i, k, rfl, hi⟩ :=
      hclosed.exists_hull (lt_size_of_nodes hn) ((hclosed.isGhost_iff hinfinity hn).1 hg)
    obtain ⟨htwin, -, t, ht, hghost, -⟩ := hclosed.ghost hi
    refine ⟨t, ?_, Option.some_inj.1 (hn.symm.trans hghost)⟩
    rw [twin, htwin, Option.getD_some, ht]

/-- A mesh that was just built is oriented where the signs of the test are exact. -/
theorem oriented_of_ofTetrahedra [Orient3d] {vertices : Array Point} {tets : List (Quad Vertex)}
    (h : ofTetrahedra vertices tets = .ok m) (hexact : Orient3d.ExactOn m.vertices) :
    m.Oriented where
  toHulled := hulled_of_ofTetrahedra h
  negative := by
    intro tet nodes hn hreal
    obtain ⟨hull, hclosed⟩ := exists_closedBy h
    have hlt := (hclosed.isGhost_eq_false_iff (Built.closed h).point?_ghost hn).1 hreal
    have hinput : Orient3d.ExactOn vertices := vertices_of_ofTetrahedra h ▸ hexact
    obtain ⟨q, p, hq, hp, hside⟩ :=
      negative_of_ofTetrahedra h hinput (List.getElem?_eq_getElem hlt)
    obtain rfl := Option.some_inj.1 (hq.symm.trans hn)
    have hplaced := (hulled_of_ofTetrahedra h).placed hn hreal
    rw [tetPoints?_eq_some_iff] at hp
    have hcorners : m.trianglePoints? ⟨q.s1, q.s2, q.s3⟩ = some ⟨p.s1, p.s2, p.s3⟩ :=
      trianglePoints?_eq_some_iff.2 ⟨hp 1, hp 2, hp 3⟩
    have hexactSide := orientation_of_position hexact (hp 0) hcorners fun w hw => (hplaced w hw).2
    exact Orientation.ofSign_eq_negative_iff.1 (hexactSide.symm.trans hside)

/-- Behind the triangle of a ghost that is not at infinity stands a real tetrahedron. -/
theorem Built.real_behind_ghost [Orient3d] {edits : List MeshEdit} (h : Built edits m) {tet : Nat}
    {nodes : Quad Vertex} (hn : m.nodes[tet]? = some nodes) (hghost : nodes.isGhost = true) :
    ∃ theirs, m.nodes[(m.twin ⟨tet, 3⟩).tet]? = some theirs ∧ theirs.isGhost = false := by
  induction h generalizing nodes with
  | @closed vertices tets m hm =>
    obtain ⟨hull, hclosed⟩ := exists_closedBy hm
    have hinfinity := (Built.closed hm).point?_ghost
    obtain ⟨i, k, rfl, hi⟩ :=
      hclosed.exists_hull (lt_size_of_nodes hn) ((hclosed.isGhost_iff hinfinity hn).1 hghost)
    obtain ⟨htwin, -⟩ := hclosed.ghost hi
    have hlt := (hclosed.mem_hull.1 (List.mem_of_getElem? hi)).1
    obtain ⟨q, hq, -⟩ := hclosed.real (List.getElem?_eq_getElem hlt)
    rw [twin, htwin, Option.getD_some]
    exact ⟨q, hq, (hclosed.isGhost_eq_false_iff hinfinity hq).2 hlt⟩
  | @edited edits m m' edit hbuilt hedit ih =>
    have hshape := sameShape_of_edit hbuilt.sound.toInRange hedit
    rw [hshape.nodes] at hn ⊢
    rw [hshape.twin_eq]
    exact ih hn hghost

/-- An edit keeps the positions that there are. -/
theorem point?_of_edit (hm : m.Linked) {edit : MeshEdit} (h : m.edit edit = .ok m') {v : Vertex}
    {p : Point} (hp : m.point? v = some p) : m'.point? v = some p := by
  rcases vertices_of_edit hm h with heq | ⟨q, -, -, heq⟩
  · rwa [point?, heq]
  · have hlt := (Array.getElem?_eq_some_iff.1 hp).1
    rw [point?, heq, Array.getElem?_push_lt hlt]
    exact (Array.getElem?_eq_getElem hlt).symm.trans hp

theorem position?_of_edit (hm : m.Linked) {edit : MeshEdit} (h : m.edit edit = .ok m') {v : Vertex}
    {p : Position} (hp : m.position? v = some p) : m'.position? v = some p := by
  obtain ⟨a, ha, hp⟩ := Option.bind_eq_some_iff.1 hp
  exact position?_eq (point?_of_edit hm h ha) hp

theorem mem_vertices_of_edit (hm : m.Linked) {edit : MeshEdit} (h : m.edit edit = .ok m') :
    ∀ a ∈ m.vertices, a ∈ m'.vertices := by
  intro a ha
  rcases vertices_of_edit hm h with heq | ⟨q, -, -, heq⟩
  · rwa [heq]
  · rw [heq]
    exact Array.mem_push_of_mem q ha

/-- Only finite points are added to finite ones. -/
theorem finite_of_edit (hm : m.Linked) {edit : MeshEdit} (h : m.edit edit = .ok m')
    (hfinite : ∀ a ∈ m.vertices, a.Finite) : ∀ a ∈ m'.vertices, a.Finite := by
  rcases vertices_of_edit hm h with heq | ⟨q, hq, -, heq⟩
  · rwa [heq]
  · intro a ha
    rw [heq, Array.mem_push] at ha
    rcases ha with ha | rfl
    exacts [hfinite a ha, Point.check_eq_ok hq]

theorem hulled_of_edit (hm : m.Linked) (h : m.Hulled) {edit : MeshEdit}
    (hedit : m.edit edit = .ok m') : m'.Hulled := by
  have hshape := sameShape_of_edit hm.toInRange hedit
  constructor
  · intro tet nodes hn hreal v hv
    rw [hshape.nodes] at hn
    obtain ⟨hne, p, hp⟩ := h.placed hn hreal v hv
    exact ⟨hne, p, position?_of_edit hm hedit hp⟩
  · intro tet nodes hn hghost
    rw [hshape.nodes] at hn
    rw [hshape.twin_eq, hshape.triangle?_eq]
    exact h.ghost hn hghost

theorem oriented_of_edit (hm : m.Linked) (h : m.Oriented) {edit : MeshEdit}
    (hedit : m.edit edit = .ok m') : m'.Oriented where
  toHulled := hulled_of_edit hm h.toHulled hedit
  negative := by
    intro tet nodes hn hreal
    rw [(sameShape_of_edit hm.toInRange hedit).nodes] at hn
    have hpos : ∀ v ∈ nodes.toList, m'.pos v = m.pos v := fun v hv => by
      obtain ⟨-, p, hp⟩ := h.placed hn hreal v hv
      rw [pos_eq hp, pos_eq (position?_of_edit hm hedit hp)]
    have hmap : nodes.map m'.pos = nodes.map m.pos := by
      simp only [Quad.toList, List.forall_mem_cons] at hpos
      simp only [Quad.map, hpos]
    rw [hmap]
    exact h.negative hn hreal

namespace Built

variable [Orient3d] {edits : List MeshEdit}

theorem hulled (h : Built edits m) : m.Hulled := by
  induction h with
  | closed hm => exact hulled_of_ofTetrahedra hm
  | edited hbuilt hedit ih => exact hulled_of_edit hbuilt.sound.toLinked ih hedit

/-- A mesh has finite vertices only. -/
theorem finite (h : Built edits m) : ∀ a ∈ m.vertices, a.Finite := by
  induction h with
  | closed hm =>
    rw [vertices_of_ofTetrahedra hm]
    exact finite_of_ofTetrahedra hm
  | edited hbuilt hedit ih => exact finite_of_edit hbuilt.sound.toLinked hedit ih

theorem faithful (h : Built edits m) (hexact : Orient3d.ExactOn m.vertices) :
    Orient3d.Faithful m.vertices :=
  hexact.faithful h.finite

theorem oriented (h : Built edits m) (hexact : Orient3d.ExactOn m.vertices) : m.Oriented := by
  induction h with
  | closed hm => exact oriented_of_ofTetrahedra hm hexact
  | edited hbuilt hedit ih =>
    have hm := hbuilt.sound.toLinked
    exact oriented_of_edit hm (ih (hexact.mono (mem_vertices_of_edit hm hedit))) hedit

end Built

namespace Hulled

theorem exists_point (h : m.Hulled) {tet : Nat} {nodes : Quad Vertex}
    (hn : m.nodes[tet]? = some nodes) (hreal : nodes.isGhost = false) (i : Slot) :
    ∃ a, m.point? (nodes.get i) = some a := by
  obtain ⟨-, p, hp⟩ := h.placed hn hreal _ (Quad.mem_toList.2 ⟨i, rfl⟩)
  obtain ⟨a, ha, -⟩ := Option.bind_eq_some_iff.1 hp
  exact ⟨a, ha⟩

theorem exists_trianglePoints (h : m.Hulled) {tet : Nat} {nodes : Quad Vertex}
    (hn : m.nodes[tet]? = some nodes) (hreal : nodes.isGhost = false) (f : Facet) :
    ∃ t, m.trianglePoints? (nodes.triangle f) = some t := by
  obtain ⟨a, ha⟩ := h.exists_point hn hreal f.slots.c0
  obtain ⟨b, hb⟩ := h.exists_point hn hreal f.slots.c1
  obtain ⟨c, hc⟩ := h.exists_point hn hreal f.slots.c2
  exact ⟨⟨a, b, c⟩, trianglePoints?_eq_some_iff.2 ⟨ha, hb, hc⟩⟩

/-- The corners of a facet of a real tetrahedron and any corner of another have exact positions. -/
theorem exists_position (h : m.Hulled) {tet neighbor : Nat} {mine theirs : Quad Vertex}
    (hmine : m.nodes[tet]? = some mine) (htheirs : m.nodes[neighbor]? = some theirs)
    (hreal : mine.isGhost = false) (hreal' : theirs.isGhost = false) {f : Facet} {i : Slot} :
    ∀ w ∈ theirs.get i :: (mine.triangle f).toList, ∃ p, m.position? w = some p := by
  refine List.forall_mem_cons.2 ⟨?_, fun w hw => ?_⟩
  · exact (h.placed htheirs hreal' _ (Quad.mem_toList.2 ⟨i, rfl⟩)).2
  · obtain ⟨j, -, rfl⟩ := Quad.mem_triangle.1 hw
    exact (h.placed hmine hreal _ (Quad.mem_toList.2 ⟨j, rfl⟩)).2

/-- A mesh in which real neighbors lie on opposite sides of their common triangle is accepted. -/
theorem validate_eq_ok [Orient3d] (h : m.Hulled) (hm : m.Linked)
    (hexact : Orient3d.ExactOn m.vertices)
    (hsides : ∀ {here : HalfFace} {mine theirs : Quad Vertex}, m.nodes[here.tet]? = some mine →
      m.nodes[(m.twin here).tet]? = some theirs → mine.isGhost = false → theirs.isGhost = false →
      detFrom (m.pos (theirs.get (m.twin here).facet)) ((mine.triangle here.facet).map m.pos) < 0) :
    m.validate = .ok () := by
  refine hm.validate_eq_ok_iff.2 fun here hlt => ?_
  obtain ⟨mine, hmine⟩ := exists_nodes hlt
  obtain ⟨theirs, htheirs⟩ := exists_nodes (hm.twin_lt hlt)
  unfold checkSides
  rw [hmine, htheirs, found_some, found_some, ok_bind, ok_bind]
  split
  · rfl
  · rename_i hghost
    simp only [Bool.or_eq_true, not_or, Bool.not_eq_true] at hghost
    obtain ⟨hreal, hreal'⟩ := hghost
    obtain ⟨t, ht⟩ := h.exists_trianglePoints hmine hreal here.facet
    obtain ⟨apex, hapex⟩ := h.exists_point htheirs hreal' (m.twin here).facet
    rw [ht, hapex]
    have hside := orientation_of_position hexact hapex ht
      (h.exists_position hmine htheirs hreal hreal')
    exact require_eq_ok_iff.2 (hside.trans
      (Orientation.ofSign_eq_negative_iff.2 (hsides hmine htheirs hreal hreal')))

/-- An edit changes nothing that decides on which sides neighbors lie. -/
theorem checkSides_of_edit [Orient3d] (h : m.Hulled) (hm : m.Linked) {edit : MeshEdit}
    (hedit : m.edit edit = .ok m') {here there : HalfFace} (hhere : here.tet < m.size)
    (hthere : there.tet < m.size) : m'.checkSides here there = m.checkSides here there := by
  obtain ⟨mine, hmine⟩ := exists_nodes hhere
  obtain ⟨theirs, htheirs⟩ := exists_nodes hthere
  unfold checkSides
  rw [(sameShape_of_edit hm.toInRange hedit).nodes, hmine, htheirs, found_some, found_some, ok_bind,
    ok_bind, ok_bind, ok_bind]
  by_cases hghost : (mine.isGhost || theirs.isGhost) = true
  · rw [if_pos hghost, if_pos hghost]
  · rw [if_neg hghost, if_neg hghost]
    simp only [Bool.or_eq_true, not_or, Bool.not_eq_true] at hghost
    obtain ⟨t, ht⟩ := h.exists_trianglePoints hmine hghost.1 here.facet
    obtain ⟨apex, hapex⟩ := h.exists_point htheirs hghost.2 there.facet
    have ht' : m'.trianglePoints? (mine.triangle here.facet) = some t := by
      obtain ⟨h0, h1, h2⟩ := trianglePoints?_eq_some_iff.1 ht
      exact trianglePoints?_eq_some_iff.2 ⟨point?_of_edit hm hedit h0, point?_of_edit hm hedit h1,
        point?_of_edit hm hedit h2⟩
    rw [ht, hapex, ht', point?_of_edit hm hedit hapex]

end Hulled

/-- An edit changes nothing about whether a mesh is accepted. -/
theorem Built.validate_edit_iff [Orient3d] {edits : List MeshEdit} (h : Built edits m)
    {edit : MeshEdit} (hedit : m.edit edit = .ok m') :
    m'.validate = .ok () ↔ m.validate = .ok () := by
  have hm := h.sound.toLinked
  have hshape := sameShape_of_edit hm.toInRange hedit
  rw [(hshape.linked hm).validate_eq_ok_iff, hm.validate_eq_ok_iff]
  refine forall_congr' fun here => ?_
  rw [hshape.size_eq, hshape.twin_eq]
  refine forall_congr' fun hlt => ?_
  rw [h.hulled.checkSides_of_edit hm hedit hlt (hm.twin_lt hlt)]

/-! ## Twins -/

namespace Hulled

/-- From a real tetrahedron a ghost is entered by its facet on the hull: the other facets have the
vertex at infinity, and the real tetrahedron has not. -/
theorem facet_of_ghost (h : m.Hulled) (hm : m.Linked) {here : HalfFace}
    {mine theirs : Quad Vertex} (hmine : m.nodes[here.tet]? = some mine)
    (htheirs : m.nodes[(m.twin here).tet]? = some theirs) (hreal : mine.isGhost = false)
    (hghost : theirs.isGhost = true) : (m.twin here).facet = 3 := by
  by_contra hne
  have hmem : Vertex.ghost ∈ (theirs.triangle (m.twin here).facet).toList :=
    Quad.mem_triangle.2 ⟨3, Ne.symm hne, Quad.isGhost_iff.1 hghost⟩
  obtain ⟨i, -, hi⟩ := Quad.mem_triangle.1 ((hm.mem_triangle_twin hmine htheirs).1 hmem)
  exact (h.placed hmine hreal _ (Quad.mem_toList.2 ⟨i, hi⟩)).1 rfl

/-- Behind a real tetrahedron a ghost is met by the facet that turns the hull triangle around. -/
theorem opposite_of_ghost (h : m.Hulled) (hm : m.Linked) {here : HalfFace}
    {mine theirs : Quad Vertex} (hmine : m.nodes[here.tet]? = some mine)
    (htheirs : m.nodes[(m.twin here).tet]? = some theirs) (hreal : mine.isGhost = false)
    (hghost : theirs.isGhost = true) :
    (mine.triangle here.facet).Opposite (theirs.triangle (m.twin here).facet) := by
  have hfacet := h.facet_of_ghost hm hmine htheirs hreal hghost
  obtain ⟨t, ht, rfl⟩ := h.ghost htheirs hghost
  have hback : m.twin ⟨(m.twin here).tet, 3⟩ = here := by
    rw [← hfacet]
    exact hm.twin_twin here
  rw [hback, triangle?_eq hmine] at ht
  obtain rfl := Option.some_inj.1 ht
  rw [hfacet]
  exact .inr (.inl rfl)

end Hulled

/-- In an accepted mesh real neighbors pass the corners of their triangle in opposite directions:
if they did not, the far corner of one would be seen before the triangle. -/
theorem Oriented.opposite_of_real [Orient3d] (h : m.Oriented) (hm : m.Linked)
    (hexact : Orient3d.ExactOn m.vertices) (hvalid : m.validate = .ok ())
    {here : HalfFace} {mine theirs : Quad Vertex} (hmine : m.nodes[here.tet]? = some mine)
    (htheirs : m.nodes[(m.twin here).tet]? = some theirs) (hreal : mine.isGhost = false)
    (hreal' : theirs.isGhost = false) :
    (mine.triangle here.facet).Opposite (theirs.triangle (m.twin here).facet) := by
  have hsame := hm.sorted_twin here
  rw [triangle?_eq hmine, triangle?_eq htheirs, Option.map_some, Option.map_some, Option.some_inj,
    Triple.sorted_eq_sorted_iff] at hsame
  refine (Triple.turned_or_opposite hsame.symm).resolve_left fun hturned => ?_
  obtain ⟨t, ht⟩ := h.exists_trianglePoints hmine hreal here.facet
  obtain ⟨apex, hapex⟩ := h.exists_point htheirs hreal' (m.twin here).facet
  have hplaced : ∀ w ∈ theirs.get (m.twin here).facet :: (mine.triangle here.facet).toList,
      ∃ p, m.position? w = some p := h.exists_position hmine htheirs hreal hreal'
  have hbehind := hm.negative_of_validate hvalid hmine htheirs hreal hreal' ht hapex
  rw [orientation_of_position hexact hapex ht hplaced,
    Orientation.ofSign_eq_negative_iff] at hbehind
  have hbefore := det_facet (theirs.map m.pos) (m.twin here).facet
  rw [Quad.get_map, ← Quad.map_triangle, detFrom_turned (hturned.map m.pos)] at hbefore
  have := h.negative htheirs hreal'
  linarith

/-- In an accepted mesh the twin of a half-face of a real tetrahedron passes its corners in the
opposite direction. -/
theorem Built.opposite_twin [Orient3d] {edits : List MeshEdit} (hbuilt : Built edits m)
    (hexact : Orient3d.ExactOn m.vertices) (hvalid : m.validate = .ok ()) {here : HalfFace}
    {mine theirs : Quad Vertex} (hmine : m.nodes[here.tet]? = some mine)
    (htheirs : m.nodes[(m.twin here).tet]? = some theirs) (hreal : mine.isGhost = false) :
    (mine.triangle here.facet).Opposite (theirs.triangle (m.twin here).facet) := by
  have hm := hbuilt.sound.toLinked
  cases hghost : theirs.isGhost with
  | true => exact hbuilt.hulled.opposite_of_ghost hm hmine htheirs hreal hghost
  | false =>
    exact (hbuilt.oriented hexact).opposite_of_real hm hexact hvalid hmine htheirs hreal hghost

/-- The corners of a ghost besides the one at infinity are those of a real tetrahedron. -/
theorem Built.exists_point_of_ne [Orient3d] {edits : List MeshEdit} (hbuilt : Built edits m)
    {tet : Nat} {nodes : Quad Vertex} (hn : m.nodes[tet]? = some nodes) {v : Vertex}
    (hv : v ∈ nodes.toList) (hne : v ≠ Vertex.ghost) : ∃ a, m.point? v = some a := by
  have hreal : ∀ {u : Nat} {q : Quad Vertex}, m.nodes[u]? = some q → q.isGhost = false →
      v ∈ q.toList → ∃ a, m.point? v = some a := by
    intro u q hq hreal hv
    obtain ⟨i, rfl⟩ := Quad.mem_toList.1 hv
    exact hbuilt.hulled.exists_point hq hreal i
  cases hghost : nodes.isGhost with
  | false => exact hreal hn hghost hv
  | true =>
    obtain ⟨t, ht, rfl⟩ := hbuilt.hulled.ghost hn hghost
    obtain ⟨theirs, htheirs, hreal'⟩ := hbuilt.real_behind_ghost hn hghost
    rw [triangle?_eq htheirs, Option.some_inj] at ht
    have hmem : v ∈ t.toList := by
      simp only [Quad.toList, ghostNodes, List.mem_cons, List.not_mem_nil, or_false] at hv
      simp only [Triple.toList, List.mem_cons, List.not_mem_nil, or_false]
      tauto
    rw [← ht] at hmem
    obtain ⟨i, -, hi⟩ := Quad.mem_triangle.1 hmem
    exact hreal htheirs hreal' (Quad.mem_toList.2 ⟨i, hi⟩)

/-- A facet that does not reach the vertex at infinity has a real tetrahedron on one side. -/
theorem Built.real_or_real [Orient3d] {edits : List MeshEdit} (hbuilt : Built edits m)
    {here : HalfFace} {mine theirs : Quad Vertex} (hmine : m.nodes[here.tet]? = some mine)
    (htheirs : m.nodes[(m.twin here).tet]? = some theirs)
    (hfinite : Vertex.ghost ∉ (mine.triangle here.facet).toList) :
    mine.isGhost = false ∨ theirs.isGhost = false := by
  cases hghost : mine.isGhost with
  | false => exact .inl rfl
  | true =>
    have hfacet : here.facet = 3 := by
      by_contra hne
      exact hfinite (Quad.mem_triangle.2 ⟨3, Ne.symm hne, Quad.isGhost_iff.1 hghost⟩)
    obtain ⟨q, hq, hreal⟩ := hbuilt.real_behind_ghost hmine hghost
    rw [← hfacet] at hq
    obtain rfl := Option.some_inj.1 (hq.symm.trans htheirs)
    exact .inr hreal

/-- In an accepted mesh the two sides of a facet that does not reach the vertex at infinity have
positions and pass them in opposite directions. -/
theorem Built.exists_opposite_sides [Orient3d] {edits : List MeshEdit} (hbuilt : Built edits m)
    (hexact : Orient3d.ExactOn m.vertices) (hvalid : m.validate = .ok ()) {here : HalfFace}
    {mine theirs : Quad Vertex} (hmine : m.nodes[here.tet]? = some mine)
    (htheirs : m.nodes[(m.twin here).tet]? = some theirs)
    (hfinite : Vertex.ghost ∉ (mine.triangle here.facet).toList) :
    ∃ t u, m.trianglePoints? (mine.triangle here.facet) = some t ∧
      m.trianglePoints? (theirs.triangle (m.twin here).facet) = some u ∧ t.Opposite u := by
  rcases hbuilt.real_or_real hmine htheirs hfinite with hreal | hreal
  · obtain ⟨t, ht⟩ := hbuilt.hulled.exists_trianglePoints hmine hreal here.facet
    have hopposite := hbuilt.opposite_twin hexact hvalid hmine htheirs hreal
    obtain ⟨u, hu, hpoints⟩ := exists_opposite_points hopposite ht
    exact ⟨t, u, ht, hu, hpoints⟩
  · obtain ⟨u, hu⟩ := hbuilt.hulled.exists_trianglePoints htheirs hreal (m.twin here).facet
    have htwin : m.twin (m.twin here) = here := hbuilt.sound.twin_twin here
    have hopposite := hbuilt.opposite_twin hexact hvalid htheirs (htwin.symm ▸ hmine) hreal
    rw [htwin] at hopposite
    obtain ⟨t, ht, hpoints⟩ := exists_opposite_points hopposite hu
    exact ⟨t, u, ht, hu, hpoints.symm⟩

end Mesh

end CavityRepair
