import Mathlib.Algebra.BigOperators.Group.Finset.Basic
import CavityRepair.Proofs.Cavity.Runs
import CavityRepair.Proofs.Mesh.Facing
/-!
# The volume of a cavity

Each tetrahedron that is put between a point and a face of the ball has a signed volume. Together
they have that of the deleted tetrahedra, wherever the point is, if the signs of the test are exact
(`Site.sum_faceDets`). For any quantity that a half-face has with the opposite sign of its twin,
what the faces have is what the half-faces of the deleted tetrahedra have with the opposite sign:
behind a facet that does not bound the cavity, the two sides cancel (`Site.Consistent.sum_outers`).
-/
namespace CavityRepair

namespace Mesh

/-- The determinant of a position and the corners of a face, in the order in which they are
stored. -/
def faceDet? (m : Mesh) (p : Position) (face : BallFace) : Option Rat := do
  let a ← m.position? face.corners.c0
  let b ← m.position? face.corners.c1
  let c ← m.position? face.corners.c2
  return det p a b c

/-- The determinant of the corners of a tetrahedron, in the order in which they are stored. -/
def tetDet? (m : Mesh) (tet : Nat) : Option Rat := do
  let nodes ← m.nodes[tet]?
  let a ← m.position? nodes.s0
  let b ← m.position? nodes.s1
  let c ← m.position? nodes.s2
  let d ← m.position? nodes.s3
  return det a b c d

variable {m : Mesh}

theorem faceDet?_eq {face : BallFace} (h : ∀ v ∈ face.corners.toList, ∃ q, m.position? v = some q)
    (p : Position) : m.faceDet? p face = some (detFrom p (face.corners.map m.pos)) := by
  simp only [Triple.toList, List.forall_mem_cons] at h
  obtain ⟨⟨a, ha⟩, ⟨b, hb⟩, ⟨c, hc⟩, -⟩ := h
  simp [faceDet?, detFrom, Triple.map, pos, ha, hb, hc]

theorem tetDet?_eq {tet : Nat} {nodes : Quad Vertex} (hn : m.nodes[tet]? = some nodes)
    (h : ∀ v ∈ nodes.toList, ∃ q, m.position? v = some q) :
    m.tetDet? tet = some (detOf (nodes.map m.pos)) := by
  simp only [Quad.toList, List.forall_mem_cons] at h
  obtain ⟨⟨a, ha⟩, ⟨b, hb⟩, ⟨c, hc⟩, ⟨d, hd⟩, -⟩ := h
  simp [tetDet?, detOf, Quad.map, pos, hn, ha, hb, hc, hd]

/-! ## Half-faces -/

/-- The positions of the corners of a tetrahedron, where it has them. -/
def cornersAt (m : Mesh) (tet : Nat) : Quad Position :=
  (m.nodes[tet]?.getD (Quad.replicate Vertex.ghost)).map m.pos

/-- The determinant of a position and the corners of a half-face, as its tetrahedron sees them. -/
def sideDet (m : Mesh) (p : Position) (h : HalfFace) : Rat :=
  detFrom p ((m.cornersAt h.tet).triangle h.facet)

theorem cornersAt_eq {tet : Nat} {nodes : Quad Vertex} (hn : m.nodes[tet]? = some nodes) :
    m.cornersAt tet = nodes.map m.pos := by
  rw [cornersAt, hn, Option.getD_some]

theorem sideDet_eq {h : HalfFace} {t : Triple Vertex} (ht : m.triangle? h = some t)
    (p : Position) : m.sideDet p h = detFrom p (t.map m.pos) := by
  obtain ⟨nodes, hn, rfl⟩ := Option.map_eq_some_iff.1 ht
  rw [sideDet, cornersAt_eq hn, Quad.map_triangle]

theorem sum_sideDet (m : Mesh) (p : Position) (tets : List Nat) :
    ((tets.flatMap HalfFace.ofTet).map (m.sideDet p)).sum =
      -(tets.map fun tet => detOf (m.cornersAt tet)).sum := by
  induction tets with
  | nil => simp
  | cons tet rest ih =>
    have hfirst : ((HalfFace.ofTet tet).map (m.sideDet p)).sum = -detOf (m.cornersAt tet) := by
      rw [HalfFace.ofTet, List.map_map]
      exact sum_det_facets p (m.cornersAt tet)
    rw [List.flatMap_cons, List.map_append, List.sum_append, hfirst, ih, List.map_cons,
      List.sum_cons, neg_add]

/-- The two sides of a facet of a real tetrahedron have opposite determinants. -/
theorem Built.sideDet_twin [Orient3d] {edits : List MeshEdit} (hbuilt : Built edits m)
    (hexact : Orient3d.ExactOn m.vertices) (hvalid : m.validate = .ok ()) {here : HalfFace}
    (hreal : m.ghost? here.tet = some false)
    (p : Position) : m.sideDet p (m.twin here) = -m.sideDet p here := by
  obtain ⟨mine, hmine, hghost⟩ := Option.map_eq_some_iff.1 hreal
  obtain ⟨theirs, htheirs⟩ := exists_nodes (hbuilt.sound.twin_lt (lt_size_of_nodes hmine))
  have hopposite := hbuilt.opposite_twin hexact hvalid hmine htheirs hghost
  rw [sideDet_eq (triangle?_eq hmine), sideDet_eq (triangle?_eq htheirs)]
  exact detFrom_opposite (hopposite.map m.pos) p

end Mesh

namespace Site

variable {s : Site}

/-- A quantity that changes its sign between the two sides of each facet of the cavity has on the
ball the sum that it has on all half-faces of the deleted tetrahedra, with the sign changed. -/
theorem Consistent.sum_outers {G : Type} [AddCommGroup G] (h : s.Consistent) (hm : s.mesh.Sound)
    {w : HalfFace → G}
    (hw : ∀ inner, s.mesh.Deleted inner.tet → w (s.mesh.twin inner) = -w inner) :
    (s.cavity.outers.map w).sum = -((s.cavity.deleted.flatMap HalfFace.ofTet).map w).sum := by
  have hnodup := Mesh.nodup_flatMap_ofTet h.nodup
  have hinner : ∀ inner, inner ∈ (s.cavity.deleted.flatMap HalfFace.ofTet).toFinset ↔
      s.mesh.Deleted inner.tet := by
    intro inner
    rw [List.mem_toFinset, List.mem_flatMap, h.deleted_iff]
    simp only [HalfFace.mem_ofTet]
    exact ⟨fun ⟨tet, ht, he⟩ => he ▸ ht, fun ht => ⟨_, ht, rfl⟩⟩
  rw [← List.sum_toFinset w h.outers_nodup, ← List.sum_toFinset w hnodup]
  generalize (s.cavity.deleted.flatMap HalfFace.ofTet).toFinset = inners at hinner
  -- The ball has the twins of the half-faces that bound the cavity.
  have houter : ∑ outer ∈ s.cavity.outers.toFinset, w outer =
      ∑ inner ∈ inners.filter s.mesh.Bounds, w (s.mesh.twin inner) := by
    refine Finset.sum_nbij' s.mesh.twin s.mesh.twin ?_ ?_ ?_ ?_ ?_
    · intro outer ho
      rw [Finset.mem_filter, hinner]
      exact (h.mem_outers_iff hm.toLinked).1 (List.mem_toFinset.1 ho)
    · intro inner hi
      rw [Finset.mem_filter, hinner] at hi
      rw [List.mem_toFinset, h.mem_outers_iff hm.toLinked, hm.twin_twin]
      exact hi
    · exact fun outer _ => hm.twin_twin outer
    · exact fun inner _ => hm.twin_twin inner
    · intro outer _
      rw [hm.twin_twin]
  -- The others are twins of each other.
  have hcancel : ∑ inner ∈ inners.filter (¬s.mesh.Bounds ·), w inner = 0 := by
    have hboth : ∀ inner ∈ inners.filter (¬s.mesh.Bounds ·), s.mesh.Deleted inner.tet ∧
        s.mesh.Deleted (s.mesh.twin inner).tet ∧ ¬s.mesh.Constrained inner := by
      intro inner hi
      rw [Finset.mem_filter, hinner] at hi
      unfold Mesh.Bounds at hi
      rw [not_or, not_not] at hi
      exact hi
    refine Finset.sum_involution (fun inner _ => s.mesh.twin inner) ?_ ?_ ?_ ?_
    · intro inner hi
      rw [hw inner (hboth inner hi).1, add_neg_cancel]
    · intro inner hi _
      exact hm.twin_ne (hm.lt_size_of_deleted (hboth inner hi).1)
    · intro inner hi
      obtain ⟨hd, hd', hc⟩ := hboth inner hi
      rw [Finset.mem_filter, hinner, hm.carvable.bounds_twin_iff, not_or, not_not]
      exact ⟨hd', hd, hc⟩
    · exact fun inner _ => hm.twin_twin inner
  calc ∑ outer ∈ s.cavity.outers.toFinset, w outer
      = ∑ inner ∈ inners.filter s.mesh.Bounds, w (s.mesh.twin inner) := houter
    _ = ∑ inner ∈ inners.filter s.mesh.Bounds, -w inner := by
      refine Finset.sum_congr rfl fun inner hi => ?_
      rw [Finset.mem_filter, hinner] at hi
      exact hw inner hi.1
    _ = -∑ inner ∈ inners.filter s.mesh.Bounds, w inner := Finset.sum_neg_distrib _
    _ = -∑ inner ∈ inners, w inner := by
      rw [← Finset.sum_filter_add_sum_filter_not inners s.mesh.Bounds w, hcancel, add_zero]

/-- Where the face of a real deleted tetrahedron is looked at from outside, its corners have
positions. -/
theorem Consistent.placed_of_mem_ball (h : s.Consistent) (hm : s.mesh.Linked)
    (hhulled : s.mesh.Hulled) (hreal : ∀ tet ∈ s.cavity.deleted, s.mesh.ghost? tet = some false)
    {face : BallFace} (hface : face ∈ s.cavity.ball) :
    s.mesh.triangle? face.outer = some face.corners ∧
      ∀ v ∈ face.corners.toList, ∃ q, s.mesh.position? v = some q := by
  obtain ⟨-, hcorners, -⟩ := Mesh.ballFace?_eq_some_iff.1 (h.fresh face hface)
  refine ⟨hcorners, fun v hv => ?_⟩
  obtain ⟨hdeleted, -⟩ := (h.mem_outers_iff hm).1 (mem_outers_of_mem_ball hface)
  obtain ⟨mine, hmine, hghost⟩ :=
    Option.map_eq_some_iff.1 (hreal _ ((h.deleted_iff _).1 hdeleted))
  obtain ⟨theirs, htheirs, heq⟩ := Option.map_eq_some_iff.1 hcorners
  have htheirs' : s.mesh.nodes[(s.mesh.twin (s.mesh.twin face.outer)).tet]? = some theirs := by
    rw [hm.twin_twin, htheirs]
  rw [← heq] at hv
  have hv' := (hm.mem_triangle_twin hmine htheirs').1 (by rw [hm.twin_twin]; exact hv)
  obtain ⟨i, -, hi⟩ := Quad.mem_triangle.1 hv'
  exact (hhulled.placed hmine hghost v (Quad.mem_toList.2 ⟨i, hi⟩)).2

/-- Where the signs of the test are exact for the vertices, the faces of the ball, joined to any
position, have together the signed volume of the deleted tetrahedra, each of which is negative. -/
theorem sum_faceDets [Orient3d] {edits : List MeshEdit} (hbuilt : s.mesh.Built edits)
    (hexact : Orient3d.ExactOn s.mesh.vertices) (hvalid : s.mesh.validate = .ok ())
    (hs : s.Checked)
    (hreal : ∀ tet ∈ s.cavity.deleted, s.mesh.ghost? tet = some false) (p : Position) :
    ∃ faceDets tetDets, s.cavity.ball.mapM (s.mesh.faceDet? p) = some faceDets ∧
      s.cavity.deleted.mapM s.mesh.tetDet? = some tetDets ∧
      faceDets.sum = tetDets.sum ∧ ∀ d ∈ tetDets, d < 0 := by
  have hm := hbuilt.sound
  have h := hs.consistent hm.toLinked
  have hmesh := hbuilt.oriented hexact
  have hface : ∀ face ∈ s.cavity.ball,
      s.mesh.faceDet? p face = some (s.mesh.sideDet p face.outer) := by
    intro face hface
    obtain ⟨hcorners, hplaced⟩ := h.placed_of_mem_ball hm.toLinked hmesh.toHulled hreal hface
    rw [Mesh.faceDet?_eq hplaced, Mesh.sideDet_eq hcorners]
  have hnodes : ∀ tet ∈ s.cavity.deleted, ∃ nodes, s.mesh.nodes[tet]? = some nodes ∧
      nodes.isGhost = false := fun tet ht => Option.map_eq_some_iff.1 (hreal tet ht)
  have htet : ∀ tet ∈ s.cavity.deleted,
      s.mesh.tetDet? tet = some (detOf (s.mesh.cornersAt tet)) := by
    intro tet ht
    obtain ⟨nodes, hn, hghost⟩ := hnodes tet ht
    rw [Mesh.tetDet?_eq hn fun v hv => (hmesh.placed hn hghost v hv).2, Mesh.cornersAt_eq hn]
  refine ⟨_, _, mapM_eq_some_map hface, mapM_eq_some_map htet, ?_, ?_⟩
  · have houters := h.sum_outers hm (w := s.mesh.sideDet p) fun inner hd =>
      hbuilt.sideDet_twin hexact hvalid (hreal _ ((h.deleted_iff _).1 hd)) p
    rw [Cavity.outers, List.map_map, Mesh.sum_sideDet, neg_neg] at houters
    exact houters
  · intro d hd
    obtain ⟨tet, ht, rfl⟩ := List.mem_map.1 hd
    obtain ⟨nodes, hn, hghost⟩ := hnodes tet ht
    rw [Mesh.cornersAt_eq hn]
    exact hmesh.negative hn hghost

/-- Two tetrahedra of the chain have eight faces, as the facet between them is constrained. -/
theorem sum_faceDets_chain : ∃ (s : Site) (edits : List MeshEdit),
    prepare? chainCorners chainTets [.constrainFacet 1 2 3] [[0, 1]] = some s ∧
    s.mesh.Built edits ∧ Orient3d.ExactOn s.mesh.vertices ∧ s.mesh.validate = .ok () ∧ s.Checked ∧
    (∀ tet ∈ s.cavity.deleted, s.mesh.ghost? tet = some false) ∧ s.cavity.ball.length = 8 ∧
    ∃ faceDets tetDets, s.cavity.ball.mapM (s.mesh.faceDet? ⟨7, -5, 1 / 3⟩) = some faceDets ∧
      s.cavity.deleted.mapM s.mesh.tetDet? = some tetDets ∧
      faceDets.sum = tetDets.sum ∧ ∀ d ∈ tetDets, d < 0 := by
  obtain ⟨s, hs, hvalid, hreal, hball⟩ : ∃ s,
      prepare? chainCorners chainTets [.constrainFacet 1 2 3] [[0, 1]] = some s ∧
      s.mesh.validate = .ok () ∧
      (∀ tet ∈ s.cavity.deleted, s.mesh.ghost? tet = some false) ∧ s.cavity.ball.length = 8 :=
    exists_of_any? (by decide +kernel)
  obtain ⟨hchecked, more, hbuilt⟩ := prepare?_eq_some (by decide) hs
  have hexact := (Orient3d.faithful_exact s.mesh.vertices).exactOn
  exact ⟨s, _, hs, hbuilt, hexact, hvalid, hchecked, hreal, hball,
    sum_faceDets hbuilt hexact hvalid hchecked hreal ⟨7, -5, 1 / 3⟩⟩

end Site

end CavityRepair
