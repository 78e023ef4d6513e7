import Mathlib.Data.Sym.Sym2
import Mathlib.Data.Multiset.Defs
import CavityRepair.Proofs.Mesh.Edits
import CavityRepair.Proofs.Mesh.Hull
/-!
# What constraints stand for

Constraints are marks on tetrahedra, but what they stand for are pairs and triples of vertices: an
edge is marked in all tetrahedra in which its ends are one of the pairs, and a facet on all
half-faces that have one of the triples as their corners (`Mesh.Refines`). To constrain an edge or a
facet adds its vertices to them, and one that is not found marks nothing.

Edges are looked for in every tetrahedron. Facets are not: the first half-face with the right
corners is marked, and the second through the link to it. That is all because a triangle has two
sides and no more (`Mesh.TwoSided`).

* `Mesh.Refines.constrainEdge`, `Mesh.Refines.constrainFacet`: what a constraint adds.
* `Mesh.Refines.exists_ballFaces`: the boundary faces on the two sides of a facet have the
  constraints of the same pairs and the same triple, in whatever order they list the corners.
-/
namespace CavityRepair

/-! ## Ends of edges and sides of triangles -/

/-- The two vertices that an edge of a tetrahedron joins. -/
def Quad.ends (q : Quad Vertex) (e : Edge) : Sym2 Vertex := s(q.get e.slots.1, q.get e.slots.2)

/-- With different corners, two vertices are joined by the edge that has them as its ends. -/
theorem Quad.edgeBetween?_eq_some_iff {q : Quad Vertex} (hq : q.toList.Nodup) {a b : Vertex}
    {e : Edge} : q.edgeBetween? a b = some e ↔ q.ends e = s(a, b) := by
  rw [ends, Sym2.eq_iff]
  refine ⟨get_of_edgeBetween?, ?_⟩
  unfold edgeBetween?
  simp only [Option.bind_eq_bind, Option.bind_eq_some_iff]
  rintro (⟨rfl, rfl⟩ | ⟨rfl, rfl⟩)
  · exact ⟨_, slotOf?_get hq _, _, slotOf?_get hq _, e.ofSlots?_slots⟩
  · refine ⟨_, slotOf?_get hq _, _, slotOf?_get hq _, ?_⟩
    rw [Edge.ofSlots?_comm]
    exact e.ofSlots?_slots

namespace Triple

variable {α : Type} {t : Triple α}

theorem mem_toList {a : α} : a ∈ t.toList ↔ ∃ i, t.get i = a := by
  simp [toList, Fin.exists_fin_succ, get, eq_comm]

theorem get_inj (ht : t.toList.Nodup) {i j : Corner} : t.get i = t.get j ↔ i = j := by
  constructor
  · revert i j
    simp only [toList, List.nodup_cons, List.mem_cons, not_or] at ht
    simp only [Fin.forall_fin_succ, get]
    grind
  · intro h
    rw [h]

/-- The sides of a triangle join any two different corners. -/
theorem exists_side_iff (ht : t.toList.Nodup) {a b : α} :
    (∃ i j : Corner, i ≠ j ∧ t.get i = a ∧ t.get j = b) ↔
      a ≠ b ∧ a ∈ t.toList ∧ b ∈ t.toList := by
  rw [mem_toList, mem_toList]
  constructor
  · intro ⟨i, j, hne, hi, hj⟩
    refine ⟨fun heq => hne ?_, ⟨i, hi⟩, j, hj⟩
    rwa [← get_inj ht, hi, hj]
  · intro ⟨hne, ⟨i, hi⟩, j, hj⟩
    refine ⟨i, j, fun heq => hne ?_, hi, hj⟩
    rw [← hi, ← hj, heq]

end Triple

/-- The edge of a tetrahedron that lies opposite to a corner of a facet joins the other two
corners. -/
theorem Quad.ends_edges (q : Quad Vertex) (f : Facet) {c i j : Corner} (hi : i ≠ c) (hj : j ≠ c)
    (hij : i ≠ j) :
    q.ends (f.edges.get c) = s((q.triangle f).get i, (q.triangle f).get j) := by
  have hslots : ∀ (f : Facet) (c i j : Corner), i ≠ c → j ≠ c → i ≠ j →
      s((f.edges.get c).slots.1, (f.edges.get c).slots.2) = s(f.slots.get i, f.slots.get j) := by
    decide
  have hget : ∀ i, (q.triangle f).get i = q.get (f.slots.get i) := by
    simp [Fin.forall_fin_succ, triangle, Triple.map, Triple.get]
  rw [hget, hget, ends, ← Sym2.map_mk, ← Sym2.map_mk]
  exact congrArg (Sym2.map q.get) (hslots f c i j hi hj hij)

/-! ## Boundary faces -/

namespace BallFace

/-- The pairs of vertices at the constrained sides of a face. -/
def constrainedSides (face : BallFace) : Set (Sym2 Vertex) :=
  {z | ∃ c i j : Corner, i ≠ c ∧ j ≠ c ∧ i ≠ j ∧ s(face.corners.get i, face.corners.get j) = z ∧
    face.constraints.has (.side c) = true}

/-- The marks of a face say which of its sides are some of the pairs, and whether the face is one of
the triples. -/
structure Refines (face : BallFace) (pairs : Set (Sym2 Vertex)) (triples : Set (Multiset Vertex)) :
    Prop where
  side : ∀ {c i j : Corner}, i ≠ c → j ≠ c → i ≠ j →
    (face.constraints.has (.side c) = true ↔
      s(face.corners.get i, face.corners.get j) ∈ pairs)
  face : face.constraints.has .face = true ↔ (face.corners.toList : Multiset Vertex) ∈ triples

variable {face face' : BallFace} {pairs : Set (Sym2 Vertex)} {triples : Set (Multiset Vertex)}

theorem Refines.mem_constrainedSides_iff (h : face.Refines pairs triples)
    (hnodup : face.corners.toList.Nodup) {a b : Vertex} :
    s(a, b) ∈ face.constrainedSides ↔
      (a ≠ b ∧ a ∈ face.corners.toList ∧ b ∈ face.corners.toList) ∧ s(a, b) ∈ pairs := by
  rw [← Triple.exists_side_iff hnodup]
  constructor
  · intro ⟨c, i, j, hi, hj, hij, heq, hmark⟩
    rw [h.side hi hj hij, heq] at hmark
    rcases Sym2.eq_iff.1 heq with ⟨ha, hb⟩ | ⟨hb, ha⟩
    · exact ⟨⟨i, j, hij, ha, hb⟩, hmark⟩
    · exact ⟨⟨j, i, hij.symm, ha, hb⟩, hmark⟩
  · intro ⟨⟨i, j, hij, ha, hb⟩, hpair⟩
    have hthird : ∀ i j : Corner, ∃ c, i ≠ c ∧ j ≠ c := by decide
    obtain ⟨c, hi, hj⟩ := hthird i j
    refine ⟨c, i, j, hi, hj, hij, by rw [ha, hb], (h.side hi hj hij).2 ?_⟩
    rwa [ha, hb]

/-- Two faces with the same corners have the constraints of the same pairs and the same triple. -/
theorem Refines.same (h : face.Refines pairs triples) (h' : face'.Refines pairs triples)
    (hnodup : face.corners.toList.Nodup) (hperm : face.corners.toList.Perm face'.corners.toList) :
    face'.constrainedSides = face.constrainedSides ∧
      face'.constraints.has .face = face.constraints.has .face := by
  constructor
  · ext z
    induction z with
    | h a b =>
      rw [h.mem_constrainedSides_iff hnodup,
        h'.mem_constrainedSides_iff (hperm.nodup_iff.1 hnodup), hperm.mem_iff, hperm.mem_iff]
  · rw [Bool.eq_iff_iff, h.face, h'.face, Multiset.coe_eq_coe.2 hperm]

end BallFace

namespace Mesh

/-- The constraints of a mesh stand for some pairs and triples of vertices. -/
structure Refines (m : Mesh) (pairs : Set (Sym2 Vertex)) (triples : Set (Multiset Vertex)) :
    Prop where
  edge : ∀ {tet : Nat} {nodes : Quad Vertex}, m.nodes[tet]? = some nodes → ∀ e : Edge,
    m.marked? tet (.edge e) = some true ↔ nodes.ends e ∈ pairs
  facet : ∀ {h : HalfFace} {t : Triple Vertex}, m.triangle? h = some t →
    (m.Constrained h ↔ (t.toList : Multiset Vertex) ∈ triples)

variable {m m' : Mesh} {pairs : Set (Sym2 Vertex)} {triples : Set (Multiset Vertex)}
  {a b c : Vertex}

/-- A mesh that was just built has no constraints. -/
theorem refines_of_ofTetrahedra [Orient3d] {vertices : Array Point} {tets : List (Quad Vertex)}
    (h : ofTetrahedra vertices tets = .ok m) : m.Refines ∅ ∅ where
  edge _ _ := iff_of_false (marked?_of_ofTetrahedra h _ _) (Set.notMem_empty _)
  facet _ := iff_of_false (marked?_of_ofTetrahedra h _ _) (Set.notMem_empty _)

theorem SameForm.refines (h : m.SameForm m') (hr : m.Refines pairs triples) :
    m'.Refines pairs triples where
  edge hn e := by
    rw [h.nodes] at hn
    rw [h.marked? _ _ (by simp)]
    exact hr.edge hn e
  facet ht := by
    rw [h.triangle?_eq] at ht
    rw [h.constrained_iff]
    exact hr.facet ht

namespace Refines

/-- To constrain an edge adds the pair of its ends. -/
theorem constrainEdge (hr : m.Refines pairs triples) (hm : m.Closed)
    (h : m.edit (.constrainEdge a b) = .ok m') : m'.Refines (insert s(a, b) pairs) triples := by
  obtain ⟨⟨marked, count⟩, hconstrain, h⟩ := bind_eq_ok_iff.1 h
  cases h
  obtain ⟨-, hmarks⟩ := constrainEdge_eq_ok hconstrain
  constructor
  · intro tet nodes hn e
    rw [hmarks.nodes] at hn
    have hlt := lt_size_of_nodes hn
    rw [hmarks.marked_iff hm.toLinked hlt, hr.edge hn, Set.mem_insert_iff, or_comm,
      ← Quad.edgeBetween?_eq_some_iff (hm.nodup hn), List.mem_map]
    refine or_congr_left ⟨?_, fun hedge => ?_⟩
    · rintro ⟨⟨tet', edge'⟩, hholder, heq⟩
      cases heq
      obtain ⟨-, nodes', hn', hedge⟩ := mem_edgeHolders.1 hholder
      obtain rfl := Option.some_inj.1 (hn.symm.trans hn')
      exact hedge
    · exact ⟨(tet, e), mem_edgeHolders.2 ⟨List.mem_range.2 hlt, nodes, hn, hedge⟩, rfl⟩
  · intro k t ht
    rw [hmarks.triangle?_eq] at ht
    rw [hmarks.constrained_iff hm.toLinked (lt_size_of_triangle? ht), hr.facet ht]
    exact or_iff_left (by simp)

/-- To constrain a facet adds the triple of its corners: the half-face that is found and its twin
are all that have it. -/
theorem constrainFacet (hr : m.Refines pairs triples) (hm : m.TwoSided)
    (h : m.edit (.constrainFacet a b c) = .ok m') :
    m'.Refines pairs (insert {a, b, c} triples) := by
  obtain ⟨here, hfound, hmarks⟩ := constrainFacet_eq_ok hm.toInRange h
  obtain ⟨hlt, hhere⟩ := facetHolder?_eq_some hfound
  constructor
  · intro tet nodes hn e
    rw [hmarks.nodes] at hn
    rw [hmarks.marked_iff hm.toLinked (lt_size_of_nodes hn), hr.edge hn]
    exact or_iff_left (by simp)
  · intro k t ht
    rw [hmarks.triangle?_eq] at ht
    have hk := lt_size_of_triangle? ht
    have hside : (k = here ∨ k = m.twin here) ↔ (t.toList : Multiset Vertex) = {a, b, c} := by
      have hsame : (m.triangle? k).map Triple.sorted = some (Triple.sorted ⟨a, b, c⟩) ↔
          (t.toList : Multiset Vertex) = {a, b, c} := by
        rw [ht, Option.map_some, Option.some_inj, Triple.sorted_eq_sorted_iff]
        exact Multiset.coe_eq_coe.symm
      rw [← hsame]
      refine ⟨?_, fun h => hm.eq_or_eq_twin hlt hk (h.trans hhere.symm)⟩
      rintro (rfl | rfl)
      · exact hhere
      · exact (hm.sorted_twin here).trans hhere
    rw [hmarks.constrained_iff hm.toLinked hk, hr.facet ht, mem_facetMarks, hside,
      Set.mem_insert_iff, or_comm]

/-- A boundary face has the constraints of its own corners. -/
theorem ballFace (hr : m.Refines pairs triples) {k : HalfFace} {face : BallFace}
    (h : m.ballFace? k = some face) : face.Refines pairs triples := by
  obtain ⟨-, hcorners, flags, hflags, hmarks⟩ := ballFace?_eq_some_iff.1 h
  obtain ⟨nodes, hn, htriangle⟩ := Option.map_eq_some_iff.1 hcorners
  have hmarked : ∀ mark : FaceMark, face.constraints.has mark = true ↔
      m.marked? k.tet (mark.onTet k.facet) = some true := by
    intro mark
    rw [hmarks, FaceFlags.has_ofTet, marked?, hflags, Option.map_some, Option.some_inj]
  constructor
  · intro c i j hi hj hij
    rw [hmarked, ← htriangle, ← Quad.ends_edges nodes k.facet hi hj hij]
    exact hr.edge hn _
  · rw [hmarked]
    exact hr.facet hcorners

/-- The boundary faces on the two sides of a facet have the same constraints. -/
theorem exists_ballFaces (hr : m.Refines pairs triples) (hm : m.Closed) {k : HalfFace}
    (hk : k.tet < m.size) : ∃ across here there, m.twin? k = some across ∧
      m.ballFace? k = some here ∧ m.ballFace? across = some there ∧
      here.Refines pairs triples ∧ there.Refines pairs triples ∧
      here.corners.toList.Perm there.corners.toList ∧
      there.constrainedSides = here.constrainedSides ∧
      there.constraints.has .face = here.constraints.has .face := by
  obtain ⟨here, hhere, -⟩ := hm.exists_ballFace hk
  obtain ⟨there, hthere, -⟩ := hm.exists_ballFace (hm.twin_lt hk)
  obtain ⟨-, hcorners, -⟩ := ballFace?_eq_some_iff.1 hhere
  obtain ⟨-, hcorners', -⟩ := ballFace?_eq_some_iff.1 hthere
  have hsame := hm.sorted_twin k
  rw [hcorners, hcorners', Option.map_some, Option.map_some, Option.some_inj,
    Triple.sorted_eq_sorted_iff] at hsame
  have hrefines := hr.ballFace hhere
  have hrefines' := hr.ballFace hthere
  exact ⟨m.twin k, here, there, hm.twin?_eq hk, hhere, hthere, hrefines, hrefines', hsame.symm,
    hrefines.same hrefines' (hm.triangle?_nodup hcorners) hsame.symm⟩

end Refines

/-! ## Refusals -/

/-- An edge that cannot be constrained is in no tetrahedron, so nothing was marked on the way. -/
theorem constrainEdge_eq_error (hm : m.Linked) {fault : Fault MeshError}
    (h : m.edit (.constrainEdge a b) = .error fault) :
    fault = .refused (.edgeNotFound a b) ∧ m.edgeHolders a b m.tets = [] := by
  have h := (bind_eq_error_iff.1 h).resolve_right (by rintro ⟨_, -, h⟩; cases h)
  rcases bind_eq_error_iff.1 h with hmark | ⟨marked, -, h⟩
  · refine absurd hmark (markAll_ne_error ?_ fault)
    intro entry hentry
    obtain ⟨⟨tet, edge⟩, hholder, rfl⟩ := List.mem_map.1 hentry
    rw [hm.flags_size]
    exact List.mem_range.1 (mem_edgeHolders.1 hholder).1
  · have h := (bind_eq_error_iff.1 h).resolve_right (by rintro ⟨_, -, h⟩; cases h)
    by_cases hnone : m.edgeHolders a b m.tets = []
    · rw [require, if_neg (not_not.2 hnone)] at h
      cases h
      exact ⟨rfl, hnone⟩
    · rw [require, if_pos hnone] at h
      cases h

/-- A facet that cannot be constrained is a facet of no tetrahedron. -/
theorem constrainFacet_eq_error (hm : m.Linked) {fault : Fault MeshError}
    (h : m.edit (.constrainFacet a b c) = .error fault) :
    fault = .refused (.facetNotFound a b c) ∧ m.facetHolder? ⟨a, b, c⟩ = none := by
  change m.constrainFacet a b c = .error fault at h
  unfold Mesh.constrainFacet at h
  cases hfound : m.facetHolder? ⟨a, b, c⟩ with
  | none =>
    rw [hfound] at h
    cases h
    exact ⟨rfl, rfl⟩
  | some here =>
    have hlt := (facetHolder?_eq_some hfound).1
    simp only [hfound, hm.twin?_eq hlt, found_some, ok_bind] at h
    refine absurd h (markAll_ne_error ?_ fault)
    rw [hm.flags_size]
    simp [hlt, hm.twin_lt hlt]

end Mesh

end CavityRepair
