import CavityRepair.Mesh.Error
import CavityRepair.Proofs.Geometry.Exactness
import Mathlib.Algebra.BigOperators.Ring.Nat
import Mathlib.Data.Finset.Powerset
/-!
# Manifold inputs

A mesh can be made of tetrahedra when they fit together as pieces of solids do: every vertex is
finite, no tetrahedron is flat, every triangle belongs to one or two tetrahedra, and every edge to
at most two of the triangles of the hull, which belong to one (`Mesh.Manifold`). What is wrong with
an input that is not so is said in stages (`Mesh.FirstFault`), and an input with a fault is not
manifold (`Mesh.FirstFault.not_manifold`).

That an edge might belong to a single triangle of the hull is not among the faults. Each tetrahedron
at an edge has two triangles at it, so the triangles there that belong to one tetrahedron are even
in number (`Mesh.even_hullAround`).
-/
namespace CavityRepair

namespace Mesh

/-! ## The triangles of an input -/

/-- How many tetrahedra have some vertices among their corners. -/
def holders (tets : List (Quad Vertex)) (corners : Finset Vertex) : Nat :=
  tets.countP fun q => corners ⊆ q.toList.toFinset

/-- The triangles of the hull: those of exactly one tetrahedron. -/
def hullTriangles (tets : List (Quad Vertex)) : Finset (Finset Vertex) :=
  (tets.toFinset.biUnion fun q => q.toList.toFinset.powersetCard 3).filter (holders tets · = 1)

/-- The triangles of the hull at an edge. -/
def hullAround (tets : List (Quad Vertex)) (edge : Finset Vertex) : Finset (Finset Vertex) :=
  (hullTriangles tets).filter (edge ⊆ ·)

section

variable {tets tets' : List (Quad Vertex)} {t edge : Finset Vertex}

theorem holders_cons (q : Quad Vertex) (rest : List (Quad Vertex)) (corners : Finset Vertex) :
    holders (q :: rest) corners =
      holders rest corners + if corners ⊆ q.toList.toFinset then 1 else 0 := by
  simp [holders, List.countP_cons]

theorem mem_hullTriangles : t ∈ hullTriangles tets ↔ t.card = 3 ∧ holders tets t = 1 := by
  unfold hullTriangles
  simp only [Finset.mem_filter, Finset.mem_biUnion, List.mem_toFinset, Finset.mem_powersetCard]
  constructor
  · intro ⟨⟨q, _, _, hcard⟩, hone⟩
    exact ⟨hcard, hone⟩
  · intro ⟨hcard, hone⟩
    have hpos : 0 < holders tets t := by omega
    obtain ⟨q, hq, hsub⟩ := List.countP_pos_iff.1 hpos
    exact ⟨⟨q, hq, by simpa using hsub, hcard⟩, hone⟩

/-- Only the corners of tetrahedra count, not their order. -/
theorem holders_congr (h : tets.map (·.toList.toFinset) = tets'.map (·.toList.toFinset))
    (corners : Finset Vertex) : holders tets corners = holders tets' corners := by
  have hcount : ∀ l : List (Quad Vertex),
      holders l corners = (l.map (·.toList.toFinset)).countP (corners ⊆ ·) := by
    intro l
    rw [List.countP_map]
    rfl
  rw [hcount, hcount, h]

theorem hullTriangles_congr (h : ∀ corners, holders tets corners = holders tets' corners) :
    hullTriangles tets = hullTriangles tets' := by
  ext t
  rw [mem_hullTriangles, mem_hullTriangles, h]

end

/-! ## Parity -/

/-- A tetrahedron has two triangles at each of its edges. -/
theorem card_triangles_around {q edge : Finset Vertex} (hq : q.card = 4) (he : edge.card = 2) :
    ((q.powersetCard 3).filter (edge ⊆ ·)).card = if edge ⊆ q then 2 else 0 := by
  split
  · rename_i hsub
    -- Such a triangle is the edge with one of the other two corners.
    have himage : (q.powersetCard 3).filter (edge ⊆ ·) = (q \ edge).image (insert · edge) := by
      ext t
      simp only [Finset.mem_filter, Finset.mem_powersetCard, Finset.mem_image, Finset.mem_sdiff]
      constructor
      · intro ⟨⟨htq, hcard⟩, het⟩
        have hone : (t \ edge).card = 1 := by rw [Finset.card_sdiff_of_subset het]; omega
        obtain ⟨v, hv⟩ := Finset.card_eq_one.1 hone
        have hmem : v ∈ t \ edge := by simp [hv]
        rw [Finset.mem_sdiff] at hmem
        refine ⟨v, ⟨htq hmem.1, hmem.2⟩, ?_⟩
        rw [← Finset.sdiff_union_of_subset het, hv, Finset.singleton_union]
      · intro ⟨v, ⟨hvq, hve⟩, ht⟩
        subst ht
        refine ⟨⟨Finset.insert_subset hvq hsub, ?_⟩, Finset.subset_insert v edge⟩
        rw [Finset.card_insert_of_notMem hve, he]
    have hinj : Set.InjOn (insert · edge) ((q \ edge : Finset Vertex) : Set Vertex) := by
      intro v hv w hw hvw
      have hmem : v ∈ insert v edge := Finset.mem_insert_self v edge
      rw [show insert v edge = insert w edge from hvw] at hmem
      exact (Finset.mem_insert.1 hmem).resolve_right (Finset.mem_sdiff.1 hv).2
    rw [himage, Finset.card_image_of_injOn hinj, Finset.card_sdiff_of_subset hsub]
    omega
  · rename_i hnot
    rw [Finset.card_eq_zero, Finset.filter_eq_empty_iff]
    intro t ht het
    exact hnot (het.trans (Finset.mem_powersetCard.1 ht).1)

/-- Counted with the tetrahedra they belong to, the triangles at an edge are two for each
tetrahedron at it. -/
theorem sum_holders {tets : List (Quad Vertex)} {edge : Finset Vertex}
    {around : Finset (Finset Vertex)} (he : edge.card = 2) (hnodup : ∀ q ∈ tets, q.toList.Nodup)
    (haround : ∀ t ∈ around, t.card = 3 ∧ edge ⊆ t)
    (hall : ∀ q ∈ tets, (q.toList.toFinset.powersetCard 3).filter (edge ⊆ ·) ⊆ around) :
    ∑ t ∈ around, holders tets t = 2 * holders tets edge := by
  induction tets with
  | nil => simp [holders]
  | cons q rest ih =>
    have hq : q.toList.toFinset.card = 4 :=
      List.toFinset_card_of_nodup (hnodup q List.mem_cons_self)
    have hhere : around.filter (· ⊆ q.toList.toFinset) =
        (q.toList.toFinset.powersetCard 3).filter (edge ⊆ ·) := by
      ext t
      constructor
      · intro ht
        obtain ⟨hmem, hsub⟩ := Finset.mem_filter.1 ht
        obtain ⟨hcard, hedge⟩ := haround t hmem
        exact Finset.mem_filter.2 ⟨Finset.mem_powersetCard.2 ⟨hsub, hcard⟩, hedge⟩
      · intro ht
        have hsub := (Finset.mem_powersetCard.1 (Finset.mem_filter.1 ht).1).1
        exact Finset.mem_filter.2 ⟨hall q List.mem_cons_self ht, hsub⟩
    have hrest := ih (fun r hr => hnodup r (List.mem_cons_of_mem q hr))
      fun r hr => hall r (List.mem_cons_of_mem q hr)
    calc ∑ t ∈ around, holders (q :: rest) t
        = ∑ t ∈ around, holders rest t + (around.filter (· ⊆ q.toList.toFinset)).card := by
          rw [Finset.card_filter, ← Finset.sum_add_distrib]
          exact Finset.sum_congr rfl fun t _ => holders_cons q rest t
      _ = 2 * holders (q :: rest) edge := by
          rw [hrest, hhere, card_triangles_around hq he, holders_cons]
          split <;> omega

/-- When no triangle belongs to three tetrahedra, the triangles of the hull at an edge are even in
number. -/
theorem even_hullAround {tets : List (Quad Vertex)} (hnodup : ∀ q ∈ tets, q.toList.Nodup)
    (htwo : ∀ t : Finset Vertex, t.card = 3 → holders tets t ≤ 2) {edge : Finset Vertex}
    (he : edge.card = 2) : Even (hullAround tets edge).card := by
  let around :=
    (tets.toFinset.biUnion fun q => q.toList.toFinset.powersetCard 3).filter (edge ⊆ ·)
  have hmem : ∀ t, t ∈ around ↔
      (∃ q ∈ tets, t ⊆ q.toList.toFinset ∧ t.card = 3) ∧ edge ⊆ t := by
    intro t
    simp only [around, Finset.mem_filter, Finset.mem_biUnion, List.mem_toFinset,
      Finset.mem_powersetCard]
  have hsum : ∑ t ∈ around, holders tets t = 2 * holders tets edge := by
    refine sum_holders he hnodup ?_ ?_
    · intro t ht
      obtain ⟨⟨q, _, _, hcard⟩, hedge⟩ := (hmem t).1 ht
      exact ⟨hcard, hedge⟩
    · intro q hq t ht
      obtain ⟨ht, hedge⟩ := Finset.mem_filter.1 ht
      obtain ⟨hsub, hcard⟩ := Finset.mem_powersetCard.1 ht
      exact (hmem t).2 ⟨⟨q, hq, hsub, hcard⟩, hedge⟩
  -- A triangle belongs to an odd number of tetrahedra just when it belongs to one.
  have hodd : hullAround tets edge = around.filter fun t => Odd (holders tets t) := by
    ext t
    simp only [hullAround, Finset.mem_filter, mem_hullTriangles]
    constructor
    · intro ⟨⟨hcard, hone⟩, hedge⟩
      have hpos : 0 < holders tets t := by omega
      obtain ⟨q, hq, hsub⟩ := List.countP_pos_iff.1 hpos
      exact ⟨(hmem t).2 ⟨⟨q, hq, by simpa using hsub, hcard⟩, hedge⟩, by simp [hone]⟩
    · intro ⟨ht, hodd⟩
      obtain ⟨⟨q, _, _, hcard⟩, hedge⟩ := (hmem t).1 ht
      have hle := htwo t hcard
      obtain ⟨k, hk⟩ := hodd
      exact ⟨⟨hcard, by omega⟩, hedge⟩
  rw [hodd, ← Finset.even_sum_iff_even_card_odd, hsum]
  exact even_two_mul _

/-! ## What building asks for -/

variable (vertices : Array Point) (tets : List (Quad Vertex))

/-- The exact position of a vertex of an input. -/
def inputPosition? (v : Vertex) : Option Position := vertices[v.toNat]?.bind Point.position?

/-- A tetrahedron of an input with exact positions that are not coplanar. -/
structure Solid (q : Quad Vertex) : Prop where
  inRange : ∀ v ∈ q.toList, v.toNat < vertices.size
  distinct : q.toList.Nodup
  notFlat : ∃ p : Quad Position,
    (∀ slot, inputPosition? vertices (q.get slot) = some (p.get slot)) ∧ detOf p ≠ 0

/-- What building asks of an input. -/
structure Manifold : Prop where
  points : ∀ p ∈ vertices, p.Finite
  solid : ∀ q ∈ tets, Solid vertices q
  facets : ∀ t : Finset Vertex, t.card = 3 → holders tets t ≤ 2
  edges : ∀ e : Finset Vertex, e.card = 2 → (hullAround tets e).card ≤ 2

/-- What is wrong with one tetrahedron: a vertex that does not exist, else a vertex that is named
twice, else that its corners are coplanar. -/
inductive TetFault (tet : Nat) (q : Quad Vertex) : MeshError → Prop
  | outOfRange (slot : Slot) (here : vertices.size ≤ (q.get slot).toNat)
      (first : ∀ i < slot, (q.get i).toNat < vertices.size) :
      TetFault tet q (.vertexOutOfRange tet (q.get slot) vertices.size)
  | repeated (inRange : ∀ v ∈ q.toList, v.toNat < vertices.size) (here : ¬q.toList.Nodup) :
      TetFault tet q (.repeatedVertex tet q)
  | flat {p : Quad Position} (inRange : ∀ v ∈ q.toList, v.toNat < vertices.size)
      (distinct : q.toList.Nodup)
      (positions : ∀ slot, inputPosition? vertices (q.get slot) = some (p.get slot))
      (here : detOf p = 0) : TetFault tet q (.degenerateTetrahedron tet q)

/-- What is wrong with an input at the first stage that it fails: the positions, then the
tetrahedra one by one, then the triangles, then the edges of the hull. -/
inductive FirstFault : MeshError → Prop
  | point {i : Nat} {p : Point} {axis : Axis} (place : vertices[i]? = some p)
      (before : ∀ j p', j < i → vertices[j]? = some p' → p'.Finite)
      (here : finite (p.coord axis) = false)
      (first : ∀ other < axis, finite (p.coord other) = true) :
      FirstFault (.invalidPoint i (.notFinite axis (p.coord axis)))
  | tet {i : Nat} {q : Quad Vertex} {e : MeshError} (points : ∀ p ∈ vertices, p.Finite)
      (place : tets[i]? = some q)
      (before : ∀ j q', j < i → tets[j]? = some q' → Solid vertices q')
      (here : TetFault vertices i q e) : FirstFault e
  | facet {t : Triple Vertex} (points : ∀ p ∈ vertices, p.Finite)
      (solid : ∀ q ∈ tets, Solid vertices q) (ascending : t.Ascending)
      (here : 2 < holders tets t.toList.toFinset) : FirstFault (.nonManifoldFacet t)
  | hullEdge {a b : Vertex} (points : ∀ p ∈ vertices, p.Finite)
      (solid : ∀ q ∈ tets, Solid vertices q)
      (facets : ∀ t : Finset Vertex, t.card = 3 → holders tets t ≤ 2) (ascending : a < b)
      (here : 2 < (hullAround tets {a, b}).card) : FirstFault (.nonManifoldHullEdge a b)

variable {vertices tets} {e : MeshError}

theorem TetFault.not_solid {tet : Nat} {q : Quad Vertex} (h : TetFault vertices tet q e) :
    ¬Solid vertices q := by
  intro hq
  cases h with
  | outOfRange slot here _ =>
    have := hq.inRange (q.get slot) (Quad.mem_toList.2 ⟨slot, rfl⟩)
    omega
  | repeated _ here => exact here hq.distinct
  | @flat p _ _ positions here =>
    obtain ⟨p', hp', hne⟩ := hq.notFlat
    obtain rfl : p' = p := Quad.eq_of_get fun slot =>
      Option.some_inj.1 ((hp' slot).symm.trans (positions slot))
    exact hne here

/-- An input with a fault is not manifold. -/
theorem FirstFault.not_manifold (h : FirstFault vertices tets e) : ¬Manifold vertices tets := by
  intro hm
  cases h with
  | @point i p axis place _ here _ =>
    have := hm.points p (Array.mem_of_getElem? place) axis
    rw [here] at this
    cases this
  | tet _ place _ here => exact here.not_solid (hm.solid _ (List.mem_of_getElem? place))
  | facet _ _ ascending here =>
    have := hm.facets _ ascending.card
    omega
  | @hullEdge a b _ _ _ ascending here =>
    have := hm.edges {a, b} (Finset.card_pair (UInt32.ne_of_lt ascending))
    omega

/-- A single triangle of the hull at an edge is no fault that there could be. -/
theorem FirstFault.ne_openHullEdge (h : FirstFault vertices tets e) (a b : Vertex) :
    e ≠ .openHullEdge a b := by
  cases h with
  | tet _ _ _ here => cases here <;> exact MeshError.noConfusion
  | _ => exact MeshError.noConfusion

end Mesh

end CavityRepair
