import CavityRepair.Proofs.Lattice.Walks
import CavityRepair.Proofs.Mesh.Hull
import CavityRepair.Proofs.Mesh.Manifold
/-!
# The triangles of a lattice

The tetrahedra of a lattice are its walks, cube by cube (`latticeTets_eq`). As long as there are
vertices for all corners, facets of walks have the same vertices when they have the same corners. So
a facet belongs to its own walk and to the one that is joined there (`Walk.Inside.holds_iff`), and
no triangle belongs to three tetrahedra (`Mesh.holders_lattice_le`).
-/
namespace CavityRepair

/-! ## Counting -/

section

variable {α : Type} {items : List α} {p : α → Bool}

/-- What is counted is no more than some items that include it all. -/
theorem countP_le_length_of_subset (h : items.Nodup) (among : List α)
    (hamong : ∀ a ∈ items, p a = true → a ∈ among) : items.countP p ≤ among.length := by
  rw [List.countP_eq_length_filter]
  exact ((h.filter p).subperm fun a ha => hamong a (List.mem_filter.1 ha).1
    (List.mem_filter.1 ha).2).length_le

/-- What is counted is no less than some different items that are counted. -/
theorem length_le_countP_of_subset (among : List α) (h : among.Nodup)
    (hamong : ∀ a ∈ among, a ∈ items ∧ p a = true) : among.length ≤ items.countP p := by
  rw [List.countP_eq_length_filter]
  exact (h.subperm fun a ha => List.mem_filter.2 (hamong a ha)).length_le

end

/-! ## Vertices -/

/-- The vertices at some corners. -/
def vertexSet (side : Nat) (corners : Triple (Triple Nat)) : Finset Vertex :=
  (corners.map (cornerVertex side)).toList.toFinset

/-- The vertices at the corners of a walk. -/
def Walk.nodes (side : Nat) (w : Walk) : Quad Vertex := w.corners.map (cornerVertex side)

/-- The walks of a lattice, cube by cube. -/
def latticeWalks (cells : Nat) : List Walk :=
  (gridPoints cells).flatMap fun origin => axisOrders.map fun order => ⟨origin, order⟩

section

variable {cells : Nat} {w : Walk}

theorem latticeTets_eq (cells : Nat) :
    latticeTets cells = (latticeWalks cells).map (Walk.nodes (cells + 1)) := by
  unfold latticeTets latticeWalks
  rw [List.map_flatMap]
  refine List.flatMap_congr fun origin _ => ?_
  rw [List.map_map]
  rfl

theorem mem_latticeWalks : w ∈ latticeWalks cells ↔ w.Inside cells := by
  obtain ⟨origin, order⟩ := w
  simp only [latticeWalks, List.mem_flatMap, List.mem_map, mem_gridPoints, Walk.mk.injEq]
  constructor
  · rintro ⟨_, hbelow, _, horder, rfl, rfl⟩
    exact ⟨horder, hbelow⟩
  · rintro ⟨horder, hbelow⟩
    exact ⟨_, hbelow, _, horder, rfl, rfl⟩

theorem latticeWalks_nodup (cells : Nat) : (latticeWalks cells).Nodup := by
  refine List.nodup_flatMap.2 ⟨fun origin _ => ?_, ?_⟩
  · exact List.Nodup.map (fun _ _ h => congrArg Walk.order h) (by decide)
  · refine (gridPoints_nodup cells).imp fun hne w h h' => hne ?_
    obtain ⟨_, -, rfl⟩ := List.mem_map.1 h
    obtain ⟨_, -, heq⟩ := List.mem_map.1 h'
    exact (congrArg Walk.origin heq).symm

theorem length_latticeWalks (cells : Nat) : (latticeWalks cells).length = 6 * cells ^ 3 := by
  unfold latticeWalks
  rw [@length_flatMap_of_length _ _ _ 6 _ fun _ _ => by rw [List.length_map]; rfl,
    length_gridPoints]
  ring

/-- The walks of a cube stand together, the cubes in the order of their indices. -/
theorem getElem?_latticeWalks {origin : Triple Nat} (h : origin.Below cells) {place : Nat}
    (hplace : place < 6) : (latticeWalks cells)[6 * latticeIndex cells origin + place]? =
      axisOrders[place]?.map (⟨origin, ·⟩) := by
  rw [latticeWalks, Nat.add_comm,
    getElem?_flatMap_of_length (fun _ => by rw [List.length_map]; rfl) _ hplace,
    getElem?_gridPoints h, Option.bind_some, List.getElem?_map]

end

/-! ## Triangles as sets of vertices -/

namespace Walk

variable {cells : Nat} {w v : Walk} {f g : Facet}
  (hside : (cells + 1) * (cells + 1) * (cells + 1) ≤ UInt32.size)

theorem nodes_triangle (side : Nat) (w : Walk) (f : Facet) :
    ((w.nodes side).triangle f).toList.toFinset = vertexSet side (w.side f) := by
  rw [nodes, ← Quad.map_triangle, vertexSet]
  exact List.toFinset_eq_of_perm _ _ ((w.side_perm f).symm.map (cornerVertex side))

theorem exists_of_mem_vertexSet {side : Nat} {corners : Triple (Triple Nat)} {x : Vertex}
    (h : x ∈ vertexSet side corners) : ∃ c ∈ corners.toList, cornerVertex side c = x :=
  List.mem_map.1 (List.mem_toFinset.1 h)

include hside

theorem mem_vertexSet {corner : Triple Nat} {corners : Triple (Triple Nat)}
    (hcorner : corner.Below (cells + 1)) (h : ∀ c ∈ corners.toList, c.Below (cells + 1)) :
    cornerVertex (cells + 1) corner ∈ vertexSet (cells + 1) corners ↔ corner ∈ corners.toList := by
  constructor
  · intro hmem
    obtain ⟨c, hc, heq⟩ := exists_of_mem_vertexSet hmem
    rwa [← (cornerVertex_inj hside (h c hc) hcorner).1 heq]
  · intro hc
    exact List.mem_toFinset.2 (List.mem_map.2 ⟨corner, hc, rfl⟩)

/-- Facets of walks with the same vertices have the same corners. -/
theorem side_eq_of_vertexSet (hw : ∀ c ∈ (w.side f).toList, c.Below (cells + 1))
    (hv : ∀ c ∈ (v.side g).toList, c.Below (cells + 1))
    (h : vertexSet (cells + 1) (v.side g) = vertexSet (cells + 1) (w.side f)) :
    v.side g = w.side f := by
  refine side_eq_of_mem fun c => ⟨fun hc => ?_, fun hc => ?_⟩
  · rwa [← mem_vertexSet hside (hv c hc) hw, ← h, mem_vertexSet hside (hv c hc) hv]
  · rwa [← mem_vertexSet hside (hw c hc) hv, h, mem_vertexSet hside (hw c hc) hw]

theorem card_vertexSet (hw : ∀ c ∈ (w.side f).toList, c.Below (cells + 1)) :
    (vertexSet (cells + 1) (w.side f)).card = 3 := by
  have hmap : ((w.side f).toList.map (cornerVertex (cells + 1))).Nodup :=
    (w.side_nodup f).map_on fun c hc c' hc' => (cornerVertex_inj hside (hw c hc) (hw c' hc')).1
  exact List.toFinset_card_of_nodup hmap

theorem Inside.nodes_nodup (hw : w.Inside cells) : (w.nodes (cells + 1)).toList.Nodup := by
  have hmap : (w.nodes (cells + 1)).toList = w.corners.toList.map (cornerVertex (cells + 1)) := rfl
  rw [hmap]
  exact w.corners_nodup.map_on fun c hc c' hc' =>
    (cornerVertex_inj hside (hw.below_corners hc) (hw.below_corners hc')).1

omit hside in
theorem Inside.below_side (hw : w.Inside cells) (f : Facet) :
    ∀ c ∈ (w.side f).toList, c.Below (cells + 1) := by
  intro c hc
  obtain ⟨i, -, rfl⟩ := mem_side.1 hc
  exact hw.below_corners (Quad.mem_toList.2 ⟨i, rfl⟩)

/-- A triangle of a walk of the lattice is one of its facets. -/
theorem Inside.exists_side (hw : w.Inside cells) {t : Finset Vertex} (ht : t.card = 3)
    (h : t ⊆ (w.nodes (cells + 1)).toList.toFinset) :
    ∃ f, t = vertexSet (cells + 1) (w.side f) := by
  obtain ⟨key, hkey, rfl⟩ := Triple.exists_ascending ht
  obtain ⟨f, hf⟩ := Quad.exists_facet (hw.nodes_nodup hside) hkey.nodup fun v hv =>
    List.mem_toFinset.1 (h (List.mem_toFinset.2 hv))
  exact ⟨f, (List.toFinset_eq_of_perm _ _ hf).trans (nodes_triangle _ w f)⟩

/-- A facet is held by its own walk and by the one that is joined there. -/
theorem Inside.holds_iff (hv : v.Inside cells) (horder : w.order ∈ axisOrders)
    (hw : ∀ c ∈ (w.side f).toList, c.Below (cells + 1)) :
    vertexSet (cells + 1) (w.side f) ⊆ (v.nodes (cells + 1)).toList.toFinset ↔
      v = w ∨ ∃ g, Joined w f v g := by
  have hholds : ∀ g, vertexSet (cells + 1) (v.side g) ⊆ (v.nodes (cells + 1)).toList.toFinset := by
    intro g x hx
    rw [← nodes_triangle, List.mem_toFinset] at hx
    obtain ⟨i, -, hi⟩ := Quad.mem_triangle.1 hx
    exact List.mem_toFinset.2 (Quad.mem_toList.2 ⟨i, hi⟩)
  constructor
  · intro h
    obtain ⟨g, hg⟩ := hv.exists_side hside (card_vertexSet hside hw) h
    have hsame := side_eq_of_vertexSet hside hw (hv.below_side g) hg.symm
    exact (eq_or_joined horder hv.order hsame).imp And.left fun h => ⟨g, h⟩
  · rintro (rfl | ⟨g, h⟩)
    · exact hholds f
    · rw [← h.side_eq]
      exact hholds g

end Walk

/-! ## Triangles and the tetrahedra that hold them -/

namespace Mesh

variable {cells : Nat} {w v : Walk} {f g : Facet} {t : Finset Vertex}

theorem holders_lattice (cells : Nat) (t : Finset Vertex) : holders (latticeTets cells) t =
    (latticeWalks cells).countP fun w => t ⊆ (w.nodes (cells + 1)).toList.toFinset := by
  rw [latticeTets_eq, holders, List.countP_map]
  rfl

section

variable (hside : (cells + 1) * (cells + 1) * (cells + 1) ≤ UInt32.size)

include hside

/-- What holds a triangle of a lattice has it as a facet. -/
theorem exists_holder (ht : t.card = 3) (hpos : 0 < holders (latticeTets cells) t) :
    ∃ w : Walk, w.Inside cells ∧ ∃ f, t = vertexSet (cells + 1) (w.side f) := by
  rw [holders_lattice] at hpos
  obtain ⟨w, hw, hsub⟩ := List.countP_pos_iff.1 hpos
  have hw := mem_latticeWalks.1 hw
  exact ⟨w, hw, hw.exists_side hside ht (of_decide_eq_true hsub)⟩

/-- A triangle of a lattice belongs to two tetrahedra at most. -/
theorem holders_lattice_le (ht : t.card = 3) : holders (latticeTets cells) t ≤ 2 := by
  rcases Nat.eq_zero_or_pos (holders (latticeTets cells) t) with hzero | hpos
  · omega
  · obtain ⟨w, hw, f, rfl⟩ := exists_holder hside ht hpos
    obtain ⟨v, hv⟩ : ∃ v : Walk, ∀ u g, w.Joined f u g → u = v := by
      by_cases hjoined : ∃ v g, w.Joined f v g
      · obtain ⟨v, g, hv⟩ := hjoined
        exact ⟨v, fun u g' hu => hv.unique hu⟩
      · exact ⟨w, fun u g hu => absurd ⟨u, g, hu⟩ hjoined⟩
    rw [holders_lattice]
    refine countP_le_length_of_subset (latticeWalks_nodup cells) [w, v] fun u hu hsub => ?_
    rcases ((mem_latticeWalks.1 hu).holds_iff hside hw.order (hw.below_side f)).1
      (of_decide_eq_true hsub) with rfl | ⟨g, hjoined⟩
    · exact List.mem_cons_self
    · rw [hv u g hjoined]
      exact List.mem_cons_of_mem _ List.mem_cons_self

/-- A facet that is joined to another walk of the lattice belongs to two tetrahedra. -/
theorem two_le_holders (hw : w.Inside cells) (hv : v.Inside cells) (h : w.Joined f v g) :
    2 ≤ holders (latticeTets cells) (vertexSet (cells + 1) (w.side f)) := by
  rw [holders_lattice]
  have hholds : ∀ u : Walk, u.Inside cells → (u = w ∨ ∃ g, w.Joined f u g) →
      u ∈ latticeWalks cells ∧ decide (vertexSet (cells + 1) (w.side f) ⊆
        (u.nodes (cells + 1)).toList.toFinset) = true := fun u hu h =>
    ⟨mem_latticeWalks.2 hu,
      decide_eq_true ((hu.holds_iff hside hw.order (hw.below_side f)).2 h)⟩
  refine length_le_countP_of_subset [w, v] (by simp [(h.ne hw.order).symm]) fun u hu => ?_
  simp only [List.mem_cons, List.not_mem_nil, or_false] at hu
  rcases hu with rfl | rfl
  · exact hholds u hw (.inl rfl)
  · exact hholds u hv (.inr ⟨g, h⟩)

/-- A facet that only one walk of the lattice holds belongs to one tetrahedron. -/
theorem holders_eq_one (horder : w.order ∈ axisOrders)
    (hw : ∀ c ∈ (w.side f).toList, c.Below (cells + 1)) (hv : v.Inside cells)
    (h : ∀ u : Walk, u.Inside cells → ((u = w ∨ ∃ g, w.Joined f u g) ↔ u = v)) :
    holders (latticeTets cells) (vertexSet (cells + 1) (w.side f)) = 1 := by
  rw [holders_lattice]
  refine Nat.le_antisymm (countP_le_length_of_subset (latticeWalks_nodup cells) [v] ?_)
    (length_le_countP_of_subset [v] (List.nodup_singleton v) ?_)
  · intro u hu hsub
    have hu := mem_latticeWalks.1 hu
    have hheld := (hu.holds_iff hside horder hw).1 (of_decide_eq_true hsub)
    exact List.mem_singleton.2 ((h u hu).1 hheld)
  · intro u hu
    obtain rfl := List.mem_singleton.1 hu
    exact ⟨mem_latticeWalks.2 hv,
      decide_eq_true ((hv.holds_iff hside horder hw).2 ((h u hv).2 rfl))⟩

end

end Mesh

end CavityRepair
