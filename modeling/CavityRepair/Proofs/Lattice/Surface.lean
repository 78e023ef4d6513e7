import CavityRepair.Proofs.Lattice.Triangles
/-!
# The surface of a lattice

The triangles of a lattice that belong to one tetrahedron only are the tiles at its two ends along
the third axis of their walk (`Mesh.mem_hullTriangles_lattice`). An edge has two of them at most
(`Mesh.card_hullAround_lattice_le`), and there are two for each of the squares on its six sides
(`Mesh.card_hullTriangles_lattice`).
-/
namespace CavityRepair

namespace Walk

/-- A tile at one of the two ends of the lattice along the third axis. -/
structure Outer (cells : Nat) (w : Walk) : Prop extends w.Tile cells where
  atEnd : w.origin.get w.order.c2 = 0 ∨ w.origin.get w.order.c2 = cells

end Walk

namespace Mesh

variable {cells : Nat} {w v : Walk} {f g : Facet} {t : Finset Vertex}

section

variable (hcells : 1 ≤ cells) (hside : (cells + 1) * (cells + 1) * (cells + 1) ≤ UInt32.size)

include hcells hside

/-- Tiles at the ends of the lattice belong to one tetrahedron. -/
theorem holders_of_outer (hw : w.Outer cells) :
    holders (latticeTets cells) (vertexSet (cells + 1) (w.side 3)) = 1 := by
  have hbelow : ∀ c ∈ (w.side 3).toList, c.Below (cells + 1) := fun c hc => hw.toTile.below hc
  have hback : ∀ {u : Walk} {g : Facet}, w.Joined 3 u g → w = u.onward := by
    rintro u g (⟨h, -⟩ | ⟨-, -, h⟩ | ⟨h, -⟩ | ⟨h, -⟩)
    · cases h
    · exact h
    · cases h
    · cases h
  rcases hw.atEnd with hzero | hlast
  · -- At the beginning no walk comes before.
    have hinside : w.Inside cells := Walk.inside_iff.2 ⟨hw.toTile, by omega⟩
    refine holders_eq_one hside hw.order hbelow hinside fun u hu => ⟨?_, .inl⟩
    rintro (rfl | ⟨g, hjoined⟩)
    · rfl
    · obtain rfl := hback hjoined
      exact absurd hzero hu.onward.2
  · -- At the end the walk itself is no longer in the lattice.
    obtain ⟨v, hv, rfl⟩ := hw.toTile.exists_onward (by omega)
    refine holders_eq_one hside hw.order hbelow hv fun u hu => ⟨?_, ?_⟩
    · rintro (rfl | ⟨g, hjoined⟩)
      · exact absurd (Walk.inside_iff.1 hu).2 (by omega)
      · exact (Walk.onward_inj.1 (hback hjoined)).symm
    · rintro rfl
      exact .inr ⟨0, u.onward_joined⟩

/-- The hull of a lattice are the tiles at its ends. -/
theorem mem_hullTriangles_lattice : t ∈ hullTriangles (latticeTets cells) ↔
    ∃ w : Walk, w.Outer cells ∧ t = vertexSet (cells + 1) (w.side 3) := by
  rw [mem_hullTriangles]
  constructor
  · rintro ⟨hcard, hone⟩
    obtain ⟨w, hw, f, rfl⟩ := exists_holder hside hcard (by omega)
    have hlone : ∀ {v : Walk} {g : Facet}, w.Joined f v g → ¬v.Inside cells := fun hjoined hv => by
      have := two_le_holders hside hw hv hjoined
      omega
    have hcases : ∀ f : Facet, f = 0 ∨ f = 1 ∨ f = 2 ∨ f = 3 := by decide
    obtain rfl | rfl | rfl | rfl := hcases f
    · have htile := hw.onward.1
      have hnot := hlone w.joined_onward
      rw [Walk.inside_iff] at hnot
      refine ⟨w.onward, ⟨htile, .inr ?_⟩, by rw [w.joined_onward.side_eq]⟩
      exact Nat.le_antisymm htile.third (Nat.le_of_not_lt fun hlt => hnot ⟨htile, hlt⟩)
    · exact absurd hw.swapFirst (hlone w.joined_swapFirst)
    · exact absurd hw.swapLast (hlone w.joined_swapLast)
    · refine ⟨w, ⟨hw.tile, .inl ?_⟩, rfl⟩
      by_contra hne
      obtain ⟨v, hv, rfl⟩ := hw.tile.exists_onward hne
      exact hlone v.onward_joined hv
  · rintro ⟨w, hw, rfl⟩
    exact ⟨Walk.card_vertexSet hside fun c hc => hw.toTile.below hc,
      holders_of_outer hcells hside hw⟩

end

/-! ## Edges -/

/-- Where a tile stands at a step from `corner` along `axis`: the step is its first one or its
second. -/
def tileAt (corner : Triple Nat) (axis : Axis) (order : Triple Axis) : Walk :=
  ⟨if order.c0 = axis then corner else stepBack corner order.c0, order⟩

/-- The orders of the tiles of the hull at a step from `corner` along `axis`. -/
def OuterAt (cells : Nat) (corner : Triple Nat) (axis : Axis) (order : Triple Axis) : Prop :=
  (corner.get order.c2 = 0 ∨ corner.get order.c2 = cells) ∧
    ((order.c0 = axis ∧ corner.get order.c1 < cells) ∨
      (order.c1 = axis ∧ corner.get order.c0 ≠ 0))

instance (corner : Triple Nat) (axis : Axis) : DecidablePred (OuterAt cells corner axis) :=
  fun _ => inferInstanceAs (Decidable (_ ∧ _))

/-- A step is part of two tiles of the hull at most. -/
theorem countP_outerAt_le (hcells : 1 ≤ cells) (corner : Triple Nat) (axis : Axis) :
    axisOrders.countP (OuterAt cells corner axis) ≤ 2 := by
  -- A side of the lattice that the step lies on has one tile on each side of it, but for a border
  -- that the side has there. Then the step lies on two sides, with one tile each.
  obtain ⟨x, y, z⟩ := corner
  fin_cases axis <;>
    simp [axisOrders, List.countP_cons, OuterAt, Triple.get] <;>
    split_ifs <;> omega

/-- Two corners of a tile that are one step apart are its first two or its last two. -/
theorem first_or_second_step {corner : Triple Nat} {axis : Axis}
    (hc : corner ∈ (w.side 3).toList) (hnext : stepAlong corner axis ∈ (w.side 3).toList) :
    (corner = w.origin ∧ axis = w.order.c0) ∨
      (corner = stepAlong w.origin w.order.c0 ∧ axis = w.order.c1) := by
  obtain ⟨i, hi, rfl⟩ := Walk.mem_side.1 hc
  obtain ⟨j, hj, h⟩ := Walk.mem_side.1 hnext
  have hheight := congrArg height h
  rw [height_stepAlong, Walk.height_corners, Walk.height_corners] at hheight
  have htable : ∀ i j : Slot, i ≠ 3 → j ≠ 3 → j.val = i.val + 1 →
      (i = 0 ∧ j = 1) ∨ (i = 1 ∧ j = 2) := by decide
  rcases htable i j hi hj (by omega) with ⟨rfl, rfl⟩ | ⟨rfl, rfl⟩
  · exact .inl ⟨rfl, (stepAlong_axis_inj.1 h).symm⟩
  · exact .inr ⟨rfl, (stepAlong_axis_inj.1 h).symm⟩

/-- Two corners of a tile that are two steps apart are its first and its last. -/
theorem both_steps {corner : Triple Nat} {axis axis' : Axis} (hc : corner ∈ (w.side 3).toList)
    (hnext : stepAlong (stepAlong corner axis) axis' ∈ (w.side 3).toList) :
    corner = w.origin ∧ ((w.order.c0 = axis ∧ w.order.c1 = axis') ∨
      (w.order.c0 = axis' ∧ w.order.c1 = axis)) := by
  obtain ⟨i, hi, rfl⟩ := Walk.mem_side.1 hc
  obtain ⟨j, hj, h⟩ := Walk.mem_side.1 hnext
  have hheight := congrArg height h
  rw [height_stepAlong, height_stepAlong, Walk.height_corners, Walk.height_corners] at hheight
  have htable : ∀ i j : Slot, i ≠ 3 → j ≠ 3 → j.val = i.val + 2 → i = 0 ∧ j = 2 := by decide
  obtain ⟨rfl, rfl⟩ := htable i j hi hj (by omega)
  exact ⟨rfl, stepAlong_stepAlong_inj.1 h⟩

/-- A tile of the hull at a step is known from its order. -/
theorem eq_tileAt {corner : Triple Nat} {axis : Axis} (hw : w.Outer cells)
    (hc : corner ∈ (w.side 3).toList) (hnext : stepAlong corner axis ∈ (w.side 3).toList) :
    w = tileAt corner axis w.order ∧ OuterAt cells corner axis w.order := by
  have hstep := first_or_second_step hc hnext
  obtain ⟨o, a, b, c⟩ := w
  obtain ⟨⟨horder, h0, h1, h2⟩, hend⟩ := hw
  have haxis := axisOrder_cases horder a
  have haxis' := axisOrder_cases horder c
  rcases hstep with ⟨rfl, rfl⟩ | ⟨rfl, rfl⟩
  · exact ⟨by simp [tileAt], hend, .inl ⟨rfl, h1⟩⟩
  · refine ⟨?_, ?_⟩
    · rw [tileAt, if_neg (by grind), stepBack_stepAlong]
    · simp only [OuterAt, get_stepAlong]
      grind

section

variable (hcells : 1 ≤ cells) (hside : (cells + 1) * (cells + 1) * (cells + 1) ≤ UInt32.size)

include hcells hside

/-- The triangles of the hull at an edge are the tiles that have both of its corners. -/
theorem exists_tile_of_hullAround {corner corner' : Triple Nat} (hc : corner.Below (cells + 1))
    (hc' : corner'.Below (cells + 1)) (ht : t ∈ hullAround (latticeTets cells)
      {cornerVertex (cells + 1) corner, cornerVertex (cells + 1) corner'}) :
    ∃ w : Walk, w.Outer cells ∧ corner ∈ (w.side 3).toList ∧ corner' ∈ (w.side 3).toList ∧
      t = vertexSet (cells + 1) (w.side 3) := by
  obtain ⟨ht, hedge⟩ := Finset.mem_filter.1 ht
  obtain ⟨w, hw, rfl⟩ := (mem_hullTriangles_lattice hcells hside).1 ht
  have hbelow : ∀ c ∈ (w.side 3).toList, c.Below (cells + 1) := fun c => hw.toTile.below
  rw [Finset.insert_subset_iff, Finset.singleton_subset_iff,
    Walk.mem_vertexSet hside hc hbelow, Walk.mem_vertexSet hside hc' hbelow] at hedge
  exact ⟨w, hw, hedge.1, hedge.2, rfl⟩

/-- A step is the edge of two triangles of the hull at most. -/
theorem card_hullAround_step_le {corner : Triple Nat} {axis : Axis}
    (hc : corner.Below (cells + 1)) (hnext : (stepAlong corner axis).Below (cells + 1)) :
    (hullAround (latticeTets cells) {cornerVertex (cells + 1) corner,
      cornerVertex (cells + 1) (stepAlong corner axis)}).card ≤ 2 := by
  let orders := axisOrders.filter (OuterAt cells corner axis)
  have hsub : hullAround (latticeTets cells) {cornerVertex (cells + 1) corner,
      cornerVertex (cells + 1) (stepAlong corner axis)} ⊆ orders.toFinset.image fun order =>
        vertexSet (cells + 1) ((tileAt corner axis order).side 3) := by
    intro t ht
    obtain ⟨w, hw, hfrom, hto, rfl⟩ := exists_tile_of_hullAround hcells hside hc hnext ht
    obtain ⟨heq, houter⟩ := eq_tileAt hw hfrom hto
    refine Finset.mem_image.2 ⟨w.order, ?_, by rw [← heq]⟩
    exact List.mem_toFinset.2 (List.mem_filter.2 ⟨hw.order, decide_eq_true houter⟩)
  calc _ ≤ (orders.toFinset.image fun order =>
        vertexSet (cells + 1) ((tileAt corner axis order).side 3)).card := Finset.card_le_card hsub
    _ ≤ orders.toFinset.card := Finset.card_image_le
    _ ≤ orders.length := List.toFinset_card_le orders
    _ ≤ 2 := by
      rw [← List.countP_eq_length_filter]
      exact countP_outerAt_le hcells corner axis

/-- A diagonal of a square is the edge of two triangles of the hull at most. -/
theorem card_hullAround_diagonal_le {corner : Triple Nat} {axis axis' : Axis}
    (hc : corner.Below (cells + 1))
    (hnext : (stepAlong (stepAlong corner axis) axis').Below (cells + 1)) :
    (hullAround (latticeTets cells) {cornerVertex (cells + 1) corner,
      cornerVertex (cells + 1) (stepAlong (stepAlong corner axis) axis')}).card ≤ 2 := by
  let half := fun middle : Axis => vertexSet (cells + 1)
    ⟨corner, stepAlong corner middle, stepAlong (stepAlong corner axis) axis'⟩
  have hsub : hullAround (latticeTets cells) {cornerVertex (cells + 1) corner,
      cornerVertex (cells + 1) (stepAlong (stepAlong corner axis) axis')} ⊆
      {half axis, half axis'} := by
    intro t ht
    obtain ⟨w, hw, hfrom, hto, rfl⟩ := exists_tile_of_hullAround hcells hside hc hnext ht
    obtain ⟨rfl, ⟨rfl, rfl⟩ | ⟨rfl, rfl⟩⟩ := both_steps hfrom hto
    · exact Finset.mem_insert_self _ _
    · refine Finset.mem_insert_of_mem (Finset.mem_singleton.2 ?_)
      simp only [half, stepAlong_comm w.origin w.order.c1]
      rfl
  exact (Finset.card_le_card hsub).trans Finset.card_le_two

/-- An edge of a tile is a step or a diagonal. -/
theorem card_hullAround_corners_le (hw : w.Tile cells) {i j : Slot} (hlt : i < j) (hj : j ≠ 3) :
    (hullAround (latticeTets cells) {cornerVertex (cells + 1) (w.corners.get i),
      cornerVertex (cells + 1) (w.corners.get j)}).card ≤ 2 := by
  have htable : ∀ i j : Slot, i < j → j ≠ 3 →
      (i = 0 ∧ j = 1) ∨ (i = 1 ∧ j = 2) ∨ (i = 0 ∧ j = 2) := by decide
  have hbelow : ∀ k : Slot, k ≠ 3 → (w.corners.get k).Below (cells + 1) := fun k hk =>
    hw.below (Walk.mem_side.2 ⟨k, hk, rfl⟩)
  rcases htable i j hlt hj with ⟨rfl, rfl⟩ | ⟨rfl, rfl⟩ | ⟨rfl, rfl⟩
  · exact card_hullAround_step_le hcells hside (hbelow 0 (by decide)) (hbelow 1 hj)
  · exact card_hullAround_step_le hcells hside (hbelow 1 (by decide)) (hbelow 2 hj)
  · exact card_hullAround_diagonal_le hcells hside (hbelow 0 (by decide)) (hbelow 2 hj)

/-- An edge of a lattice has two triangles of the hull at most. -/
theorem card_hullAround_lattice_le {edge : Finset Vertex} (hedge : edge.card = 2) :
    (hullAround (latticeTets cells) edge).card ≤ 2 := by
  rcases (hullAround (latticeTets cells) edge).eq_empty_or_nonempty with hempty | ⟨t, ht⟩
  · simp [hempty]
  · obtain ⟨ht, hsub⟩ := Finset.mem_filter.1 ht
    obtain ⟨w, hw, rfl⟩ := (mem_hullTriangles_lattice hcells hside).1 ht
    obtain ⟨x, y, hne, rfl⟩ := Finset.card_eq_two.1 hedge
    rw [Finset.insert_subset_iff, Finset.singleton_subset_iff] at hsub
    obtain ⟨p, hp, rfl⟩ := Walk.exists_of_mem_vertexSet hsub.1
    obtain ⟨q, hq, rfl⟩ := Walk.exists_of_mem_vertexSet hsub.2
    obtain ⟨i, hi, rfl⟩ := Walk.mem_side.1 hp
    obtain ⟨j, hj, rfl⟩ := Walk.mem_side.1 hq
    rcases lt_trichotomy i j with hlt | rfl | hlt
    · exact card_hullAround_corners_le hcells hside hw.toTile hlt hj
    · exact absurd rfl hne
    · rw [Finset.pair_comm]
      exact card_hullAround_corners_le hcells hside hw.toTile hlt hi

end

/-! ## How many tiles there are -/

/-- The coordinates at which a tile of the hull may begin: on the last axis of its walk the two ends
of the lattice, on the others all but the end. -/
def OuterCoordinate (cells : Nat) (last axis : Axis) (x : Nat) : Prop :=
  if axis = last then x = 0 ∨ x = cells else x < cells

instance (last axis : Axis) : DecidablePred (OuterCoordinate cells last axis) := fun _ =>
  inferInstanceAs (Decidable (ite _ _ _))

/-- The tiles of the hull, order by order. -/
def outerTiles (cells : Nat) : List Walk :=
  axisOrders.flatMap fun order => ((gridPoints (cells + 1)).filter fun corner =>
    ∀ axis, OuterCoordinate cells order.c2 axis (corner.get axis)).map (⟨·, order⟩)

theorem mem_outerTiles : w ∈ outerTiles cells ↔ w.Outer cells := by
  obtain ⟨origin, order⟩ := w
  simp only [outerTiles, List.mem_flatMap, List.mem_map, List.mem_filter, mem_gridPoints,
    Walk.mk.injEq, decide_eq_true_eq]
  constructor
  · rintro ⟨order, horder, origin, ⟨-, haxes⟩, rfl, rfl⟩
    unfold OuterCoordinate at haxes
    have haxis := axisOrder_cases horder order.c2
    exact ⟨⟨horder, by grind, by grind, by grind⟩, by grind⟩
  · rintro ⟨⟨horder, h0, h1, h2⟩, hend⟩
    unfold OuterCoordinate
    refine ⟨order, horder, origin, ⟨fun axis => ?_, fun axis => ?_⟩, rfl, rfl⟩
    · have haxis := axisOrder_cases horder axis
      grind
    · have haxis := axisOrder_cases horder axis
      grind

theorem outerTiles_nodup (cells : Nat) : (outerTiles cells).Nodup := by
  refine List.nodup_flatMap.2 ⟨fun order _ => ?_, ?_⟩
  · exact ((gridPoints_nodup _).filter _).map fun _ _ h => congrArg Walk.origin h
  · refine List.Pairwise.imp (fun hne w h h' => hne ?_) (show axisOrders.Nodup by decide)
    obtain ⟨_, -, rfl⟩ := List.mem_map.1 h
    obtain ⟨_, -, heq⟩ := List.mem_map.1 h'
    exact (congrArg Walk.order heq).symm

/-- The numbers up to a bound have two ends. -/
theorem countP_ends (hcells : 1 ≤ cells) :
    (List.range (cells + 1)).countP (fun x => x = 0 ∨ x = cells) = 2 := by
  obtain ⟨n, rfl⟩ := Nat.exists_eq_add_of_le' hcells
  have hinner : ((List.range n).map Nat.succ).countP (fun x => x = 0 ∨ x = n + 1) = 0 := by
    rw [List.countP_eq_zero]
    intro x hx
    obtain ⟨y, hy, rfl⟩ := List.mem_map.1 hx
    have := List.mem_range.1 hy
    simp only [decide_eq_true_eq]
    omega
  rw [List.range_succ, List.countP_append, List.range_succ_eq_map, List.countP_cons, hinner]
  simp

theorem countP_lt (cells : Nat) : (List.range (cells + 1)).countP (· < cells) = cells := by
  rw [List.range_succ, List.countP_append, List.countP_eq_length.2 (by simp), List.length_range]
  simp

theorem countP_outerCoordinate (hcells : 1 ≤ cells) (last axis : Axis) :
    (List.range (cells + 1)).countP (OuterCoordinate cells last axis) =
      if axis = last then 2 else cells := by
  by_cases h : axis = last
  · simp only [OuterCoordinate, if_pos h]
    exact countP_ends hcells
  · simp only [OuterCoordinate, if_neg h]
    exact countP_lt cells

theorem length_outerTiles (hcells : 1 ≤ cells) : (outerTiles cells).length = 12 * cells ^ 2 := by
  have horder : ∀ order ∈ axisOrders, (((gridPoints (cells + 1)).filter fun corner =>
      ∀ axis, OuterCoordinate cells order.c2 axis (corner.get axis)).map (Walk.mk · order)).length =
        2 * cells ^ 2 := by
    intro order _
    rw [List.length_map, ← List.countP_eq_length_filter, countP_gridPoints,
      countP_outerCoordinate hcells, countP_outerCoordinate hcells, countP_outerCoordinate hcells]
    generalize order.c2 = last
    fin_cases last <;> simp <;> ring
  unfold outerTiles
  rw [length_flatMap_of_length horder, show axisOrders.length = 6 from rfl]
  ring

/-- The hull of a lattice has two triangles for each square on its six sides. -/
theorem card_hullTriangles_lattice (hcells : 1 ≤ cells)
    (hside : (cells + 1) * (cells + 1) * (cells + 1) ≤ UInt32.size) :
    (hullTriangles (latticeTets cells)).card = 12 * cells ^ 2 := by
  have htiles : hullTriangles (latticeTets cells) =
      ((outerTiles cells).map fun w => vertexSet (cells + 1) (w.side 3)).toFinset := by
    ext t
    rw [mem_hullTriangles_lattice hcells hside, List.mem_toFinset, List.mem_map]
    simp only [mem_outerTiles, eq_comm]
  have hnodup : ((outerTiles cells).map fun w => vertexSet (cells + 1) (w.side 3)).Nodup := by
    refine (outerTiles_nodup cells).map_on fun w hw v hv heq => ?_
    have hw := (mem_outerTiles.1 hw).toTile
    have hv := (mem_outerTiles.1 hv).toTile
    exact Walk.eq_of_side_three hv.order hw.order
      (Walk.side_eq_of_vertexSet hside (fun c => hv.below) (fun c => hw.below) heq)
  rw [htiles, List.toFinset_card_of_nodup hnodup, List.length_map, length_outerTiles hcells]

end Mesh

end CavityRepair
