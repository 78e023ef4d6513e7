import CavityRepair.Proofs.Mesh.Hull
import CavityRepair.Proofs.Mesh.Manifold
/-!
# What building accepts

Building counts: a pairing that goes well saw no key three times, and what it leaves over are the
keys that came once. The keys of facets are counted by the tetrahedra that have them as a triangle
(`Mesh.times_facetKeys`), those of rims by the hull triangles at an edge
(`Mesh.times_rimKeys_eq_card`). Where the signs of the test are exact, a tetrahedron is refused as
flat just when its corners are coplanar (`Mesh.exists_positions`). So `Mesh.ofTetrahedra` makes a
mesh of the manifold inputs and of no others, and refuses an input for its first fault
(`Mesh.ofTetrahedra_accepts_manifold`).
-/
namespace CavityRepair

/-! ## Positions -/

theorem Point.check_eq_error {p : Point} {cause : PointError} (h : p.check = .error cause) :
    ∃ axis, cause = .notFinite axis (p.coord axis) ∧ finite (p.coord axis) = false ∧
      ∀ other < axis, finite (p.coord other) = true := by
  unfold check at h
  split at h
  · rename_i axis hfind
    cases h
    obtain ⟨hnot, front, back, hlist, hfront⟩ := List.find?_eq_some_iff_append.1 hfind
    refine ⟨axis, rfl, by simpa using hnot, fun other hlt => ?_⟩
    -- The axes before the one that was found were passed over.
    have hsorted : (front ++ axis :: back).Pairwise (· < ·) := hlist ▸ by decide
    have hmem : other ∈ front ++ axis :: back := hlist ▸ mem_axes other
    have hback := (List.pairwise_cons.1 (List.pairwise_append.1 hsorted).2.1).1
    rcases List.mem_append.1 hmem with hmem | hmem
    · simpa using hfront other hmem
    · rcases List.mem_cons.1 hmem with heq | hmem
      · exact absurd heq (ne_of_lt hlt)
      · exact absurd hlt (lt_asymm (hback other hmem))
  · cases h

namespace Mesh

theorem checkPoints_eq_error {first : Nat} {points : List Point} {e : MeshError}
    (h : checkPoints first points = .error e) : ∃ i p axis, points[i]? = some p ∧
      e = .invalidPoint (first + i) (.notFinite axis (p.coord axis)) ∧
      (∀ j p', j < i → points[j]? = some p' → p'.Finite) ∧ finite (p.coord axis) = false ∧
      ∀ other < axis, finite (p.coord other) = true := by
  induction points generalizing first with
  | nil => cases h
  | cons p rest ih =>
    unfold checkPoints at h
    split at h
    · rename_i cause hp
      cases h
      obtain ⟨axis, rfl, hnot, hothers⟩ := Point.check_eq_error hp
      exact ⟨0, p, axis, rfl, rfl, fun j _ hj => absurd hj (Nat.not_lt_zero j), hnot, hothers⟩
    · rename_i hp
      obtain ⟨i, p', axis, hi, he, hbefore, hrest⟩ := ih h
      refine ⟨i + 1, p', axis, by simpa using hi, by rw [he]; congr 1; omega, ?_, hrest⟩
      intro j p'' hj hp''
      cases j with
      | zero =>
        cases hp''
        exact Point.check_eq_ok hp
      | succ j => exact hbefore j p'' (by omega) (by simpa using hp'')

/-! ## Tetrahedra -/

section

variable {vertices : Array Point} {tet : Nat} {q r : Quad Vertex} {e : MeshError}

theorem inputPosition?_eq {v : Vertex} {p : Point} {x : Position} (hp : vertices[v.toNat]? = some p)
    (hx : p.position? = some x) : inputPosition? vertices v = some x := by
  rw [inputPosition?, hp, Option.bind_some, hx]

theorem cornerPoint_eq_error {v : Vertex} (h : cornerPoint vertices tet v = .error e) :
    vertices.size ≤ v.toNat ∧ e = .vertexOutOfRange tet v vertices.size := by
  unfold cornerPoint at h
  split at h
  · cases h
  · rename_i hnone
    cases h
    exact ⟨Array.getElem?_eq_none_iff.1 hnone, rfl⟩

variable [Orient3d]

/-- Turning keeps the corners of every tetrahedron. -/
theorem corners_of_orientAll {tets real : List (Quad Vertex)}
    (h : orientAll vertices tet tets = .ok real) :
    tets.map (·.toList.toFinset) = real.map (·.toList.toFinset) := by
  induction tets generalizing tet real with
  | nil =>
    cases h
    rfl
  | cons q rest ih =>
    unfold orientAll at h
    obtain ⟨r, hr, h⟩ := bind_eq_ok_iff.1 h
    obtain ⟨others, hothers, h⟩ := bind_eq_ok_iff.1 h
    cases h
    rw [List.map_cons, List.map_cons, ih hothers, List.toFinset_eq_of_perm _ _ (perm_of_orient hr)]

variable (hpoints : ∀ p ∈ vertices, p.Finite) (hexact : Orient3d.ExactOn vertices)

include hpoints hexact

/-- Corners that are seen exactly have positions, of which the determinant gives their side. -/
theorem exists_positions {p : Quad Point}
    (hp : ∀ slot, vertices[(q.get slot).toNat]? = some (p.get slot)) : ∃ x : Quad Position,
      (∀ slot, inputPosition? vertices (q.get slot) = some (x.get slot)) ∧
        orientationOf p = .ofSign (detOf x) := by
  have hmem : ∀ slot, p.get slot ∈ vertices := fun slot => Array.mem_of_getElem? (hp slot)
  obtain ⟨a, ha⟩ := (hpoints _ (hmem 0)).exists_position
  obtain ⟨b, hb⟩ := (hpoints _ (hmem 1)).exists_position
  obtain ⟨c, hc⟩ := (hpoints _ (hmem 2)).exists_position
  obtain ⟨d, hd⟩ := (hpoints _ (hmem 3)).exists_position
  refine ⟨⟨a, b, c, d⟩, ?_, ?_⟩
  · have h0 := inputPosition?_eq (hp 0) ha
    have h1 := inputPosition?_eq (hp 1) hb
    have h2 := inputPosition?_eq (hp 2) hc
    have h3 := inputPosition?_eq (hp 3) hd
    simp only [Fin.forall_fin_succ]
    exact ⟨h0, h1, h2, h3, nofun⟩
  · have hdet : det? p.s0 p.s1 p.s2 p.s3 = some (det a b c d) :=
      det?_eq_some_iff.2 ⟨a, b, c, d, ha, hb, hc, hd, rfl⟩
    exact hexact _ (hmem 0) _ (hmem 1) _ (hmem 2) _ (hmem 3) _ hdet

theorem solid_of_orient (h : orient vertices tet q = .ok r) : Solid vertices q := by
  have hgood := orient_eq_ok h
  have hperm := perm_of_orient h
  refine ⟨fun v hv => hgood.2 v (hperm.mem_iff.2 hv), hperm.nodup_iff.1 hgood.1, ?_⟩
  obtain ⟨p, hp, hside⟩ := orient_cases h
  obtain ⟨x, hx, hexactSide⟩ := exists_positions hpoints hexact hp
  refine ⟨x, hx, fun hzero => ?_⟩
  rw [hexactSide, Orientation.ofSign_eq_degenerate_iff.2 hzero] at hside
  rcases hside with ⟨-, hside⟩ | ⟨-, hside⟩ <;> cases hside

/-- What is wrong with the first tetrahedron that cannot be turned. -/
theorem fault_of_orient (h : orient vertices tet q = .error e) : TetFault vertices tet q e := by
  have hlt : ∀ {v : Vertex} {p : Point}, vertices[v.toNat]? = some p → v.toNat < vertices.size :=
    fun hp => (Array.getElem?_eq_some_iff.1 hp).1
  unfold orient at h
  simp only [bind_eq_error_iff, cornerPoint_eq_ok_iff] at h
  rcases h with h | ⟨a, ha, h | ⟨b, hb, h | ⟨c, hc, h | ⟨d, hd, h⟩⟩⟩⟩
  · obtain ⟨hle, rfl⟩ := cornerPoint_eq_error h
    exact .outOfRange 0 hle (by simp)
  · obtain ⟨hle, rfl⟩ := cornerPoint_eq_error h
    exact .outOfRange 1 hle (by simp [Quad.get, hlt ha])
  · obtain ⟨hle, rfl⟩ := cornerPoint_eq_error h
    exact .outOfRange 2 hle (by simp [Fin.forall_fin_succ, Quad.get, hlt ha, hlt hb])
  · obtain ⟨hle, rfl⟩ := cornerPoint_eq_error h
    exact .outOfRange 3 hle
      (by simp [Fin.forall_fin_succ, Quad.get, hlt ha, hlt hb, hlt hc])
  · have hrange : ∀ v ∈ q.toList, v.toNat < vertices.size := by
      simp [Quad.toList, hlt ha, hlt hb, hlt hc, hlt hd]
    split at h
    · rename_i hrepeat
      cases h
      exact .repeated hrange hrepeat
    · rename_i hdistinct
      split at h
      · cases h
      · cases h
      · rename_i hflat
        cases h
        have hcorners : ∀ slot, vertices[(q.get slot).toNat]? =
            some ((⟨a, b, c, d⟩ : Quad Point).get slot) := by
          simp [Fin.forall_fin_succ, Quad.get, ha, hb, hc, hd]
        obtain ⟨x, hx, hexactSide⟩ := exists_positions hpoints hexact hcorners
        have hzero := Orientation.ofSign_eq_degenerate_iff.1 (hexactSide.symm.trans hflat)
        exact .flat hrange (Classical.not_not.1 hdistinct) hx hzero

theorem solid_of_orientAll {tets real : List (Quad Vertex)}
    (h : orientAll vertices tet tets = .ok real) : ∀ q ∈ tets, Solid vertices q := by
  induction tets generalizing tet real with
  | nil => simp
  | cons q rest ih =>
    unfold orientAll at h
    obtain ⟨r, hr, h⟩ := bind_eq_ok_iff.1 h
    obtain ⟨others, hothers, h⟩ := bind_eq_ok_iff.1 h
    exact List.forall_mem_cons.2 ⟨solid_of_orient hpoints hexact hr, ih hothers⟩

theorem fault_of_orientAll {tets : List (Quad Vertex)}
    (h : orientAll vertices tet tets = .error e) : ∃ i q, tets[i]? = some q ∧
      (∀ j q', j < i → tets[j]? = some q' → Solid vertices q') ∧
      TetFault vertices (tet + i) q e := by
  induction tets generalizing tet with
  | nil => cases h
  | cons q rest ih =>
    unfold orientAll at h
    simp only [bind_eq_error_iff] at h
    rcases h with h | ⟨r, hr, h | ⟨others, _, h⟩⟩
    · exact ⟨0, q, rfl, fun j _ hj => absurd hj (Nat.not_lt_zero j),
        fault_of_orient hpoints hexact h⟩
    · obtain ⟨i, q', hi, hbefore, hfault⟩ := ih h
      refine ⟨i + 1, q', by simpa using hi, ?_, by rwa [Nat.add_right_comm] at hfault⟩
      intro j q'' hj hq''
      cases j with
      | zero =>
        cases hq''
        exact solid_of_orient hpoints hexact hr
      | succ j => exact hbefore j q'' (by omega) (by simpa using hq'')
    · cases h

end

/-! ## Counting the keys of facets -/

/-- Of the triangles of a tetrahedron, one has the corners of a key if they are corners of it. -/
theorem count_triangles {q : Quad Vertex} (hq : q.toList.Nodup) {key : Triple Vertex}
    (hkey : key.Ascending) : (facets.map fun f => (q.triangle f).sorted).count key =
      if key.toList.toFinset ⊆ q.toList.toFinset then 1 else 0 := by
  have hasc : ∀ f, (q.triangle f).sorted.Ascending := fun f =>
    Triple.sorted_ascending (Quad.triangle_nodup hq f)
  have hnodup : (facets.map fun f => (q.triangle f).sorted).Nodup := by
    refine List.Nodup.map ?_ (by decide)
    intro f g hfg
    have hperm := Triple.sorted_eq_sorted_iff.1 hfg
    -- A facet is known from the corner that it leaves out.
    by_contra hne
    have hmem : q.get f ∈ (q.triangle g).toList := Quad.mem_triangle.2 ⟨f, hne, rfl⟩
    obtain ⟨i, hi, heq⟩ := Quad.mem_triangle.1 (hperm.mem_iff.2 hmem)
    exact hi ((Quad.get_inj hq).1 heq)
  have hmem : key ∈ (facets.map fun f => (q.triangle f).sorted) ↔
      key.toList.toFinset ⊆ q.toList.toFinset := by
    rw [List.mem_map]
    constructor
    · intro ⟨f, _, heq⟩ v hv
      rw [← heq, List.mem_toFinset, (Triple.sorted_perm _).mem_iff] at hv
      obtain ⟨i, _, hi⟩ := Quad.mem_triangle.1 hv
      exact List.mem_toFinset.2 (Quad.mem_toList.2 ⟨i, hi⟩)
    · intro hsub
      obtain ⟨f, hf⟩ := Quad.exists_facet hq hkey.nodup fun v hv =>
        List.mem_toFinset.1 (hsub (List.mem_toFinset.2 hv))
      exact ⟨f, mem_facets f, (hasc f).eq_of_perm hkey ((Triple.sorted_perm _).trans hf.symm)⟩
  split
  · rename_i hsub
    exact List.count_eq_one_of_mem hnodup (hmem.2 hsub)
  · rename_i hnot
    exact List.count_eq_zero.2 (mt hmem.1 hnot)

/-- A key of facets comes as often as there are tetrahedra with this triangle. -/
theorem times_facetKeys {first : Nat} {tets : List (Quad Vertex)}
    (hnodup : ∀ q ∈ tets, q.toList.Nodup) {key : Triple Vertex} (hkey : key.Ascending) :
    Pairing.times (facetKeys first tets) key = holders tets key.toList.toFinset := by
  induction tets generalizing first with
  | nil => rfl
  | cons q rest ih =>
    have hhere := count_triangles (hnodup q List.mem_cons_self) hkey
    have hrest := @ih (first + 1) fun r hr => hnodup r (List.mem_cons_of_mem q hr)
    rw [facetKeys, Pairing.times_append, hrest, holders_cons, ← hhere, Pairing.times_eq_count,
      List.map_map]
    exact Nat.add_comm _ _

theorem ascending_of_mem_facetKeys {first : Nat} {tets : List (Quad Vertex)}
    (hnodup : ∀ q ∈ tets, q.toList.Nodup) {key : Triple Vertex}
    (hkey : key ∈ (facetKeys first tets).map (·.1)) : key.Ascending := by
  obtain ⟨⟨key, h⟩, hmem, rfl⟩ := List.mem_map.1 hkey
  obtain ⟨i, q, _, hi, rfl⟩ := mem_facetKeys hmem
  exact Triple.sorted_ascending
    (Quad.triangle_nodup (hnodup q (List.mem_of_getElem? hi)) h.facet)

/-! ## Counting the keys of rims -/

/-- Of the rims of a ghost, one has the key of an edge if it is an edge of the triangle behind. -/
theorem times_rims {t : Triple Vertex} (ht : t.toList.Nodup) {a b : Vertex} (hab : a < b)
    (tet : Nat) : Pairing.times (rimKeys tet [ghostNodes t]) (a, b) =
      if {a, b} ⊆ t.toList.toFinset then 1 else 0 := by
  have hne : a ≠ b := UInt32.ne_of_lt hab
  simp only [Triple.toList, List.nodup_cons, List.mem_cons, List.not_mem_nil, or_false] at ht
  simp only [Pairing.times, rimKeys, ghostNodes, List.append_nil, List.countP_cons,
    List.countP_nil, decide_eq_true_eq, Vertex.pair_eq_iff hab, Triple.toList,
    List.toFinset_cons, List.toFinset_nil, Finset.insert_subset_iff, Finset.singleton_subset_iff,
    Finset.mem_insert]
  grind

section

variable {real : Array (Quad Vertex)} (hnodup : ∀ q ∈ real.toList, q.toList.Nodup)

include hnodup

/-- A key of rims comes as often as there are triangles before which a ghost stands and that have
this edge. -/
theorem times_rimKeys {first : Nat} {hull : List (Triple Vertex × HalfFace)}
    (hhull : ∀ entry ∈ hull, entry ∈ facetKeys 0 real.toList) {a b : Vertex} (hab : a < b) :
    Pairing.times (rimKeys first (ghostsOf real (hull.map (·.2)))) (a, b) =
      hull.countP fun entry => {a, b} ⊆ entry.1.toList.toFinset := by
  induction hull generalizing first with
  | nil => rfl
  | cons entry rest ih =>
    obtain ⟨key, h⟩ := entry
    obtain ⟨i, q, htet, hi, rfl⟩ := mem_facetKeys (hhull _ List.mem_cons_self)
    have hq : real[h.tet]? = some q := by
      rw [htet, Nat.zero_add, ← Array.getElem?_toList]
      exact hi
    have hkeys : rimKeys first (ghostsOf real (h :: rest.map (·.2))) =
        rimKeys first [ghostNodes (q.triangle h.facet)] ++
          rimKeys (first + 1) (ghostsOf real (rest.map (·.2))) := by
      unfold ghostsOf
      rw [List.filterMap_cons_some (by rw [hq]; rfl)]
      rfl
    have hdistinct := Quad.triangle_nodup (hnodup q (List.mem_of_getElem? hi)) h.facet
    rw [List.map_cons, hkeys, Pairing.times_append, times_rims hdistinct hab,
      ih fun entry he => hhull entry (List.mem_cons_of_mem _ he), List.countP_cons,
      List.toFinset_eq_of_perm _ _ (Triple.sorted_perm _)]
    simp only [decide_eq_true_eq]
    exact Nat.add_comm _ _

variable {facetPairs : Pairing (Triple Vertex)}
  (hfacets : Pairing.empty.addAll (facetKeys 0 real.toList) = .ok facetPairs)

include hfacets

/-- The triangles before which ghosts stand are those of the hull, each once. -/
theorem unpaired_spec : (facetPairs.unpaired.map fun entry => entry.1.toList.toFinset).Nodup ∧
    (facetPairs.unpaired.map fun entry => entry.1.toList.toFinset).toFinset =
      hullTriangles real.toList := by
  have hcorners : (facetPairs.unpaired.map fun entry => entry.1.toList.toFinset) =
      (facetPairs.unpaired.map (·.1)).map (·.toList.toFinset) := by rw [List.map_map]; rfl
  have hasc : ∀ key ∈ facetPairs.unpaired.map (·.1), key.Ascending := fun key hkey =>
    ascending_of_mem_facetKeys hnodup
      (((Pairing.unpaired_of_addAll_empty hfacets).map (·.1)).subset hkey)
  rw [hcorners]
  constructor
  · refine (Pairing.unpaired_keys_nodup hfacets).map_on fun t ht u hu htu => ?_
    exact (hasc t ht).eq_of_toFinset (hasc u hu) htu
  · ext t
    rw [List.mem_toFinset, List.mem_map, mem_hullTriangles]
    constructor
    · intro ⟨key, hkey, heq⟩
      rw [← heq, ← times_facetKeys hnodup (hasc key hkey)]
      exact ⟨(hasc key hkey).card, (Pairing.mem_unpaired_iff hfacets).1 hkey⟩
    · intro ⟨hcard, hone⟩
      obtain ⟨key, hkey, rfl⟩ := Triple.exists_ascending hcard
      rw [← times_facetKeys hnodup hkey] at hone
      exact ⟨key, (Pairing.mem_unpaired_iff hfacets).2 hone, rfl⟩

/-- A key of rims comes as often as the hull has triangles at this edge. -/
theorem times_rimKeys_eq_card {first : Nat} {a b : Vertex} (hab : a < b) :
    Pairing.times (rimKeys first (ghostsOf real (facetPairs.unpaired.map (·.2)))) (a, b) =
      (hullAround real.toList {a, b}).card := by
  obtain ⟨hkeys, htriangles⟩ := unpaired_spec hnodup hfacets
  generalize hlist : (facetPairs.unpaired.map fun entry => entry.1.toList.toFinset) = triangles
    at hkeys htriangles
  have haround : hullAround real.toList {a, b} = (triangles.filter ({a, b} ⊆ ·)).toFinset := by
    ext t
    simp [hullAround, ← htriangles]
  rw [times_rimKeys hnodup (Pairing.unpaired_of_addAll_empty hfacets).subset hab, haround,
    List.toFinset_card_of_nodup (hkeys.filter _), ← List.countP_eq_length_filter, ← hlist,
    List.countP_map]
  rfl

end

/-! ## Closing the hull -/

/-- The stages at which closing can refuse. -/
theorem close_eq_error {vertices : Array Point} {real : Array (Quad Vertex)} {e : MeshError}
    (h : close vertices real = .error e) :
    (∃ key, Pairing.empty.addAll (facetKeys 0 real.toList) = .error key ∧
      e = .nonManifoldFacet key) ∨
    ∃ facetPairs, Pairing.empty.addAll (facetKeys 0 real.toList) = .ok facetPairs ∧
      ((∃ key, Pairing.empty.addAll
          (rimKeys real.size (ghostsOf real (facetPairs.unpaired.map (·.2)))) = .error key ∧
        e = .nonManifoldHullEdge key.1 key.2) ∨
      ∃ rimPairs, Pairing.empty.addAll
          (rimKeys real.size (ghostsOf real (facetPairs.unpaired.map (·.2)))) = .ok rimPairs ∧
        ∃ key ∈ rimPairs.waiting.map (·.1), e = .openHullEdge key.1 key.2) := by
  unfold close at h
  simp only [bind_eq_error_iff, mapError_eq_error_iff, mapError_eq_ok_iff] at h
  rcases h with ⟨key, hkey, rfl⟩ | ⟨facetPairs, hfacets, h⟩
  · exact .inl ⟨key, hkey, rfl⟩
  · refine .inr ⟨facetPairs, hfacets, ?_⟩
    rcases h with ⟨key, hkey, rfl⟩ | ⟨rimPairs, hrims, h⟩
    · exact .inl ⟨key, hkey, rfl⟩
    · refine .inr ⟨rimPairs, hrims, ?_⟩
      split at h
      · rename_i a b hleast
        cases h
        exact ⟨(a, b), mem_of_leastPair hleast, rfl⟩
      · cases h

section

variable {vertices : Array Point} {real : Array (Quad Vertex)}
  (hnodup : ∀ q ∈ real.toList, q.toList.Nodup)

include hnodup

theorem holders_le_two {facetPairs : Pairing (Triple Vertex)}
    (hfacets : Pairing.empty.addAll (facetKeys 0 real.toList) = .ok facetPairs)
    {t : Finset Vertex} (ht : t.card = 3) : holders real.toList t ≤ 2 := by
  obtain ⟨key, hkey, rfl⟩ := Triple.exists_ascending ht
  rw [← times_facetKeys hnodup hkey]
  exact Pairing.times_le_two hfacets key

theorem hullAround_le_two {m : Mesh} (h : close vertices real = .ok m) {e : Finset Vertex}
    (he : e.card = 2) : (hullAround real.toList e).card ≤ 2 := by
  obtain ⟨facetPairs, rimPairs, hfacets, hrims, _⟩ := close_eq_ok h
  obtain ⟨a, b, hab, rfl⟩ : ∃ a b : Vertex, a < b ∧ e = {a, b} := by
    obtain ⟨a, b, hne, rfl⟩ := Finset.card_eq_two.1 he
    rcases UInt32.lt_or_lt_of_ne hne with hlt | hlt
    · exact ⟨a, b, hlt, rfl⟩
    · exact ⟨b, a, hlt, Finset.pair_comm a b⟩
  rw [← times_rimKeys_eq_card hnodup hfacets hab]
  exact Pairing.times_le_two hrims (a, b)

end

/-! ## Acceptance -/

section

variable {vertices : Array Point} {tets : List (Quad Vertex)}

/-- The keys of rims are edges, counted by the triangles of the hull at them. -/
theorem edge_of_rim {real : Array (Quad Vertex)} {facetPairs : Pairing (Triple Vertex)}
    (hsize : vertices.size < Vertex.ghost.toNat)
    (hgood : ∀ q ∈ real.toList, GoodCorners vertices q)
    (hfacets : Pairing.empty.addAll (facetKeys 0 real.toList) = .ok facetPairs) {first : Nat}
    {key : Vertex × Vertex}
    (hkey : key ∈ (rimKeys first (ghostsOf real (facetPairs.unpaired.map (·.2)))).map (·.1)) :
    key.1 < key.2 ∧
      Pairing.times (rimKeys first (ghostsOf real (facetPairs.unpaired.map (·.2)))) key =
        (hullAround real.toList {key.1, key.2}).card := by
  obtain ⟨⟨key, side⟩, hmem, rfl⟩ := List.mem_map.1 hkey
  have hghosts := fun ghost => @nodup_of_mem_ghostsOf vertices real hsize.le hgood
    (facetPairs.unpaired.map (·.2)) (fun _ => hull_lt hfacets) ghost
  have hlt := lt_of_mem_rimKeys hghosts hmem
  exact ⟨hlt, times_rimKeys_eq_card (fun q hq => (hgood q hq).1) hfacets hlt⟩

variable [Orient3d]

/-- Before every triangle of the hull stands one ghost. -/
theorem size_of_ofTetrahedra {m : Mesh} (h : ofTetrahedra vertices tets = .ok m) :
    m.size = tets.length + (hullTriangles tets).card := by
  obtain ⟨-, real, hreal, hclose⟩ := ofTetrahedra_eq_ok h
  obtain ⟨facetPairs, rimPairs, hfacets, -, -, -, hnodes, -⟩ := close_eq_ok hclose
  have hnodup : ∀ q ∈ real, q.toList.Nodup := fun q hq => (orientAll_eq_ok hreal q hq).1
  obtain ⟨hkeys, htriangles⟩ := @unpaired_spec real.toArray hnodup _ hfacets
  rw [size_of_nodes hfacets hnodes, List.size_toArray, (getElem?_orientAll hreal).1,
    hullTriangles_congr (holders_congr (corners_of_orientAll hreal)), ← htriangles,
    List.toFinset_card_of_nodup hkeys, List.length_map, List.length_map]

variable (hsize : vertices.size < Vertex.ghost.toNat) (hexact : Orient3d.ExactOn vertices)

include hsize hexact

/-- What is wrong with good tetrahedra that cannot be closed. -/
theorem fault_of_close {real : List (Quad Vertex)} {e : MeshError}
    (hpoints : ∀ p ∈ vertices, p.Finite) (hreal : orientAll vertices 0 tets = .ok real)
    (h : close vertices real.toArray = .error e) : FirstFault vertices tets e := by
  have hsolid := solid_of_orientAll hpoints hexact hreal
  have hgood := orientAll_eq_ok hreal
  have hnodup : ∀ q ∈ real, q.toList.Nodup := fun q hq => (hgood q hq).1
  have hholders := holders_congr (corners_of_orientAll hreal)
  rcases close_eq_error h with ⟨key, hkey, rfl⟩ | ⟨facetPairs, hfacets, h⟩
  · have htimes := Pairing.times_of_addAll_empty_error hkey
    have hasc : key.Ascending :=
      ascending_of_mem_facetKeys hnodup (Pairing.times_pos_iff.1 (Nat.zero_lt_of_lt htimes))
    rw [times_facetKeys hnodup hasc, ← hholders] at htimes
    exact .facet hpoints hsolid hasc htimes
  · have htwo : ∀ t : Finset Vertex, t.card = 3 → holders real t ≤ 2 := fun _ =>
      holders_le_two hnodup hfacets
    rcases h with ⟨key, hkey, rfl⟩ | ⟨rimPairs, hrims, key, hkey, rfl⟩
    · have htimes := Pairing.times_of_addAll_empty_error hkey
      obtain ⟨hlt, hcard⟩ := edge_of_rim hsize hgood hfacets
        (Pairing.times_pos_iff.1 (Nat.zero_lt_of_lt htimes))
      rw [hcard, hullAround, ← hullTriangles_congr hholders] at htimes
      exact .hullEdge hpoints hsolid (fun t ht => hholders t ▸ htwo t ht) hlt htimes
    · -- A key that waits came once, but the triangles of the hull at an edge are even in number.
      have hone := (Pairing.mem_unpaired_iff hrims).1
        (((List.reverse_perm rimPairs.waiting).map (·.1)).mem_iff.2 hkey)
      obtain ⟨hlt, hcard⟩ := edge_of_rim hsize hgood hfacets
        (Pairing.times_pos_iff.1 (Nat.lt_of_lt_of_eq Nat.zero_lt_one hone.symm))
      have heven := even_hullAround hnodup htwo (Finset.card_pair (UInt32.ne_of_lt hlt))
      rw [← hcard, hone] at heven
      exact absurd heven (by decide)

/-- An input that is refused is refused for its first fault. -/
theorem fault_of_ofTetrahedra {e : MeshError} (h : ofTetrahedra vertices tets = .error e) :
    FirstFault vertices tets e := by
  unfold ofTetrahedra at h
  rw [if_neg (Nat.not_le.2 hsize)] at h
  simp only [bind_eq_error_iff] at h
  rcases h with h | ⟨_, hpoints, h | ⟨real, hreal, h⟩⟩
  · obtain ⟨i, p, axis, hp, rfl, hbefore, hnot, hothers⟩ := checkPoints_eq_error h
    rw [Nat.zero_add]
    exact .point (by simpa using hp) (by simpa using hbefore) hnot hothers
  · have hfinite : ∀ p ∈ vertices, p.Finite := by simpa using checkPoints_eq_ok hpoints
    obtain ⟨i, q, hq, hbefore, hfault⟩ := fault_of_orientAll hfinite hexact h
    rw [Nat.zero_add] at hfault
    exact .tet hfinite hq hbefore hfault
  · exact fault_of_close hsize hexact (by simpa using checkPoints_eq_ok hpoints) hreal h

omit hsize in
/-- What is made a mesh of is manifold. -/
theorem manifold_of_ofTetrahedra {m : Mesh} (h : ofTetrahedra vertices tets = .ok m) :
    Manifold vertices tets := by
  obtain ⟨-, real, hreal, hclose⟩ := ofTetrahedra_eq_ok h
  have hfinite := finite_of_ofTetrahedra h
  have hholders := holders_congr (corners_of_orientAll hreal)
  have hnodup : ∀ q ∈ real, q.toList.Nodup := fun q hq => (orientAll_eq_ok hreal q hq).1
  obtain ⟨facetPairs, rimPairs, hfacets, _⟩ := close_eq_ok hclose
  refine ⟨hfinite, solid_of_orientAll hfinite hexact hreal, fun t ht => ?_, fun e he => ?_⟩
  · rw [hholders]
    exact holders_le_two hnodup hfacets ht
  · rw [hullAround, hullTriangles_congr hholders]
    exact hullAround_le_two hnodup hclose he

end

/-- Where the signs of the test are exact for the vertices, a mesh is made of the manifold inputs
and of no others. An input that is not manifold is refused for its first fault, which is never a
hull edge with one triangle: as long as the corners of every tetrahedron are distinct and no
triangle belongs to three, every edge has an even number of triangles of the hull. -/
theorem ofTetrahedra_accepts_manifold [Orient3d] {vertices : Array Point}
    {tets : List (Quad Vertex)} (hsize : vertices.size < Vertex.ghost.toNat)
    (hexact : Orient3d.ExactOn vertices) :
    ((∃ m, ofTetrahedra vertices tets = .ok m) ↔ Manifold vertices tets) ∧
    (∀ e, ofTetrahedra vertices tets = .error e → FirstFault vertices tets e) ∧
    (∀ a b, ofTetrahedra vertices tets ≠ .error (.openHullEdge a b)) ∧
    ((∀ q ∈ tets, q.toList.Nodup) → (∀ t : Finset Vertex, t.card = 3 → holders tets t ≤ 2) →
      ∀ edge : Finset Vertex, edge.card = 2 → Even (hullAround tets edge).card) := by
  refine ⟨⟨fun ⟨m, hm⟩ => manifold_of_ofTetrahedra hexact hm, fun hmanifold => ?_⟩,
    fun e => fault_of_ofTetrahedra hsize hexact, fun a b h => ?_,
    fun hnodup htwo edge he => even_hullAround hnodup htwo he⟩
  · cases h : ofTetrahedra vertices tets with
    | ok m => exact ⟨m, rfl⟩
    | error e => exact absurd hmanifold (fault_of_ofTetrahedra hsize hexact h).not_manifold
  · exact (fault_of_ofTetrahedra hsize hexact h).ne_openHullEdge a b rfl

theorem ofTetrahedra_accepts_manifold_pyramid :
    pyramidCorners.size < Vertex.ghost.toNat ∧ Orient3d.ExactOn pyramidCorners ∧
      Manifold pyramidCorners pyramidTets := by
  have hsize : pyramidCorners.size < Vertex.ghost.toNat := by decide
  obtain ⟨m, hm, -⟩ : ∃ m, ofTetrahedra pyramidCorners pyramidTets = .ok m ∧ m.size = 8 :=
    exists_of_any (by decide +kernel)
  have hexact := (Orient3d.faithful_exact pyramidCorners).exactOn
  exact ⟨hsize, hexact, (ofTetrahedra_accepts_manifold hsize hexact).1.1 ⟨m, hm⟩⟩

end Mesh

end CavityRepair
