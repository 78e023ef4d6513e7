import CavityRepair.Proofs.Geometry.Exactness
import CavityRepair.Proofs.Mesh.Validation
import Mathlib.Data.Finset.Card
/-!
# What building makes

Building keeps the tetrahedra in their places and closes them by ghosts, one before each triangle
that only one of them holds (`Mesh.ClosedBy`). Tetrahedra that the test finds positively oriented
are turned, so that all are negatively oriented where its signs are exact
(`Mesh.negative_of_ofTetrahedra`). The closing links are made in two passes, by the corners of
facets and by the edges of the hull. Neither pass sees a key in two places, and the keys of the
second have the vertex at infinity besides, so no two links join half-faces with the same corners
(`Mesh.PairedBy.links_nodup`): a triangle is held by a half-face and its twin and by no other
(`Mesh.PairedBy.eq_or_eq_twin`).
-/
namespace CavityRepair

theorem HalfFace.pairwise_raw (first count : Nat) :
    ((List.range' first count).flatMap ofTet).Pairwise (·.raw < ·.raw) := by
  induction count generalizing first with
  | zero => exact .nil
  | succ count ih =>
    rw [List.range'_succ, List.flatMap_cons, List.pairwise_append]
    refine ⟨?_, ih (first + 1), ?_⟩
    · have : facets.Pairwise (· < ·) := by decide
      exact List.pairwise_map.2 (this.imp fun hlt => Nat.add_lt_add_left hlt _)
    · intro h hh k hk
      obtain ⟨tet, htet, hk⟩ := List.mem_flatMap.1 hk
      have hlt : first + 1 ≤ tet := (List.mem_range'_1.1 htet).1
      have := h.facet.isLt
      rw [mem_ofTet.1 hh |>.symm] at hlt
      rw [mem_ofTet.1 hk |>.symm] at hlt
      unfold raw
      omega

/-- Three of the corners of a tetrahedron are those of one of its facets. -/
theorem Quad.exists_facet {q : Quad Vertex} (hq : q.toList.Nodup) {t : Triple Vertex}
    (ht : t.toList.Nodup) (hsub : ∀ v ∈ t.toList, v ∈ q.toList) :
    ∃ f, t.toList.Perm (q.triangle f).toList := by
  obtain ⟨v, hv, hnot⟩ : ∃ v ∈ q.toList, v ∉ t.toList := by
    by_contra hall
    have hsub : q.toList ⊆ t.toList := fun v hv => by
      by_contra hnot
      exact hall ⟨v, hv, hnot⟩
    have hle := (hq.subperm hsub).length_le
    simp [toList, Triple.toList] at hle
  obtain ⟨f, rfl⟩ := mem_toList.1 hv
  refine ⟨f, List.Subperm.perm_of_length_le (ht.subperm fun v hv => ?_) (by simp [Triple.toList])⟩
  obtain ⟨i, rfl⟩ := mem_toList.1 (hsub v hv)
  exact mem_triangle.2 ⟨i, fun hi => hnot (hi ▸ hv), rfl⟩

/-- A quad with the same values has the same facets, each left out by the same value. -/
theorem Quad.exists_facet_of_perm {q r : Quad Vertex} (hr : r.toList.Nodup)
    (h : q.toList.Perm r.toList) (f : Facet) :
    ∃ g, (q.triangle f).toList.Perm (r.triangle g).toList ∧ q.get f = r.get g := by
  have hq := h.nodup_iff.2 hr
  obtain ⟨g, hg⟩ := exists_facet hr (triangle_nodup hq f) fun v hv => by
    obtain ⟨i, -, hi⟩ := mem_triangle.1 hv
    exact h.mem_iff.1 (mem_toList.2 ⟨i, hi⟩)
  exact ⟨g, hg, get_of_perm hq h hg⟩

namespace Mesh

/-! ## The input -/

/-- A tetrahedron has positions when each of its corners has one. -/
theorem tetPoints?_eq_some_iff {m : Mesh} {q : Quad Vertex} {p : Quad Point} :
    m.tetPoints? q = some p ↔ ∀ i, m.point? (q.get i) = some (p.get i) := by
  obtain ⟨a, b, c, d⟩ := p
  simp only [tetPoints?, Option.bind_eq_bind, Option.bind_eq_some_iff, Option.pure_def,
    Option.some_inj, Quad.mk.injEq, Fin.forall_fin_succ, Quad.get]
  constructor
  · rintro ⟨_, ha, _, hb, _, hc, _, hd, rfl, rfl, rfl, rfl⟩
    exact ⟨ha, hb, hc, hd, fun i => i.elim0⟩
  · rintro ⟨ha, hb, hc, hd, -⟩
    exact ⟨a, ha, b, hb, c, hc, d, hd, rfl, rfl, rfl, rfl⟩

theorem checkPoints_eq_ok {first : Nat} {points : List Point}
    (h : checkPoints first points = .ok ()) : ∀ p ∈ points, p.Finite := by
  induction points generalizing first with
  | nil => simp
  | cons p rest ih =>
    unfold checkPoints at h
    split at h
    · cases h
    · rename_i hp
      intro p' hp'
      rcases List.mem_cons.1 hp' with heq | hp'
      · exact heq ▸ Point.check_eq_ok hp
      · exact ih h p' hp'

section

variable [Orient3d] {vertices : Array Point} {tet : Nat} {nodes q : Quad Vertex}

/-- Meshes are built of finite points only. -/
theorem finite_of_ofTetrahedra {tets : List (Quad Vertex)} {m : Mesh}
    (h : ofTetrahedra vertices tets = .ok m) : ∀ p ∈ vertices, p.Finite := by
  unfold ofTetrahedra at h
  split at h
  · cases h
  · obtain ⟨_, hpoints, -⟩ := bind_eq_ok_iff.1 h
    simpa using checkPoints_eq_ok hpoints

/-- An input tetrahedron has four points. It is kept if the test finds it negatively oriented, and
turned if positively. -/
theorem orient_cases (h : orient vertices tet nodes = .ok q) : ∃ p : Quad Point,
    (∀ i, vertices[(nodes.get i).toNat]? = some (p.get i)) ∧
    (q = nodes ∧ orientationOf p = .negative ∨ q = nodes.flip ∧ orientationOf p = .positive) := by
  unfold orient at h
  simp only [bind_eq_ok_iff, cornerPoint_eq_ok_iff] at h
  obtain ⟨a, ha, b, hb, c, hc, d, hd, h⟩ := h
  refine ⟨⟨a, b, c, d⟩, by simp [Fin.forall_fin_succ, Quad.get, ha, hb, hc, hd], ?_⟩
  split at h
  · cases h
  · split at h
    · rename_i hside
      cases h
      exact .inl ⟨rfl, hside⟩
    · rename_i hside
      cases h
      exact .inr ⟨rfl, hside⟩
    · cases h

theorem flip_of_orient (h : orient vertices tet nodes = .ok q) : q = nodes ∨ q = nodes.flip := by
  obtain ⟨p, -, hkept | hturned⟩ := orient_cases h
  exacts [.inl hkept.1, .inr hturned.1]

theorem perm_of_orient (h : orient vertices tet nodes = .ok q) : q.toList.Perm nodes.toList := by
  rcases flip_of_orient h with rfl | rfl
  · exact .refl _
  · exact Quad.flip_perm nodes

/-- After it was turned, if need be, the orientation of an input tetrahedron is negative, provided
that the sign of the test is the other one for the turned tetrahedron. -/
theorem orient_negative (h : orient vertices tet nodes = .ok q) : ∃ p : Quad Point,
    (∀ i, vertices[(q.get i).toNat]? = some (p.get i)) ∧
    (Orient3d.Faithful vertices → orientationOf p = .negative) := by
  obtain ⟨p, hp, ⟨rfl, hside⟩ | ⟨rfl, hside⟩⟩ := orient_cases h
  · exact ⟨p, hp, fun _ => hside⟩
  · refine ⟨p.flip, ?_, fun hfaithful => ?_⟩
    · simp only [Fin.forall_fin_succ] at hp ⊢
      exact ⟨hp.1, hp.2.1, hp.2.2.2.1, hp.2.2.1, nofun⟩
    · rw [hfaithful.orientationOf_flip fun i => Array.mem_of_getElem? (hp i), hside]
      rfl

end

/-- The tetrahedra keep their places. -/
theorem getElem?_orientAll [Orient3d] {vertices : Array Point} {tet : Nat}
    {tets real : List (Quad Vertex)} (h : orientAll vertices tet tets = .ok real) :
    real.length = tets.length ∧
      ∀ i nodes, tets[i]? = some nodes →
        ∃ q, real[i]? = some q ∧ orient vertices (tet + i) nodes = .ok q := by
  induction tets generalizing tet real with
  | nil =>
    cases h
    simp
  | cons first rest ih =>
    unfold orientAll at h
    obtain ⟨q, hq, h⟩ := bind_eq_ok_iff.1 h
    obtain ⟨others, hothers, h⟩ := bind_eq_ok_iff.1 h
    cases h
    obtain ⟨hlen, hrest⟩ := ih hothers
    refine ⟨by simp [hlen], fun i nodes hi => ?_⟩
    cases i with
    | zero =>
      cases hi
      exact ⟨q, rfl, hq⟩
    | succ i =>
      obtain ⟨r, hr, horient⟩ := hrest i nodes (by simpa using hi)
      rw [Nat.add_right_comm] at horient
      exact ⟨r, by simpa using hr, horient⟩

/-! ## Keys -/

theorem le_of_mem_rimKeys {first : Nat} {ghosts : List (Quad Vertex)} {key : Vertex × Vertex}
    {h : HalfFace} (hk : (key, h) ∈ rimKeys first ghosts) : key.1 ≤ key.2 := by
  induction ghosts generalizing first with
  | nil => simp [rimKeys] at hk
  | cons ghost rest ih =>
    rw [rimKeys, List.mem_append] at hk
    rcases hk with hk | hk
    · simp only [List.mem_cons, Prod.mk.injEq, List.not_mem_nil, or_false] at hk
      rcases hk with ⟨rfl, -⟩ | ⟨rfl, -⟩ | ⟨rfl, -⟩ <;> exact Vertex.pair_le _ _
    · exact ih hk

theorem lt_of_mem_rimKeys {first : Nat} {ghosts : List (Quad Vertex)}
    (hnodup : ∀ ghost ∈ ghosts, ghost.toList.Nodup) {key : Vertex × Vertex} {h : HalfFace}
    (hk : (key, h) ∈ rimKeys first ghosts) : key.1 < key.2 := by
  obtain ⟨i, ghost, -, hi, hperm⟩ := mem_rimKeys hk
  have hdistinct := Quad.triangle_nodup (hnodup ghost (List.mem_of_getElem? hi)) h.facet
  have hne : key.1 ≠ key.2 := by
    intro heq
    simp [hperm.nodup_iff, heq] at hdistinct
  exact UInt32.lt_of_le_of_ne (le_of_mem_rimKeys hk) hne

/-- An edge of the hull is known from its triangle with the vertex at infinity. -/
theorem eq_of_sorted_rim {a b : Vertex × Vertex} (ha : a.1 ≤ a.2) (hb : b.1 ≤ b.2)
    (h : Triple.sorted ⟨a.1, a.2, Vertex.ghost⟩ = Triple.sorted ⟨b.1, b.2, Vertex.ghost⟩) :
    a = b := by
  have hperm : [a.1, a.2].Perm [b.1, b.2] :=
    (List.perm_append_right_iff [Vertex.ghost]).1 (Triple.sorted_eq_sorted_iff.1 h)
  have heq := hperm.eq_of_pairwise (fun _ _ _ _ hab hba => UInt32.le_antisymm hab hba)
    (by simpa using ha) (by simpa using hb)
  simp only [List.cons.injEq, and_true] at heq
  exact Prod.ext heq.1 heq.2

/-! ## One link for each triangle -/

/-- How the half-faces of a mesh were paired when it was built. -/
structure PairedBy (m : Mesh) (real : Array (Quad Vertex)) (facetPairs : Pairing (Triple Vertex))
    (rimPairs : Pairing (Vertex × Vertex)) : Prop where
  facets : Pairing.empty.addAll (facetKeys 0 real.toList) = .ok facetPairs
  rims : Pairing.empty.addAll
    (rimKeys real.size (ghostsOf real (facetPairs.unpaired.map (·.2)))) = .ok rimPairs
  waiting : rimPairs.waiting = []
  nodes : m.nodes = real ++ ghostsOf real (facetPairs.unpaired.map (·.2))
  twins : m.twins = (closingLinks real.size facetPairs rimPairs).foldl link
    (Array.replicate m.size (Quad.replicate ⟨0, 0⟩))
  ghost : ∀ nodes ∈ real.toList, Vertex.ghost ∉ nodes.toList

namespace PairedBy

variable {m : Mesh} {real : Array (Quad Vertex)} {facetPairs : Pairing (Triple Vertex)}
  {rimPairs : Pairing (Vertex × Vertex)}

theorem size_eq (hm : m.PairedBy real facetPairs rimPairs) :
    m.size = real.size + (facetPairs.unpaired.map (·.2)).length :=
  size_of_nodes hm.facets hm.nodes

theorem sides (hm : m.PairedBy real facetPairs rimPairs) :
    (sidesOf (closingLinks real.size facetPairs rimPairs)).Perm m.halfFaces := by
  unfold halfFaces tets
  rw [hm.size_eq]
  exact sidesOf_closingLinks hm.facets hm.rims hm.waiting

theorem twin_of_link (hm : m.PairedBy real facetPairs rimPairs) {a b : HalfFace}
    (h : (a, b) ∈ closingLinks real.size facetPairs rimPairs) : m.twin a = b ∧ m.twin b = a :=
  (Mesh.twin_of_link hm.sides hm.twins h).2.2.2

/-- The vertex at infinity is no corner of a real tetrahedron. -/
theorem ghost_not_mem_keys (hm : m.PairedBy real facetPairs rimPairs) {key : Triple Vertex}
    (hkey : key ∈ facetPairs.keys) : Vertex.ghost ∉ key.toList := by
  obtain ⟨side, hside⟩ := Pairing.exists_of_mem_keys hkey
  obtain ⟨i, nodes, -, hi, rfl⟩ :=
    mem_facetKeys ((Pairing.entries_of_addAll_empty hm.facets).mem_iff.1 hside)
  intro hmem
  obtain ⟨j, -, hj⟩ := Quad.mem_triangle.1 ((Triple.sorted_perm _).mem_iff.1 hmem)
  exact hm.ghost nodes (List.mem_of_getElem? hi) (Quad.mem_toList.2 ⟨j, hj⟩)

/-- No two of the closing links join half-faces with the same corners. -/
theorem links_nodup (hm : m.PairedBy real facetPairs rimPairs) :
    ((closingLinks real.size facetPairs rimPairs).map
      fun pair => (m.triangle? pair.1).map Triple.sorted).Nodup := by
  have hhull : ∀ (first : Nat) (hull : List HalfFace),
      (hullLinks first hull).map (fun pair => (m.triangle? pair.1).map Triple.sorted) =
        hull.map fun h => (m.triangle? h).map Triple.sorted := by
    intro first hull
    induction hull generalizing first with
    | nil => rfl
    | cons h rest ih => rw [hullLinks, List.map_cons, List.map_cons, ih]
  -- The links of the first pass and those to the ghosts have the keys of the first pass.
  have hfirst := Pairing.map_links_append_map_unpaired (p := facetPairs)
    (f := fun h => (m.triangle? h).map Triple.sorted) (g := some)
    fun _ _ => sorted_of_facetPairs hm.facets hm.nodes
  have hsecond := Pairing.map_links_append_map_unpaired (p := rimPairs)
    (f := fun h => (m.triangle? h).map Triple.sorted)
    (g := fun key => some (Triple.sorted ⟨key.1, key.2, Vertex.ghost⟩))
    fun _ _ => sorted_of_rimPairs hm.facets hm.rims hm.nodes
  have hunpaired : rimPairs.unpaired = [] := by
    unfold Pairing.unpaired
    rw [hm.waiting, List.reverse_nil]
  rw [hunpaired, List.map_nil, List.append_nil] at hsecond
  unfold closingLinks
  rw [List.map_append, List.map_append, hhull, List.map_map, hsecond]
  refine List.Nodup.append ?_ ?_ ?_
  · refine hfirst ▸ (Pairing.keys_nodup_of_addAll_empty hm.facets).map ?_
    exact Option.some_injective _
  · refine (Pairing.keys_nodup_of_addAll_empty hm.rims).map_on fun a ha b hb hab => ?_
    have hle : ∀ {key}, key ∈ rimPairs.keys → key.1 ≤ key.2 := fun hkey => by
      obtain ⟨side, hside⟩ := Pairing.exists_of_mem_keys hkey
      exact le_of_mem_rimKeys ((Pairing.entries_of_addAll_empty hm.rims).mem_iff.1 hside)
    exact eq_of_sorted_rim (hle ha) (hle hb) (Option.some_inj.1 hab)
  · -- Only the second pass meets the vertex at infinity.
    intro t ht ht'
    obtain ⟨key, -, rfl⟩ := List.mem_map.1 ht'
    obtain ⟨key', hkey', he⟩ := List.mem_map.1 (hfirst ▸ ht)
    refine hm.ghost_not_mem_keys hkey' ?_
    rw [Option.some_inj.1 he, (Triple.sorted_perm _).mem_iff]
    simp [Triple.toList]

/-- Only a half-face itself and its twin have its corners. -/
theorem eq_or_eq_twin (hm : m.PairedBy real facetPairs rimPairs) {h k : HalfFace}
    (hh : h.tet < m.size) (hk : k.tet < m.size)
    (hsame : (m.triangle? k).map Triple.sorted = (m.triangle? h).map Triple.sorted) :
    k = h ∨ k = m.twin h := by
  have hlink : ∀ {h : HalfFace}, h.tet < m.size →
      ∃ pair ∈ closingLinks real.size facetPairs rimPairs, (h = pair.1 ∨ h = pair.2) ∧
        (m.triangle? pair.1).map Triple.sorted = (m.triangle? h).map Triple.sorted := by
    intro h hh
    obtain ⟨pair, hpair, hside⟩ := mem_sidesOf.1 (hm.sides.mem_iff.2 (mem_halfFaces.2 hh))
    refine ⟨pair, hpair, hside, ?_⟩
    rcases hside with rfl | rfl
    · rfl
    · exact sorted_closingLinks hm.facets hm.rims hm.nodes hpair
  obtain ⟨pair, hpair, hside, hcorners⟩ := hlink hh
  obtain ⟨pair', hpair', hside', hcorners'⟩ := hlink hk
  obtain rfl : pair' = pair := List.inj_on_of_nodup_map hm.links_nodup hpair' hpair
    (hcorners'.trans (hsame.trans hcorners.symm))
  obtain ⟨htwin, hback⟩ := hm.twin_of_link hpair
  rcases hside with rfl | rfl
  · rw [htwin]
    exact hside'
  · rw [hback]
    exact hside'.symm

/-- The hull half-faces and the ghosts before them are twins. -/
theorem twin_of_hull (hm : m.PairedBy real facetPairs rimPairs) {i : Nat} {h : HalfFace}
    (hi : (facetPairs.unpaired.map (·.2))[i]? = some h) :
    m.twin h = ⟨real.size + i, 3⟩ ∧ m.twin ⟨real.size + i, 3⟩ = h :=
  hm.twin_of_link
    (List.mem_append_left _ (List.mem_append_right _ (mem_hullLinks_of_getElem? hi)))

/-- The hull is where real tetrahedra have ghosts as neighbors. -/
theorem mem_hull_iff (hm : m.PairedBy real facetPairs rimPairs) {h : HalfFace} :
    h ∈ facetPairs.unpaired.map (·.2) ↔ h.tet < real.size ∧ real.size ≤ (m.twin h).tet := by
  have hperm := facetPairs_perm hm.facets
  have hmem : ∀ {k : HalfFace},
      k ∈ (List.range' 0 real.size).flatMap HalfFace.ofTet ↔ k.tet < real.size := by
    simp [HalfFace.mem_ofTet]
  constructor
  · intro hh
    obtain ⟨i, hi⟩ := List.mem_iff_getElem?.1 hh
    rw [(hm.twin_of_hull hi).1]
    exact ⟨hull_lt hm.facets hh, Nat.le_add_right _ _⟩
  · rintro ⟨hlt, hle⟩
    refine (List.mem_append.1 (hperm.mem_iff.2 (hmem.2 hlt))).resolve_left fun hh => ?_
    -- The first pass links real tetrahedra only.
    obtain ⟨⟨a, b⟩, hpair, hside⟩ := mem_sidesOf.1 hh
    have hreal : ∀ k ∈ sidesOf facetPairs.links, k.tet < real.size := fun k hk =>
      hmem.1 (hperm.mem_iff.1 (List.mem_append_left _ hk))
    have ha := hreal a (mem_sidesOf.2 ⟨_, hpair, .inl rfl⟩)
    have hb := hreal b (mem_sidesOf.2 ⟨_, hpair, .inr rfl⟩)
    obtain ⟨htwin, hback⟩ :=
      hm.twin_of_link (List.mem_append_left _ (List.mem_append_left _ hpair))
    rcases hside with rfl | rfl
    · rw [htwin] at hle
      omega
    · rw [hback] at hle
      omega

/-- The hull is in the order of the half-faces. -/
theorem ascending (hm : m.PairedBy real facetPairs rimPairs) :
    (facetPairs.unpaired.map (·.2)).Pairwise (·.raw < ·.raw) := by
  have hsub := (Pairing.unpaired_of_addAll_empty hm.facets).map (·.2)
  rw [facetKeys_map_snd] at hsub
  exact (HalfFace.pairwise_raw 0 _).sublist hsub

end PairedBy

theorem exists_pairedBy [Orient3d] {vertices : Array Point} {tets : List (Quad Vertex)} {m : Mesh}
    (h : ofTetrahedra vertices tets = .ok m) :
    ∃ real facetPairs rimPairs, m.vertices = vertices ∧
      orientAll vertices 0 tets = .ok real ∧ m.PairedBy real.toArray facetPairs rimPairs := by
  obtain ⟨hsize, real, horient, hclose⟩ := ofTetrahedra_eq_ok h
  obtain ⟨facetPairs, rimPairs, hfacets, hrims, hwaiting, hvertices, hnodes, htwins, -, -⟩ :=
    close_eq_ok hclose
  refine ⟨real, facetPairs, rimPairs, hvertices, horient, hfacets, hrims, hwaiting, hnodes, htwins,
    fun nodes hn hmem => ?_⟩
  have := (orientAll_eq_ok horient nodes hn).2 _ hmem
  omega

/-! ## The closed mesh -/

/-- The corners of a half-face, the vertex at infinity included. -/
def cornerSet? (m : Mesh) (h : HalfFace) : Option (Finset Vertex) :=
  (m.triangle? h).map (·.toList.toFinset)

/-- The mesh is that of some tetrahedra, closed by a ghost before each half-face of a hull. -/
structure ClosedBy (m : Mesh) (tets : List (Quad Vertex)) (hull : List HalfFace) : Prop where
  /-- The tetrahedra come first. They keep their corners, which have positions. -/
  real : ∀ {i : Nat} {nodes : Quad Vertex}, tets[i]? = some nodes →
    ∃ q, m.nodes[i]? = some q ∧ (q = nodes ∨ q = nodes.flip) ∧ ∃ p, m.tetPoints? q = some p
  /-- The ghosts come next, as many as the hull has half-faces. -/
  size_eq : m.size = tets.length + hull.length
  /-- The hull has the half-faces whose triangle is held by one tetrahedron only. -/
  mem_hull : ∀ {h : HalfFace}, h ∈ hull ↔ h.tet < tets.length ∧ ∃ corners,
    m.cornerSet? h = some corners ∧ ∀ (i : Nat) (nodes : Quad Vertex), tets[i]? = some nodes →
      (corners ⊆ nodes.toList.toFinset ↔ i = h.tet)
  /-- The half-faces of the hull are in ascending order. -/
  ascending : hull.Pairwise (·.raw < ·.raw)
  /-- The ghosts stand before them in this order, each with the vertex at infinity in slot 3 and
  nowhere else. -/
  ghost : ∀ {i : Nat} {h : HalfFace}, hull[i]? = some h →
    m.twin? ⟨tets.length + i, 3⟩ = some h ∧ m.twin? h = some ⟨tets.length + i, 3⟩ ∧
      ∃ t, m.triangle? h = some t ∧ m.nodes[tets.length + i]? = some (ghostNodes t) ∧
        ∀ slot, (ghostNodes t).get slot = Vertex.ghost ↔ slot = 3
  /-- Every half-face has a twin, which is another half-face and has it as its own twin. The two
  and no others have their three corners. -/
  twin : ∀ {h : HalfFace}, h.tet < m.size → ∃ k, m.twin? h = some k ∧ k.tet < m.size ∧ k ≠ h ∧
    m.twin? k = some h ∧ ∃ corners, m.cornerSet? h = some corners ∧ corners.card = 3 ∧
      ∀ j, m.cornerSet? j = some corners ↔ j = h ∨ j = k

theorem ghostNodes_get_eq_iff {t : Triple Vertex} (ht : Vertex.ghost ∉ t.toList) (slot : Slot) :
    (ghostNodes t).get slot = Vertex.ghost ↔ slot = 3 := by
  simp only [Triple.toList, List.mem_cons, List.not_mem_nil, or_false, not_or] at ht
  obtain ⟨h0, h1, h2⟩ := ht
  revert slot
  simp [Fin.forall_fin_succ, ghostNodes, Quad.get, Ne.symm h0, Ne.symm h1, Ne.symm h2]

theorem Closed.triangle?_nodup {m : Mesh} (hm : m.Closed) {h : HalfFace} {t : Triple Vertex}
    (ht : m.triangle? h = some t) : t.toList.Nodup := by
  obtain ⟨nodes, hn, rfl⟩ := Option.map_eq_some_iff.1 ht
  exact Quad.triangle_nodup (hm.nodup hn) _

/-- In a closed mesh the corners as a set are as good as the corners in ascending order. -/
theorem Closed.cornerSet?_eq_iff {m : Mesh} (hm : m.Closed) {h k : HalfFace} :
    m.cornerSet? k = m.cornerSet? h ↔
      (m.triangle? k).map Triple.sorted = (m.triangle? h).map Triple.sorted := by
  unfold cornerSet?
  cases hk : m.triangle? k with
  | none => simp
  | some u =>
    cases hh : m.triangle? h with
    | none => simp
    | some t =>
      have ht := hm.triangle?_nodup hh
      have hu := hm.triangle?_nodup hk
      rw [Option.map_some, Option.map_some, Option.map_some, Option.map_some, Option.some_inj,
        Option.some_inj, Triple.sorted_eq_sorted_iff]
      exact ⟨List.perm_of_nodup_nodup_toFinset_eq hu ht, List.toFinset_eq_of_perm _ _⟩

/-- A tetrahedron holds the corners of a half-face when one of its own half-faces has them. -/
theorem Closed.subset_iff {m : Mesh} (hm : m.Closed) {i : Nat} {q : Quad Vertex} {h : HalfFace}
    {t : Triple Vertex} (hq : m.nodes[i]? = some q) (ht : m.triangle? h = some t) :
    t.toList.toFinset ⊆ q.toList.toFinset ↔
      ∃ f, (m.triangle? ⟨i, f⟩).map Triple.sorted = (m.triangle? h).map Triple.sorted := by
  have hf : ∀ f, m.triangle? ⟨i, f⟩ = some (q.triangle f) := fun f => triangle?_eq hq
  simp only [hf, ht, Option.map_some, Option.some_inj, Triple.sorted_eq_sorted_iff]
  constructor
  · intro hsub
    obtain ⟨f, hperm⟩ := Quad.exists_facet (hm.nodup hq) (hm.triangle?_nodup ht) fun v hv =>
      List.mem_toFinset.1 (hsub (List.mem_toFinset.2 hv))
    exact ⟨f, hperm.symm⟩
  · rintro ⟨f, hperm⟩ v hv
    obtain ⟨j, -, hj⟩ := Quad.mem_triangle.1 (hperm.mem_iff.2 (List.mem_toFinset.1 hv))
    exact List.mem_toFinset.2 (Quad.mem_toList.2 ⟨j, hj⟩)

theorem cornerSet?_eq {m : Mesh} {h : HalfFace} {nodes : Quad Vertex}
    (hn : m.nodes[h.tet]? = some nodes) :
    m.cornerSet? h = some (nodes.triangle h.facet).toList.toFinset := by
  rw [cornerSet?, triangle?_eq hn, Option.map_some]

theorem lt_size_of_cornerSet? {m : Mesh} {h : HalfFace} {corners : Finset Vertex}
    (hc : m.cornerSet? h = some corners) : h.tet < m.size := by
  obtain ⟨t, ht, -⟩ := Option.map_eq_some_iff.1 hc
  exact lt_size_of_triangle? ht

namespace PairedBy

variable {m : Mesh} {real : Array (Quad Vertex)} {facetPairs : Pairing (Triple Vertex)}
  {rimPairs : Pairing (Vertex × Vertex)}

/-- The corners of a half-face are those of its own tetrahedron and of its neighbor. -/
theorem subset_iff (hm : m.PairedBy real facetPairs rimPairs) (hclosed : m.Closed) {i : Nat}
    {q nodes : Quad Vertex} {h : HalfFace} (hq : m.nodes[i]? = some q)
    (hn : m.nodes[h.tet]? = some nodes) :
    (nodes.triangle h.facet).toList.toFinset ⊆ q.toList.toFinset ↔
      i = h.tet ∨ i = (m.twin h).tet := by
  rw [hclosed.subset_iff hq (triangle?_eq hn)]
  constructor
  · rintro ⟨f, hsame⟩
    rcases hm.eq_or_eq_twin (lt_size_of_nodes hn) (lt_size_of_nodes hq) hsame with rfl | heq
    · exact .inl rfl
    · exact .inr (congrArg HalfFace.tet heq)
  · rintro (rfl | rfl)
    · exact ⟨h.facet, rfl⟩
    · exact ⟨(m.twin h).facet, hclosed.sorted_twin h⟩

/-- The hull has the triangles that one of the tetrahedra holds and no other. -/
theorem mem_hull_iff_held (hm : m.PairedBy real facetPairs rimPairs) (hclosed : m.Closed)
    {tets : List (Quad Vertex)} (hcount : real.size = tets.length)
    (hkeep : ∀ {i : Nat} {nodes : Quad Vertex}, tets[i]? = some nodes →
      ∃ q : Quad Vertex, m.nodes[i]? = some q ∧ q.toList.Perm nodes.toList) {h : HalfFace} :
    h ∈ facetPairs.unpaired.map (·.2) ↔ h.tet < tets.length ∧ ∃ corners,
      m.cornerSet? h = some corners ∧ ∀ (i : Nat) (nodes : Quad Vertex), tets[i]? = some nodes →
        (corners ⊆ nodes.toList.toFinset ↔ i = h.tet) := by
  rw [hm.mem_hull_iff, hcount]
  refine and_congr_right fun hlt => ?_
  have hh : h.tet < m.size := by
    have := hm.size_eq
    omega
  obtain ⟨mine, hn⟩ := exists_nodes hh
  have hset := cornerSet?_eq hn
  have hholds : ∀ i nodes, tets[i]? = some nodes →
      ((mine.triangle h.facet).toList.toFinset ⊆ nodes.toList.toFinset ↔
        i = h.tet ∨ i = (m.twin h).tet) := by
    intro i nodes hi
    obtain ⟨q, hq, hperm⟩ := hkeep hi
    rw [← List.toFinset_eq_of_perm _ _ hperm]
    exact hm.subset_iff hclosed hq hn
  constructor
  · intro hle
    refine ⟨_, hset, fun i nodes hi => (hholds i nodes hi).trans (or_iff_left fun he => ?_)⟩
    have := (List.getElem?_eq_some_iff.1 hi).1
    omega
  · rintro ⟨corners, hcorners, honly⟩
    obtain rfl := Option.some_inj.1 (hset.symm.trans hcorners)
    by_contra hle
    have hi := List.getElem?_eq_getElem (Nat.lt_of_not_le hle)
    exact hclosed.twin_tet_ne hh ((honly _ _ hi).1 ((hholds _ _ hi).2 (.inr rfl)))

/-- A ghost stands before each half-face of the hull. -/
theorem ghost_of_hull (hm : m.PairedBy real facetPairs rimPairs) (hclosed : m.Closed) {i : Nat}
    {h : HalfFace} (hi : (facetPairs.unpaired.map (·.2))[i]? = some h) :
    m.twin? ⟨real.size + i, 3⟩ = some h ∧ m.twin? h = some ⟨real.size + i, 3⟩ ∧
      ∃ t, m.triangle? h = some t ∧ m.nodes[real.size + i]? = some (ghostNodes t) ∧
        ∀ slot, (ghostNodes t).get slot = Vertex.ghost ↔ slot = 3 := by
  obtain ⟨q, hq, hghost⟩ := nodes_of_hull hm.facets hm.nodes hi
  obtain ⟨htwin, hback⟩ := hm.twin_of_hull hi
  have hn := nodes_of_real hm.nodes hq
  refine ⟨?_, ?_, q.triangle h.facet, triangle?_eq hn, hghost, ?_⟩
  · rw [hclosed.twin?_eq (lt_size_of_nodes hghost), hback]
  · rw [hclosed.twin?_eq (lt_size_of_nodes hn), htwin]
  · refine ghostNodes_get_eq_iff fun hmem => ?_
    obtain ⟨j, -, hj⟩ := Quad.mem_triangle.1 hmem
    exact hm.ghost q (Array.mem_toList_iff.2 (Array.mem_of_getElem? hq))
      (Quad.mem_toList.2 ⟨j, hj⟩)

/-- A triangle is held by a half-face, by its twin and by no other. -/
theorem exists_twin (hm : m.PairedBy real facetPairs rimPairs) (hclosed : m.Closed) {h : HalfFace}
    (hh : h.tet < m.size) : ∃ k, m.twin? h = some k ∧ k.tet < m.size ∧ k ≠ h ∧
      m.twin? k = some h ∧ ∃ corners, m.cornerSet? h = some corners ∧ corners.card = 3 ∧
        ∀ j, m.cornerSet? j = some corners ↔ j = h ∨ j = k := by
  obtain ⟨nodes, hn⟩ := exists_nodes hh
  have hset := cornerSet?_eq hn
  have hback := hclosed.twin?_eq (hclosed.twin_lt hh)
  rw [hclosed.twin_twin] at hback
  refine ⟨m.twin h, hclosed.twin?_eq hh, hclosed.twin_lt hh, hclosed.twin_ne hh, hback, _, hset,
    List.toFinset_card_of_nodup (hclosed.triangle?_nodup (triangle?_eq hn)), fun j => ?_⟩
  constructor
  · intro hj
    have hsame := hj.trans hset.symm
    exact hm.eq_or_eq_twin hh (lt_size_of_cornerSet? hj) (hclosed.cornerSet?_eq_iff.1 hsame)
  · rintro (rfl | rfl)
    · exact hset
    · exact (hclosed.cornerSet?_eq_iff.2 (hclosed.sorted_twin h)).trans hset

end PairedBy

/-- A closed mesh in which every triangle has two sides and no more. -/
structure TwoSided (m : Mesh) : Prop extends m.Closed where
  eq_or_eq_twin : ∀ {h k : HalfFace}, h.tet < m.size → k.tet < m.size →
    (m.triangle? k).map Triple.sorted = (m.triangle? h).map Triple.sorted → k = h ∨ k = m.twin h

theorem SameShape.twoSided {m m' : Mesh} (h : m.SameShape m') (hm : m.TwoSided) :
    m'.TwoSided where
  toClosed := h.closed hm.toClosed
  eq_or_eq_twin := by
    intro here k hh hk hsame
    rw [h.size_eq] at hh hk
    rw [h.triangle?_eq, h.triangle?_eq] at hsame
    rw [h.twin_eq]
    exact hm.eq_or_eq_twin hh hk hsame

theorem twoSided_of_ofTetrahedra [Orient3d] {vertices : Array Point} {tets : List (Quad Vertex)}
    {m : Mesh} (h : ofTetrahedra vertices tets = .ok m) : m.TwoSided := by
  obtain ⟨_, _, _, -, -, hm⟩ := exists_pairedBy h
  exact ⟨closed_of_ofTetrahedra h, hm.eq_or_eq_twin⟩

theorem vertices_of_ofTetrahedra [Orient3d] {vertices : Array Point} {tets : List (Quad Vertex)}
    {m : Mesh} (h : ofTetrahedra vertices tets = .ok m) : m.vertices = vertices := by
  obtain ⟨_, _, _, hvertices, -⟩ := exists_pairedBy h
  exact hvertices

/-- Building closes the tetrahedra. -/
theorem exists_closedBy [Orient3d] {vertices : Array Point} {tets : List (Quad Vertex)} {m : Mesh}
    (h : ofTetrahedra vertices tets = .ok m) : ∃ hull, m.ClosedBy tets hull := by
  have hclosed := closed_of_ofTetrahedra h
  obtain ⟨real, facetPairs, rimPairs, hvertices, horient, hm⟩ := exists_pairedBy h
  obtain ⟨hlen, hplaces⟩ := getElem?_orientAll horient
  have hcount : real.toArray.size = tets.length := by simpa using hlen
  have hreal : ∀ {i : Nat} {nodes : Quad Vertex}, tets[i]? = some nodes →
      ∃ q, m.nodes[i]? = some q ∧ orient vertices i nodes = .ok q := by
    intro i nodes hi
    obtain ⟨q, hq, ho⟩ := hplaces i nodes hi
    rw [Nat.zero_add] at ho
    exact ⟨q, nodes_of_real hm.nodes (by simpa using hq), ho⟩
  refine ⟨facetPairs.unpaired.map (·.2), ?_, hcount ▸ hm.size_eq, ?_, hm.ascending, ?_, ?_⟩
  · intro i nodes hi
    obtain ⟨q, hq, ho⟩ := hreal hi
    obtain ⟨p, hp, -⟩ := orient_negative ho
    rw [← hvertices] at hp
    exact ⟨q, hq, flip_of_orient ho, p, tetPoints?_eq_some_iff.2 hp⟩
  · refine hm.mem_hull_iff_held hclosed hcount fun hi => ?_
    obtain ⟨q, hq, ho⟩ := hreal hi
    exact ⟨q, hq, perm_of_orient ho⟩
  · intro i h hi
    rw [← hcount]
    exact hm.ghost_of_hull hclosed hi
  · intro h hh
    exact hm.exists_twin hclosed hh

/-- The tetrahedra of a mesh that was just built are negatively oriented where the signs of the test
are exact. -/
theorem negative_of_ofTetrahedra [Orient3d] {vertices : Array Point} {tets : List (Quad Vertex)}
    {m : Mesh} (h : ofTetrahedra vertices tets = .ok m) (hexact : Orient3d.ExactOn vertices)
    {i : Nat} {nodes : Quad Vertex} (hi : tets[i]? = some nodes) :
    ∃ q p, m.nodes[i]? = some q ∧ m.tetPoints? q = some p ∧ orientationOf p = .negative := by
  obtain ⟨real, facetPairs, rimPairs, hvertices, horient, hm⟩ := exists_pairedBy h
  obtain ⟨q, hq, ho⟩ := (getElem?_orientAll horient).2 i nodes hi
  obtain ⟨p, hp, hnegative⟩ := orient_negative ho
  rw [← hvertices] at hp
  exact ⟨q, p, nodes_of_real hm.nodes (by simpa using hq), tetPoints?_eq_some_iff.2 hp,
    hnegative (hexact.faithful (finite_of_ofTetrahedra h))⟩

/-- Building answers closed meshes, and all that checking can find in them is a fold. Where the
signs of the test are exact for the vertices, all their tetrahedra but the ghosts are negatively
oriented. -/
theorem ofTetrahedra_closes [Orient3d] {vertices : Array Point} {tets : List (Quad Vertex)}
    {m : Mesh} (h : ofTetrahedra vertices tets = .ok m) :
    m.vertices = vertices ∧ (∃ hull, m.ClosedBy tets hull) ∧
      (Orient3d.ExactOn vertices → ∀ i < tets.length, ∃ q p,
        m.nodes[i]? = some q ∧ m.tetPoints? q = some p ∧
          orientation p.s0 p.s1 p.s2 p.s3 = .negative) ∧
      (m.validate = .ok () ∨ ∃ tet neighbor, m.validate = refuse (.foldedFacet tet neighbor)) := by
  refine ⟨vertices_of_ofTetrahedra h, exists_closedBy h, fun hexact i hi => ?_,
    (closed_of_ofTetrahedra h).validate_cases⟩
  exact negative_of_ofTetrahedra h hexact (List.getElem?_eq_getElem hi)

/-- The corners of two tetrahedra with a common facet. -/
def pyramidCorners : Array Point :=
  #[⟨0, 0, 0⟩, ⟨1, 0, 0⟩, ⟨0, 1, 0⟩, ⟨0, 0, 1⟩, ⟨1, 1, 1⟩]

/-- Two tetrahedra with a common facet, of which the second has to be turned. -/
def pyramidTets : List (Quad Vertex) := [⟨0, 1, 2, 3⟩, ⟨1, 3, 2, 4⟩]

/-- The second of the two is turned, and then negatively oriented as the first is. -/
theorem ofTetrahedra_closes_pyramid : ∃ m, Orient3d.ExactOn pyramidCorners ∧
    ofTetrahedra pyramidCorners pyramidTets = .ok m ∧
    m.nodes.toList.take 2 = [⟨0, 1, 2, 3⟩, ⟨1, 3, 4, 2⟩] ∧ (∃ hull, m.ClosedBy pyramidTets hull) ∧
    ∀ i < 2, ∃ q p, m.nodes[i]? = some q ∧ m.tetPoints? q = some p ∧
      orientation p.s0 p.s1 p.s2 p.s3 = .negative := by
  obtain ⟨m, hm, hnodes⟩ : ∃ m, ofTetrahedra pyramidCorners pyramidTets = .ok m ∧
      m.nodes.toList.take 2 = [⟨0, 1, 2, 3⟩, ⟨1, 3, 4, 2⟩] :=
    exists_of_any (by decide +kernel)
  have hexact := (Orient3d.faithful_exact pyramidCorners).exactOn
  obtain ⟨-, hclosed, hnegative, -⟩ := ofTetrahedra_closes hm
  exact ⟨m, hexact, hm, hnodes, hclosed, hnegative hexact⟩

end Mesh

end CavityRepair
