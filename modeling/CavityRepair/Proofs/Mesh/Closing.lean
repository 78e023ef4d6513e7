import CavityRepair.Attempt
import CavityRepair.Proofs.Mesh.Pairing
/-!
# Building closes the mesh

`Mesh.close` links the facets of the real tetrahedra by their corners, the facets left over with the
ghosts before them, and the ghosts with each other by the hull edges they stand on. Together these
links join every half-face exactly once (`sidesOf_closingLinks`) and only half-faces with the same
corners, so a mesh that `Mesh.ofTetrahedra` answers is closed (`Mesh.closed_of_ofTetrahedra`).
-/
namespace CavityRepair

namespace Mesh

open scoped List

/-! ## Half-faces of a mesh -/

theorem mem_halfFaces {m : Mesh} {h : HalfFace} : h ∈ m.halfFaces ↔ h.tet < m.size := by
  simp [halfFaces, tets, HalfFace.mem_ofTet]

theorem nodup_flatMap_ofTet {tets : List Nat} (h : tets.Nodup) :
    (tets.flatMap HalfFace.ofTet).Nodup := by
  refine List.nodup_flatMap.2 ⟨fun tet _ => HalfFace.ofTet_nodup tet, ?_⟩
  refine h.pairwise_of_forall_ne ?_
  intro t _ u _ htu h ht hu
  exact htu ((HalfFace.mem_ofTet.1 ht).symm.trans (HalfFace.mem_ofTet.1 hu))

theorem halfFaces_nodup (m : Mesh) : m.halfFaces.Nodup := nodup_flatMap_ofTet List.nodup_range

theorem size_foldl_link (links : List (HalfFace × HalfFace)) (twins : Array (Quad HalfFace)) :
    (links.foldl link twins).size = twins.size := by
  induction links generalizing twins with
  | nil => rfl
  | cons pair rest ih => rw [List.foldl_cons, ih, size_link]

section

variable {m : Mesh} {links : List (HalfFace × HalfFace)}
  (hsides : (sidesOf links).Perm m.halfFaces)
  (htwins : m.twins = links.foldl link (Array.replicate m.size (Quad.replicate ⟨0, 0⟩)))

include hsides htwins

/-- When the links join every half-face once, the two of a link are twins. -/
theorem twin_of_link {a b : HalfFace} (hp : (a, b) ∈ links) :
    a.tet < m.size ∧ b.tet < m.size ∧ a ≠ b ∧ m.twin a = b ∧ m.twin b = a := by
  have hnodup : (sidesOf links).Nodup := hsides.nodup_iff.2 (halfFaces_nodup m)
  have hlt : ∀ h ∈ sidesOf links, h.tet < m.size := fun _ hh =>
    mem_halfFaces.1 (hsides.mem_iff.1 hh)
  have hne : a ≠ b := by
    have := (List.nodup_flatMap.1 hnodup).1 _ hp
    simpa using this
  have hlook := (@look_foldl_link _ (Array.replicate m.size (Quad.replicate ⟨0, 0⟩)) hnodup
    fun h hh => by simpa using hlt h hh).1 _ hp
  rw [← htwins] at hlook
  exact ⟨hlt a (mem_sidesOf.2 ⟨_, hp, .inl rfl⟩), hlt b (mem_sidesOf.2 ⟨_, hp, .inr rfl⟩), hne,
    congrArg (Option.getD · _) hlook.1, congrArg (Option.getD · _) hlook.2⟩

/-- When the links join every half-face once, each has a partner, and the two are twins. -/
theorem exists_partner {h : HalfFace} (hh : h.tet < m.size) :
    ∃ k, ((h, k) ∈ links ∨ (k, h) ∈ links) ∧ k.tet < m.size ∧ k ≠ h ∧ m.twin h = k ∧
      m.twin k = h := by
  obtain ⟨⟨a, b⟩, hp, hab⟩ := mem_sidesOf.1 (hsides.mem_iff.2 (mem_halfFaces.2 hh))
  obtain ⟨ha, hb, hne, htwin, hback⟩ := twin_of_link hsides htwins hp
  rcases hab with rfl | rfl
  · exact ⟨b, .inl hp, hb, hne.symm, htwin, hback⟩
  · exact ⟨a, .inr hp, ha, hne, hback, htwin⟩

/-- Links that join every half-face once, and only such with the same corners, make a mesh
closed. -/
theorem closed_of_links (hflags : m.flags.size = m.size) (hcolors : m.colors.size = m.size)
    (hsame : ∀ pair ∈ links,
      (m.triangle? pair.1).map Triple.sorted = (m.triangle? pair.2).map Triple.sorted)
    (hcorners : ∀ {tet : Nat} {nodes : Quad Vertex}, m.nodes[tet]? = some nodes →
      nodes.toList.Nodup) : m.Closed := by
  have hsize : m.twins.size = m.size := by
    rw [htwins, size_foldl_link, Array.size_replicate]
  have hout : ∀ {h : HalfFace}, ¬h.tet < m.size → m.twin h = h :=
    fun hh => twin_eq_self (hsize ▸ Nat.le_of_not_lt hh)
  have hpartner := @exists_partner m links hsides htwins
  refine ⟨⟨⟨hsize, hflags, hcolors, ?_⟩, ?_, ?_⟩, hcorners, ?_⟩
  · intro h hh
    obtain ⟨k, -, hk, -, rfl, -⟩ := hpartner hh
    exact hk
  · intro h
    by_cases hh : h.tet < m.size
    · obtain ⟨k, -, -, -, rfl, hback⟩ := hpartner hh
      exact hback
    · rw [hout hh, hout hh]
  · intro h
    by_cases hh : h.tet < m.size
    · obtain ⟨k, hp | hp, -, -, rfl, -⟩ := hpartner hh
      · exact (hsame _ hp).symm
      · exact hsame _ hp
    · rw [hout hh]
  · intro h hh
    obtain ⟨k, -, -, hne, rfl, -⟩ := hpartner hh
    exact hne

end

/-! ## The links that close a mesh -/

theorem facetKeys_map_snd (first : Nat) (tets : List (Quad Vertex)) :
    (facetKeys first tets).map (·.2) =
      (List.range' first tets.length).flatMap HalfFace.ofTet := by
  induction tets generalizing first with
  | nil => rfl
  | cons nodes rest ih =>
    simp only [facetKeys, List.map_append, ih, List.length_cons, List.range'_succ,
      List.flatMap_cons]
    rfl

/-- The half-faces of a ghost that join it to other ghosts. -/
def rimOf (tet : Nat) : List HalfFace := [⟨tet, 0⟩, ⟨tet, 1⟩, ⟨tet, 2⟩]

theorem rimKeys_map_snd (first : Nat) (ghosts : List (Quad Vertex)) :
    (rimKeys first ghosts).map (·.2) = (List.range' first ghosts.length).flatMap rimOf := by
  induction ghosts generalizing first with
  | nil => rfl
  | cons ghost rest ih =>
    simp only [rimKeys, List.map_append, ih, List.length_cons, List.range'_succ, List.flatMap_cons]
    rfl

theorem sidesOf_hullLinks (first : Nat) (hull : List HalfFace) :
    (sidesOf (hullLinks first hull)).Perm
      (hull ++ (List.range' first hull.length).flatMap fun tet => [⟨tet, 3⟩]) := by
  induction hull generalizing first with
  | nil => exact .refl _
  | cons h rest ih =>
    rw [hullLinks, sidesOf_cons, List.length_cons, List.range'_succ, List.flatMap_cons,
      List.cons_append]
    refine .cons _ (((ih (first + 1)).cons _).trans ?_)
    exact List.perm_middle.symm

/-- The corners at a key of `facetKeys` are those of the half-face. -/
theorem mem_facetKeys {first : Nat} {tets : List (Quad Vertex)} {key : Triple Vertex} {h : HalfFace}
    (hk : (key, h) ∈ facetKeys first tets) :
    ∃ i nodes, h.tet = first + i ∧ tets[i]? = some nodes ∧
      key = (nodes.triangle h.facet).sorted := by
  induction tets generalizing first with
  | nil => simp [facetKeys] at hk
  | cons nodes rest ih =>
    rw [facetKeys, List.mem_append, List.mem_map] at hk
    rcases hk with ⟨f, -, he⟩ | hk
    · cases he
      exact ⟨0, nodes, rfl, rfl, rfl⟩
    · obtain ⟨i, nodes', htet, hi, hkey⟩ := ih hk
      exact ⟨i + 1, nodes', by omega, by simpa using hi, hkey⟩

/-- A ghost's half-face at the rim has the corners of its key and the vertex in slot 3. -/
theorem mem_rimKeys {first : Nat} {ghosts : List (Quad Vertex)} {key : Vertex × Vertex}
    {h : HalfFace} (hk : (key, h) ∈ rimKeys first ghosts) :
    ∃ i ghost, h.tet = first + i ∧ ghosts[i]? = some ghost ∧
      (ghost.triangle h.facet).toList.Perm [key.1, key.2, ghost.s3] := by
  induction ghosts generalizing first with
  | nil => simp [rimKeys] at hk
  | cons ghost rest ih =>
    rw [rimKeys, List.mem_append] at hk
    rcases hk with hk | hk
    · have hpair : ∀ a b : Vertex, [a, b, ghost.s3].Perm
          [(Vertex.pair a b).1, (Vertex.pair a b).2, ghost.s3] := fun a b =>
        (Vertex.pair_perm a b).symm.append_right [ghost.s3]
      simp only [List.mem_cons, Prod.mk.injEq, List.not_mem_nil, or_false] at hk
      rcases hk with ⟨rfl, rfl⟩ | ⟨rfl, rfl⟩ | ⟨rfl, rfl⟩
      · exact ⟨0, ghost, rfl, rfl, (List.Perm.swap _ _ _).trans (hpair ghost.s1 ghost.s2)⟩
      · exact ⟨0, ghost, rfl, rfl, (List.Perm.swap _ _ _).trans (hpair ghost.s2 ghost.s0)⟩
      · exact ⟨0, ghost, rfl, rfl, (List.Perm.swap _ _ _).trans (hpair ghost.s0 ghost.s1)⟩
    · obtain ⟨i, ghost', htet, hi, hkey⟩ := ih hk
      exact ⟨i + 1, ghost', by omega, by simpa using hi, hkey⟩

theorem mem_hullLinks {first : Nat} {hull : List HalfFace} {pair : HalfFace × HalfFace}
    (hp : pair ∈ hullLinks first hull) : ∃ i, hull[i]? = some pair.1 ∧ pair.2 = ⟨first + i, 3⟩ := by
  induction hull generalizing first with
  | nil => simp [hullLinks] at hp
  | cons h rest ih =>
    rw [hullLinks, List.mem_cons] at hp
    rcases hp with rfl | hp
    · exact ⟨0, rfl, rfl⟩
    · obtain ⟨i, hi, he⟩ := ih hp
      exact ⟨i + 1, by simpa using hi, by rw [he]; congr 1; omega⟩

theorem mem_hullLinks_of_getElem? {first : Nat} {hull : List HalfFace} {i : Nat} {h : HalfFace}
    (hi : hull[i]? = some h) : (h, ⟨first + i, 3⟩) ∈ hullLinks first hull := by
  induction hull generalizing first i with
  | nil => simp at hi
  | cons k rest ih =>
    rw [hullLinks, List.mem_cons]
    cases i with
    | zero =>
      cases hi
      exact .inl rfl
    | succ i =>
      have hi : rest[i]? = some h := by simpa using hi
      have := @ih (first + 1) i hi
      rw [Nat.add_right_comm] at this
      exact .inr this

/-- Every half-face of the hull has its ghost. -/
theorem getElem?_ghostsOf {nodes : Array (Quad Vertex)} {hull : List HalfFace}
    (hlt : ∀ h ∈ hull, h.tet < nodes.size) (i : Nat) :
    (ghostsOf nodes hull)[i]? = hull[i]?.bind fun h =>
      nodes[h.tet]?.map fun q => ghostNodes (q.triangle h.facet) := by
  induction hull generalizing i with
  | nil => simp [ghostsOf]
  | cons h rest ih =>
    have ih := ih fun k hk => hlt k (List.mem_cons_of_mem h hk)
    have hh := Array.getElem?_eq_getElem (hlt h List.mem_cons_self)
    unfold ghostsOf at ih ⊢
    rw [List.filterMap_cons_some (by rw [hh]; rfl)]
    cases i with
    | zero => simp [hh]
    | succ i => simpa using ih i

theorem length_ghostsOf {nodes : Array (Quad Vertex)} {hull : List HalfFace}
    (hlt : ∀ h ∈ hull, h.tet < nodes.size) : (ghostsOf nodes hull).length = hull.length := by
  induction hull with
  | nil => rfl
  | cons h rest ih =>
    have hh := Array.getElem?_eq_getElem (hlt h List.mem_cons_self)
    have ih := ih fun k hk => hlt k (List.mem_cons_of_mem h hk)
    unfold ghostsOf at ih ⊢
    rw [List.filterMap_cons_some (by rw [hh]; rfl), List.length_cons, List.length_cons, ih]

theorem leastPair_eq_none_iff {pairs : List (Vertex × Vertex)} :
    leastPair pairs = none ↔ pairs = [] := by
  cases pairs with
  | nil => simp [leastPair]
  | cons pair rest =>
    unfold leastPair
    cases leastPair rest with
    | none => simp
    | some other =>
      dsimp only
      split <;> simp

theorem mem_of_leastPair {pairs : List (Vertex × Vertex)} {pair : Vertex × Vertex}
    (h : leastPair pairs = some pair) : pair ∈ pairs := by
  induction pairs generalizing pair with
  | nil => cases h
  | cons first rest ih =>
    unfold leastPair at h
    cases hrest : leastPair rest with
    | none =>
      rw [hrest] at h
      cases h
      exact List.mem_cons_self
    | some other =>
      simp only [hrest] at h
      split at h
      · cases h
        exact List.mem_cons_self
      · cases h
        exact List.mem_cons_of_mem _ (ih hrest)

/-- The links that close a mesh: between real tetrahedra, to the ghosts, and between ghosts. -/
def closingLinks (first : Nat) (facetPairs : Pairing (Triple Vertex))
    (rimPairs : Pairing (Vertex × Vertex)) : List (HalfFace × HalfFace) :=
  facetPairs.links ++ hullLinks first (facetPairs.unpaired.map (·.2)) ++ rimPairs.links

/-- What a successful closing goes through. -/
theorem close_eq_ok {vertices : Array Point} {real : Array (Quad Vertex)} {m : Mesh}
    (h : close vertices real = .ok m) : ∃ facetPairs rimPairs,
      Pairing.empty.addAll (facetKeys 0 real.toList) = .ok facetPairs ∧
      Pairing.empty.addAll
        (rimKeys real.size (ghostsOf real (facetPairs.unpaired.map (·.2)))) = .ok rimPairs ∧
      rimPairs.waiting = [] ∧
      m.vertices = vertices ∧
      m.nodes = real ++ ghostsOf real (facetPairs.unpaired.map (·.2)) ∧
      m.twins = (closingLinks real.size facetPairs rimPairs).foldl link
        (Array.replicate m.size (Quad.replicate ⟨0, 0⟩)) ∧
      m.flags = Array.replicate m.size TetFlags.empty ∧
      m.colors = Array.replicate m.size 0 := by
  unfold close at h
  obtain ⟨facetPairs, hfacets, h⟩ := bind_eq_ok_iff.1 h
  obtain ⟨rimPairs, hrims, h⟩ := bind_eq_ok_iff.1 h
  rw [mapError_eq_ok_iff] at hfacets hrims
  refine ⟨facetPairs, rimPairs, hfacets, hrims, ?_⟩
  split at h
  · cases h
  · rename_i hleast
    rw [leastPair_eq_none_iff, List.map_eq_nil_iff] at hleast
    cases h
    have hsize : (real ++ ghostsOf real (facetPairs.unpaired.map (·.2))).size =
        real.size + (ghostsOf real (facetPairs.unpaired.map (·.2))).length := by
      rw [← Array.length_toList, Array.toList_appendList, List.length_append, Array.length_toList]
    refine ⟨hleast, rfl, rfl, ?_, ?_, ?_⟩ <;> simp only [size, hsize, closingLinks]

section

variable {real : Array (Quad Vertex)} {facetPairs : Pairing (Triple Vertex)}
  {rimPairs : Pairing (Vertex × Vertex)}
  (hfacets : Pairing.empty.addAll (facetKeys 0 real.toList) = .ok facetPairs)
  (hrims : Pairing.empty.addAll
    (rimKeys real.size (ghostsOf real (facetPairs.unpaired.map (·.2)))) = .ok rimPairs)
  (hwaiting : rimPairs.waiting = [])

include hfacets

/-- The paired facets and the hull are together all facets of the real tetrahedra. -/
theorem facetPairs_perm : (sidesOf facetPairs.links ++ facetPairs.unpaired.map (·.2)).Perm
    ((List.range' 0 real.size).flatMap HalfFace.ofTet) := by
  have := (Pairing.entries_of_addAll_empty hfacets).map (·.2)
  rw [facetKeys_map_snd, Array.length_toList] at this
  exact facetPairs.entries_map_snd.symm.trans this

theorem hull_lt {h : HalfFace} (hh : h ∈ facetPairs.unpaired.map (·.2)) : h.tet < real.size := by
  have := (facetPairs_perm hfacets).mem_iff.1 (List.mem_append_right _ hh)
  obtain ⟨tet, ht, hmem⟩ := List.mem_flatMap.1 this
  rw [HalfFace.mem_ofTet.1 hmem]
  simpa using ht

include hrims hwaiting

/-- The paired rims are together all half-faces that join ghosts. -/
theorem rimPairs_perm : (sidesOf rimPairs.links).Perm
    ((List.range' real.size (facetPairs.unpaired.map (·.2)).length).flatMap rimOf) := by
  have := (Pairing.entries_of_addAll_empty hrims).map (·.2)
  rw [rimKeys_map_snd, length_ghostsOf fun _ => hull_lt hfacets] at this
  have hunpaired : rimPairs.unpaired = [] := by
    unfold Pairing.unpaired
    rw [hwaiting, List.reverse_nil]
  have hsides := rimPairs.entries_map_snd
  rw [hunpaired, List.map_nil, List.append_nil] at hsides
  exact hsides.symm.trans this

/-- The closing links join every half-face of the mesh once. -/
theorem sidesOf_closingLinks : (sidesOf (closingLinks real.size facetPairs rimPairs)).Perm
    ((List.range (real.size + (facetPairs.unpaired.map (·.2)).length)).flatMap HalfFace.ofTet) := by
  have hreal := facetPairs_perm hfacets
  have hrim := rimPairs_perm hfacets hrims hwaiting
  have hlinks := sidesOf_hullLinks real.size (facetPairs.unpaired.map (·.2))
  unfold closingLinks
  rw [sidesOf_append, sidesOf_append]
  generalize facetPairs.unpaired.map (·.2) = hull at hreal hrim hlinks ⊢
  have hghosts := List.flatMap_append_perm (List.range' real.size hull.length) rimOf
    fun tet => [(⟨tet, 3⟩ : HalfFace)]
  generalize (List.range' real.size hull.length).flatMap
      (fun tet => [(⟨tet, 3⟩ : HalfFace)]) = front
    at hlinks hghosts
  calc
    sidesOf facetPairs.links ++ sidesOf (hullLinks real.size hull) ++ sidesOf rimPairs.links
        ~ sidesOf facetPairs.links ++ (hull ++ front) ++ sidesOf rimPairs.links :=
      (hlinks.append_left _).append_right _
    _ = sidesOf facetPairs.links ++ hull ++ (front ++ sidesOf rimPairs.links) := by
      simp only [List.append_assoc]
    _ ~ (List.range' 0 real.size).flatMap HalfFace.ofTet ++
          ((List.range' real.size hull.length).flatMap rimOf ++ front) :=
      hreal.append (List.perm_append_comm.trans (hrim.append_right _))
    _ ~ (List.range' 0 real.size).flatMap HalfFace.ofTet ++
          (List.range' real.size hull.length).flatMap HalfFace.ofTet := hghosts.append_left _
    _ = (List.range (real.size + hull.length)).flatMap HalfFace.ofTet := by
      have := @List.range'_append_1 0 real.size hull.length
      rw [Nat.zero_add] at this
      rw [← List.flatMap_append, List.range_eq_range', this]

end

/-! ## Corners -/

theorem getElem?_append_real {real : Array (Quad Vertex)} {ghosts : List (Quad Vertex)} {i : Nat}
    (hi : i < real.size) : (real ++ ghosts)[i]? = real[i]? := by
  rw [← Array.getElem?_toList, Array.toList_appendList,
    List.getElem?_append_left (by simpa using hi),
    Array.getElem?_toList]

theorem getElem?_append_ghosts (real : Array (Quad Vertex)) (ghosts : List (Quad Vertex))
    (i : Nat) :
    (real ++ ghosts)[real.size + i]? = ghosts[i]? := by
  rw [← Array.getElem?_toList, Array.toList_appendList, List.getElem?_append_right (by simp)]
  simp

/-- A ghost is the ghost before some half-face of the hull. -/
theorem exists_of_getElem?_ghostsOf {nodes : Array (Quad Vertex)} {hull : List HalfFace}
    (hlt : ∀ h ∈ hull, h.tet < nodes.size) {i : Nat} {ghost : Quad Vertex}
    (hg : (ghostsOf nodes hull)[i]? = some ghost) :
    ∃ h q, hull[i]? = some h ∧ nodes[h.tet]? = some q ∧
      ghost = ghostNodes (q.triangle h.facet) := by
  rw [getElem?_ghostsOf hlt, Option.bind_eq_some_iff] at hg
  obtain ⟨h, hh, hg⟩ := hg
  obtain ⟨q, hq, rfl⟩ := Option.map_eq_some_iff.1 hg
  exact ⟨h, q, hh, hq, rfl⟩

section

variable {m : Mesh} {real : Array (Quad Vertex)} {facetPairs : Pairing (Triple Vertex)}
  {rimPairs : Pairing (Vertex × Vertex)}
  (hfacets : Pairing.empty.addAll (facetKeys 0 real.toList) = .ok facetPairs)
  (hrims : Pairing.empty.addAll
    (rimKeys real.size (ghostsOf real (facetPairs.unpaired.map (·.2)))) = .ok rimPairs)
  (hnodes : m.nodes = real ++ ghostsOf real (facetPairs.unpaired.map (·.2)))

include hnodes

theorem nodes_of_real {i : Nat} {nodes : Quad Vertex} (hi : real[i]? = some nodes) :
    m.nodes[i]? = some nodes := by
  rw [hnodes, getElem?_append_real (Array.getElem?_eq_some_iff.1 hi).1, hi]

include hfacets

/-- Behind the real tetrahedra, every half-face of the hull has its ghost in turn. -/
theorem nodes_of_hull {i : Nat} {h : HalfFace}
    (hi : (facetPairs.unpaired.map (·.2))[i]? = some h) :
    ∃ q, real[h.tet]? = some q ∧
      m.nodes[real.size + i]? = some (ghostNodes (q.triangle h.facet)) := by
  have hlt : ∀ h ∈ facetPairs.unpaired.map (·.2), h.tet < real.size := fun _ => hull_lt hfacets
  obtain ⟨q, hq⟩ : ∃ q, real[h.tet]? = some q :=
    ⟨_, Array.getElem?_eq_getElem (hlt h (List.mem_of_getElem? hi))⟩
  refine ⟨q, hq, ?_⟩
  rw [hnodes, getElem?_append_ghosts, getElem?_ghostsOf hlt, hi, Option.bind_some, hq,
    Option.map_some]

theorem size_of_nodes : m.size = real.size + (facetPairs.unpaired.map (·.2)).length := by
  unfold size
  rw [hnodes, ← Array.length_toList, Array.toList_appendList, List.length_append,
    length_ghostsOf fun _ => hull_lt hfacets, Array.length_toList]

/-- The key of a real half-face is its triangle. -/
theorem sorted_of_facetPairs {key : Triple Vertex} {h : HalfFace}
    (hmem : (key, h) ∈ facetPairs.entries) :
    (m.triangle? h).map Triple.sorted = some key := by
  obtain ⟨i, nodes, htet, hi, rfl⟩ :=
    mem_facetKeys ((Pairing.entries_of_addAll_empty hfacets).mem_iff.1 hmem)
  rw [Nat.zero_add] at htet
  rw [Array.getElem?_toList] at hi
  rw [triangle?_eq (htet ▸ nodes_of_real hnodes hi), Option.map_some]

include hrims

/-- The key of a half-face between ghosts is its triangle without the vertex at infinity. -/
theorem sorted_of_rimPairs {key : Vertex × Vertex} {h : HalfFace}
    (hmem : (key, h) ∈ rimPairs.entries) :
    (m.triangle? h).map Triple.sorted = some (Triple.sorted ⟨key.1, key.2, Vertex.ghost⟩) := by
  obtain ⟨i, ghost, htet, hi, hperm⟩ :=
    mem_rimKeys ((Pairing.entries_of_addAll_empty hrims).mem_iff.1 hmem)
  obtain ⟨k, q, -, -, rfl⟩ := exists_of_getElem?_ghostsOf (fun _ => hull_lt hfacets) hi
  have hghost : m.nodes[h.tet]? = some (ghostNodes (q.triangle k.facet)) := by
    rw [htet, hnodes, getElem?_append_ghosts, hi]
  rw [triangle?_eq hghost, Option.map_some, Option.some_inj, Triple.sorted_eq_sorted_iff]
  exact hperm

/-- The closing links join half-faces with the same corners. -/
theorem sorted_closingLinks {pair : HalfFace × HalfFace}
    (hp : pair ∈ closingLinks real.size facetPairs rimPairs) :
    (m.triangle? pair.1).map Triple.sorted = (m.triangle? pair.2).map Triple.sorted := by
  unfold closingLinks at hp
  rw [List.mem_append, List.mem_append] at hp
  rcases hp with (hp | hp) | hp
  · -- Facets are paired by their corners.
    obtain ⟨key, h1, h2⟩ := Pairing.entries_of_links hp
    rw [sorted_of_facetPairs hfacets hnodes h1, sorted_of_facetPairs hfacets hnodes h2]
  · -- A ghost turns the corners of its hull triangle around.
    obtain ⟨h, h'⟩ := pair
    obtain ⟨i, hi, rfl⟩ := mem_hullLinks hp
    obtain ⟨q, hq, hghost⟩ := nodes_of_hull hfacets hnodes hi
    rw [triangle?_eq (nodes_of_real hnodes hq), triangle?_eq hghost, Option.map_some,
      Option.map_some, Option.some_inj, Triple.sorted_eq_sorted_iff]
    exact .cons _ (.swap _ _ _)
  · -- Rims are paired by their hull edges, and all ghosts have the same vertex in slot 3.
    obtain ⟨key, h1, h2⟩ := Pairing.entries_of_links hp
    rw [sorted_of_rimPairs hfacets hrims hnodes h1, sorted_of_rimPairs hfacets hrims hnodes h2]

end

/-- What is checked of the corners of an input tetrahedron. -/
def GoodCorners (vertices : Array Point) (nodes : Quad Vertex) : Prop :=
  nodes.toList.Nodup ∧ ∀ v ∈ nodes.toList, v.toNat < vertices.size

theorem cornerPoint_eq_ok_iff {vertices : Array Point} {tet : Nat} {v : Vertex} {p : Point} :
    cornerPoint vertices tet v = .ok p ↔ vertices[v.toNat]? = some p := by
  unfold cornerPoint
  split <;> simp_all

theorem orient_eq_ok [Orient3d] {vertices : Array Point} {tet : Nat} {nodes q : Quad Vertex}
    (h : orient vertices tet nodes = .ok q) : GoodCorners vertices q := by
  unfold orient at h
  simp only [bind_eq_ok_iff, cornerPoint_eq_ok_iff] at h
  obtain ⟨a, ha, b, hb, c, hc, d, hd, h⟩ := h
  have hlt : ∀ v ∈ nodes.toList, v.toNat < vertices.size := by
    intro v hv
    simp only [Quad.toList, List.mem_cons, List.not_mem_nil, or_false] at hv
    rcases hv with rfl | rfl | rfl | rfl
    · exact (Array.getElem?_eq_some_iff.1 ha).1
    · exact (Array.getElem?_eq_some_iff.1 hb).1
    · exact (Array.getElem?_eq_some_iff.1 hc).1
    · exact (Array.getElem?_eq_some_iff.1 hd).1
  split at h
  · cases h
  · rename_i hnodup
    rw [Classical.not_not] at hnodup
    split at h
    · cases h
      exact ⟨hnodup, hlt⟩
    · cases h
      have hflip := Quad.flip_perm nodes
      exact ⟨hflip.nodup_iff.2 hnodup, fun v hv => hlt v (hflip.mem_iff.1 hv)⟩
    · cases h

theorem orientAll_eq_ok [Orient3d] {vertices : Array Point} {tet : Nat}
    {tets real : List (Quad Vertex)} (h : orientAll vertices tet tets = .ok real) :
    ∀ nodes ∈ real, GoodCorners vertices nodes := by
  induction tets generalizing tet real with
  | nil =>
    cases h
    simp
  | cons nodes rest ih =>
    unfold orientAll at h
    obtain ⟨first, hfirst, h⟩ := bind_eq_ok_iff.1 h
    obtain ⟨others, hothers, h⟩ := bind_eq_ok_iff.1 h
    cases h
    rintro q (_ | ⟨_, hq⟩)
    · exact orient_eq_ok hfirst
    · exact ih hothers q hq

/-- A ghost has three vertices of its triangle and the vertex at infinity. -/
theorem ghostNodes_nodup {t : Triple Vertex} (ht : t.toList.Nodup)
    (hghost : Vertex.ghost ∉ t.toList) :
    (ghostNodes t).toList.Nodup := by
  have hperm : (ghostNodes t).toList.Perm (Vertex.ghost :: t.toList) :=
    (List.Perm.append_right [Vertex.ghost] (.cons t.c0 (.swap t.c1 t.c2 []))).trans
      (List.perm_append_singleton _ _)
  exact hperm.nodup_iff.2 (List.nodup_cons.2 ⟨hghost, ht⟩)

/-- The ghosts before good tetrahedra have four different corners. -/
theorem nodup_of_mem_ghostsOf {vertices : Array Point} {real : Array (Quad Vertex)}
    (hsize : vertices.size ≤ Vertex.ghost.toNat)
    (hreal : ∀ nodes ∈ real.toList, GoodCorners vertices nodes) {hull : List HalfFace}
    (hlt : ∀ h ∈ hull, h.tet < real.size) {ghost : Quad Vertex} (hg : ghost ∈ ghostsOf real hull) :
    ghost.toList.Nodup := by
  obtain ⟨i, hi⟩ := List.mem_iff_getElem?.1 hg
  obtain ⟨k, q, -, hq, rfl⟩ := exists_of_getElem?_ghostsOf hlt hi
  have hgood := hreal q (Array.mem_toList_iff.2 (Array.mem_of_getElem? hq))
  refine ghostNodes_nodup (Quad.triangle_nodup hgood.1 _) fun hmem => ?_
  obtain ⟨j, -, hj⟩ := Quad.mem_triangle.1 hmem
  have := hgood.2 _ (Quad.mem_toList.2 ⟨j, hj⟩)
  omega

/-- The mesh that closing makes of good tetrahedra is closed. -/
theorem closed_of_close {vertices : Array Point} {real : Array (Quad Vertex)} {m : Mesh}
    (hsize : vertices.size ≤ Vertex.ghost.toNat)
    (hreal : ∀ nodes ∈ real.toList, GoodCorners vertices nodes) (h : close vertices real = .ok m) :
    m.Closed := by
  obtain ⟨facetPairs, rimPairs, hfacets, hrims, hwaiting, -, hnodes, htwins, hflags, hcolors⟩ :=
    close_eq_ok h
  have hsides := sidesOf_closingLinks hfacets hrims hwaiting
  rw [← size_of_nodes hfacets hnodes] at hsides
  refine closed_of_links hsides htwins (by simp [hflags]) (by simp [hcolors])
    (fun pair => sorted_closingLinks hfacets hrims hnodes) ?_
  intro tet nodes hn
  rw [hnodes] at hn
  by_cases htet : tet < real.size
  · rw [getElem?_append_real htet] at hn
    exact (hreal _ (Array.mem_toList_iff.2 (Array.mem_of_getElem? hn))).1
  · obtain ⟨i, rfl⟩ := Nat.exists_eq_add_of_le (Nat.le_of_not_lt htet)
    rw [getElem?_append_ghosts] at hn
    exact nodup_of_mem_ghostsOf hsize hreal (fun _ => hull_lt hfacets) (List.mem_of_getElem? hn)

/-- What a successful building goes through. -/
theorem ofTetrahedra_eq_ok [Orient3d] {vertices : Array Point} {tets : List (Quad Vertex)}
    {m : Mesh} (h : ofTetrahedra vertices tets = .ok m) : vertices.size < Vertex.ghost.toNat ∧
      ∃ real, orientAll vertices 0 tets = .ok real ∧ close vertices real.toArray = .ok m := by
  unfold ofTetrahedra at h
  by_cases hsize : Vertex.ghost.toNat ≤ vertices.size
  · simp [hsize, bind, Except.bind] at h
  · simp only [if_neg hsize, bind_eq_ok_iff] at h
    obtain ⟨_, -, real, hreal, h⟩ := h
    exact ⟨by omega, real, hreal, h⟩

/-- Building answers closed meshes only. -/
theorem closed_of_ofTetrahedra [Orient3d] {vertices : Array Point} {tets : List (Quad Vertex)}
    {m : Mesh} (h : ofTetrahedra vertices tets = .ok m) : m.Closed := by
  obtain ⟨hsize, real, hreal, h⟩ := ofTetrahedra_eq_ok h
  exact closed_of_close (by omega) (by simpa using orientAll_eq_ok hreal) h

/-- A mesh that was just built has no marks. -/
theorem marked?_of_ofTetrahedra [Orient3d] {vertices : Array Point} {tets : List (Quad Vertex)}
    {m : Mesh} (h : ofTetrahedra vertices tets = .ok m) (tet : Nat) (mark : TetMark) :
    m.marked? tet mark ≠ some true := by
  obtain ⟨-, real, -, h⟩ := ofTetrahedra_eq_ok h
  obtain ⟨_, _, -, -, -, -, -, -, hflags, -⟩ := close_eq_ok h
  unfold marked?
  rw [hflags, Array.getElem?_replicate]
  split <;> simp

end Mesh

end CavityRepair
