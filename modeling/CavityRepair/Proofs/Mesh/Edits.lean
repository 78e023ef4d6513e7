import CavityRepair.Mesh.Constrain
import CavityRepair.Proofs.Mesh.Closing
/-!
# Edits of a mesh

`MeshEdit` names the changes of a mesh that leave its tetrahedra as they are, and `Mesh.Built` the
meshes that building and any number of edits give, together with the edits. Vertices and constraints
are only ever added.

* `Mesh.Built.sound`: a mesh that was built and edited is sound.
* `Mesh.Built.marked_of_constrainEdge`: an edge that was constrained stays marked in all tetrahedra
  that have it, and there are some.
-/
namespace CavityRepair

/-- A change of a mesh that keeps its tetrahedra. -/
inductive MeshEdit where
  | addVertex (p : Point)
  | constrainEdge (a b : Vertex)
  | constrainFacet (a b c : Vertex)
  | delete (tet : Nat)
  | undelete (tet : Nat)
  | setColor (tet : Nat) (color : UInt16)
  deriving DecidableEq, Repr

/-- Whether an edit sets constraints. -/
def MeshEdit.constrains : MeshEdit → Bool
  | .constrainEdge .. | .constrainFacet .. => true
  | _ => false

/-- Whether an edit sets or clears the mark of a deleted tetrahedron by hand. -/
def MeshEdit.deletes : MeshEdit → Bool
  | .delete _ | .undelete _ => true
  | _ => false

namespace Mesh

/-- The mesh after an edit. -/
def edit (m : Mesh) : MeshEdit → Attempt MeshError Mesh
  | .addVertex p => do
    let (m, _) ← (m.addVertex p).mapError .refused
    return m
  | .constrainEdge a b => do
    let (m, _) ← m.constrainEdge a b
    return m
  | .constrainFacet a b c => m.constrainFacet a b c
  | .delete tet => m.delete tet
  | .undelete tet => m.undelete tet
  | .setColor tet color => m.setColor tet color

/-- The mesh after some edits in order. -/
def editAll (m : Mesh) : List MeshEdit → Attempt MeshError Mesh
  | [] => .ok m
  | edit :: rest => do (← m.edit edit).editAll rest

/-- The meshes that come from tetrahedra by some edits, the latest first. -/
inductive Built [Orient3d] : List MeshEdit → Mesh → Prop where
  | closed {vertices : Array Point} {tets : List (Quad Vertex)} {m : Mesh} :
      ofTetrahedra vertices tets = .ok m → Built [] m
  | edited {edits : List MeshEdit} {m m' : Mesh} {edit : MeshEdit} :
      Built edits m → m.edit edit = .ok m' → Built (edit :: edits) m'

/-! ## What edits keep -/

/-- Two meshes of which the second has the marks of the first and possibly more. -/
structure MoreMarked (m m' : Mesh) (marks : List (Nat × TetMark)) : Prop
    extends m.SameShape m' where
  vertices : m'.vertices = m.vertices
  marked? : ∀ tet mark,
    m'.marked? tet mark = (m.marked? tet mark).map (· || decide ((tet, mark) ∈ marks))

variable {m m' : Mesh}

theorem markAll_eq_ok {ε : Type} {marks : List (Nat × TetMark)}
    (h : (m.markAll marks : Attempt ε Mesh) = .ok m') : m.MoreMarked m' marks := by
  induction marks generalizing m with
  | nil =>
    cases h
    exact ⟨⟨rfl, rfl, rfl, rfl⟩, rfl, fun tet mark => by simp⟩
  | cons entry rest ih =>
    obtain ⟨tet, mark⟩ := entry
    unfold markAll at h
    obtain ⟨_, -, h⟩ := bind_eq_ok_iff.1 h
    have ih := ih h
    refine ⟨⟨ih.nodes, ih.twins, ?_, ih.colors_size⟩, ih.vertices, fun u b => ?_⟩
    · rw [ih.flags_size]
      simp [Mesh.mark]
    · rw [ih.marked?, marked?_mark]
      cases m.marked? u b with
      | none => rfl
      | some old =>
        simp only [Option.map_some, List.mem_cons, Prod.mk.injEq, Bool.or_assoc, Bool.decide_or,
          Bool.decide_and, eq_comm (a := u)]

/-- To mark tetrahedra that exist does not fail. -/
theorem markAll_ne_error {ε : Type} {marks : List (Nat × TetMark)}
    (hlt : ∀ entry ∈ marks, entry.1 < m.flags.size) (fault : Fault ε) :
    m.markAll marks ≠ .error fault := by
  induction marks generalizing m with
  | nil => exact fun h => by cases h
  | cons entry rest ih =>
    obtain ⟨tet, mark⟩ := entry
    rw [List.forall_mem_cons] at hlt
    have hsize : (m.mark tet mark).flags.size = m.flags.size := by simp [Mesh.mark]
    rw [markAll, Array.getElem?_eq_getElem hlt.1, found_some, ok_bind]
    exact ih (hsize ▸ hlt.2)

/-- A mark that a mesh has after more were set was there before or is one of them. -/
theorem MoreMarked.marked_iff {marks : List (Nat × TetMark)} (h : m.MoreMarked m' marks)
    (hm : m.Linked) {tet : Nat} (htet : tet < m.size) (mark : TetMark) :
    m'.marked? tet mark = some true ↔ m.marked? tet mark = some true ∨ (tet, mark) ∈ marks := by
  obtain ⟨b, hb⟩ := hm.marked?_isSome htet mark
  rw [h.marked?, hb]
  simp

theorem MoreMarked.constrained_iff {marks : List (Nat × TetMark)} (h : m.MoreMarked m' marks)
    (hm : m.Linked) {k : HalfFace} (hk : k.tet < m.size) :
    m'.Constrained k ↔ m.Constrained k ∨ (k.tet, .facet k.facet) ∈ marks :=
  h.marked_iff hm hk _

/-- A mesh stays sound when facets are marked on both sides. -/
theorem MoreMarked.sound {marks : List (Nat × TetMark)} (h : m.MoreMarked m' marks) (hm : m.Sound)
    (hmarks : ∀ k : HalfFace, k.tet < m.size → (k.tet, .facet k.facet) ∈ marks →
      ((m.twin k).tet, .facet (m.twin k).facet) ∈ marks) : m'.Sound := by
  refine ⟨h.closed hm.toClosed, fun k => ?_⟩
  rw [h.twin_eq]
  have hm' := (h.closed hm.toClosed).toLinked
  by_cases hk : k.tet < m.size
  · have hk' := hm.twin_lt hk
    rw [h.constrained_iff hm.toLinked hk, h.constrained_iff hm.toLinked hk', hm.constrained_twin]
    refine or_congr_right ⟨fun hin => ?_, hmarks k hk⟩
    have := hmarks _ hk' hin
    rwa [hm.twin_twin] at this
  · have hk' : ¬(m.twin k).tet < m.size := fun hlt => hk (hm.twin_lt_iff.1 hlt)
    rw [← h.size_eq] at hk hk'
    exact iff_of_false (fun hc => hk' (hm'.lt_size_of_marked? hc))
      (fun hc => hk (hm'.lt_size_of_marked? hc))

/-! ## Edges -/

theorem mem_edgeHolders {a b : Vertex} {tets : List Nat} {tet : Nat} {edge : Edge} :
    (tet, edge) ∈ m.edgeHolders a b tets ↔
      tet ∈ tets ∧ ∃ nodes, m.nodes[tet]? = some nodes ∧ nodes.edgeBetween? a b = some edge := by
  unfold edgeHolders
  simp only [List.mem_filterMap, Option.bind_eq_bind, Option.bind_eq_some_iff, Option.pure_def,
    Option.some_inj, Prod.mk.injEq]
  constructor
  · rintro ⟨t, ht, nodes, hn, e, he, rfl, rfl⟩
    exact ⟨ht, nodes, hn, he⟩
  · rintro ⟨ht, nodes, hn, he⟩
    exact ⟨tet, ht, nodes, hn, edge, he, rfl, rfl⟩

theorem SameShape.edgeHolders_eq (h : m.SameShape m') (a b : Vertex) :
    m'.edgeHolders a b m'.tets = m.edgeHolders a b m.tets := by
  unfold edgeHolders tets
  rw [h.nodes, h.size_eq]

theorem constrainEdge_eq_ok {a b : Vertex} {count : Nat}
    (h : m.constrainEdge a b = .ok (m', count)) :
    m.edgeHolders a b m.tets ≠ [] ∧
      m.MoreMarked m' ((m.edgeHolders a b m.tets).map fun (tet, edge) => (tet, .edge edge)) := by
  unfold constrainEdge at h
  obtain ⟨marked, hmarked, h⟩ := bind_eq_ok_iff.1 h
  obtain ⟨_, hrequire, h⟩ := bind_eq_ok_iff.1 h
  cases h
  exact ⟨require_eq_ok_iff.1 hrequire, markAll_eq_ok hmarked⟩

/-- The half-face that is found has the corners that were looked for. -/
theorem facetHolder?_eq_some {t : Triple Vertex} {here : HalfFace}
    (h : m.facetHolder? t = some here) :
    here.tet < m.size ∧ (m.triangle? here).map Triple.sorted = some t.sorted := by
  have hsorted : (m.triangle? here).map Triple.sorted = some t.sorted := by
    simpa using List.find?_some h
  obtain ⟨u, hu, -⟩ := Option.map_eq_some_iff.1 hsorted
  exact ⟨lt_size_of_triangle? hu, hsorted⟩

theorem constrainFacet_eq_ok {a b c : Vertex} (hm : m.InRange)
    (h : m.constrainFacet a b c = .ok m') :
    ∃ here, m.facetHolder? ⟨a, b, c⟩ = some here ∧ m.MoreMarked m' [(here.tet, .facet here.facet),
      ((m.twin here).tet, .facet (m.twin here).facet)] := by
  unfold constrainFacet at h
  split at h
  · cases h
  · rename_i here hfound
    obtain ⟨there, hthere, h⟩ := bind_eq_ok_iff.1 h
    obtain ⟨-, rfl⟩ := hm.twin?_eq_some_iff.1 (found_eq_ok_iff.1 hthere)
    exact ⟨here, hfound, markAll_eq_ok h⟩

/-- The marks of a facet are those of its two half-faces. -/
theorem mem_facetMarks {here k : HalfFace} :
    (k.tet, TetMark.facet k.facet) ∈ [(here.tet, .facet here.facet),
      ((m.twin here).tet, .facet (m.twin here).facet)] ↔ k = here ∨ k = m.twin here := by
  simp [HalfFace.eq_iff]

/-! ## Edits -/

/-- A vertex is added if it is finite and there is an index for it. -/
theorem addVertex_eq_ok {p : Point} (h : m.edit (.addVertex p) = .ok m') :
    p.check = .ok () ∧ m.vertices.size < Vertex.ghost.toNat ∧
      m' = { m with vertices := m.vertices.push p } := by
  obtain ⟨⟨m'', v⟩, hadd, h⟩ := bind_eq_ok_iff.1 h
  cases h
  have h := mapError_eq_ok_iff.1 hadd
  unfold addVertex at h
  split at h
  · cases h
  · rename_i hcheck
    split at h
    · cases h
    · rename_i hlt
      cases h
      exact ⟨hcheck, Nat.lt_of_not_le hlt, rfl⟩

/-- An edit that sets no constraints leaves the form alone. -/
theorem sameForm_of_edit {edit : MeshEdit} (hedit : edit.constrains = false)
    (h : m.edit edit = .ok m') : m.SameForm m' := by
  cases edit with
  | addVertex p =>
    obtain ⟨-, -, rfl⟩ := addVertex_eq_ok h
    exact ⟨⟨rfl, rfl, rfl, rfl⟩, fun _ _ _ => rfl⟩
  | constrainEdge a b => cases hedit
  | constrainFacet a b c => cases hedit
  | delete tet =>
    obtain ⟨_, -, h⟩ := bind_eq_ok_iff.1 h
    cases h
    exact sameForm_mark_deleted m tet
  | undelete tet =>
    obtain ⟨_, -, h⟩ := bind_eq_ok_iff.1 h
    cases h
    exact sameForm_unmark_deleted m tet
  | setColor tet color =>
    obtain rfl := setColor_eq_ok h
    exact sameForm_paint m tet color

/-- An edit that sets constraints sets marks, on facets on both sides. -/
theorem moreMarked_of_edit (hm : m.InRange) {edit : MeshEdit} (hedit : edit.constrains = true)
    (h : m.edit edit = .ok m') : ∃ marks, m.MoreMarked m' marks ∧
      (∀ tet, (tet, .deleted) ∉ marks) ∧ (m.Linked → ∀ k : HalfFace,
        (k.tet, .facet k.facet) ∈ marks → ((m.twin k).tet, .facet (m.twin k).facet) ∈ marks) := by
  cases edit with
  | constrainEdge a b =>
    obtain ⟨⟨m'', count⟩, hconstrain, h⟩ := bind_eq_ok_iff.1 h
    cases h
    exact ⟨_, (constrainEdge_eq_ok hconstrain).2, by simp, fun _ k hk => by simp at hk⟩
  | constrainFacet a b c =>
    obtain ⟨here, -, hmarks⟩ := constrainFacet_eq_ok hm h
    refine ⟨_, hmarks, by simp, fun hlinked k hk => mem_facetMarks.2 ?_⟩
    rcases mem_facetMarks.1 hk with rfl | rfl
    · exact .inr rfl
    · exact .inl (hlinked.twin_twin here)
  | addVertex p => cases hedit
  | delete tet => cases hedit
  | undelete tet => cases hedit
  | setColor tet color => cases hedit

/-- No edit but the two that do so by hand changes what is deleted. -/
theorem deleted_iff_of_edit (hm : m.Linked) {edit : MeshEdit} (hedit : edit.deletes = false)
    (h : m.edit edit = .ok m') (tet : Nat) : m'.Deleted tet ↔ m.Deleted tet := by
  cases hconstrains : edit.constrains with
  | true =>
    obtain ⟨marks, hmarks, hnot, -⟩ := moreMarked_of_edit hm.toInRange hconstrains h
    unfold Deleted deleted?
    rw [hmarks.marked?]
    simp [hnot]
  | false =>
    cases edit with
    | addVertex p =>
      obtain ⟨-, -, rfl⟩ := addVertex_eq_ok h
      rfl
    | setColor tet color =>
      obtain rfl := setColor_eq_ok h
      exact deleted_paint_iff
    | constrainEdge a b => cases hconstrains
    | constrainFacet a b c => cases hconstrains
    | delete tet => cases hedit
    | undelete tet => cases hedit

theorem sound_of_edit (hm : m.Sound) {edit : MeshEdit} (h : m.edit edit = .ok m') : m'.Sound := by
  cases hconstrains : edit.constrains with
  | true =>
    obtain ⟨marks, hmarks, -, hsides⟩ := moreMarked_of_edit hm.toInRange hconstrains h
    exact hmarks.sound hm fun k _ => hsides hm.toLinked k
  | false => exact (sameForm_of_edit hconstrains h).sound hm

theorem sameShape_of_edit (hm : m.InRange) {edit : MeshEdit} (h : m.edit edit = .ok m') :
    m.SameShape m' := by
  cases hconstrains : edit.constrains with
  | true =>
    obtain ⟨marks, hmarks, -⟩ := moreMarked_of_edit hm hconstrains h
    exact hmarks.toSameShape
  | false => exact (sameForm_of_edit hconstrains h).toSameShape

/-- An edit leaves the vertices alone or adds one. -/
theorem vertices_of_edit (hm : m.Linked) {edit : MeshEdit} (h : m.edit edit = .ok m') :
    m'.vertices = m.vertices ∨ ∃ p : Point, p.check = .ok () ∧
      m.vertices.size < Vertex.ghost.toNat ∧ m'.vertices = m.vertices.push p := by
  cases edit with
  | addVertex p =>
    obtain ⟨hcheck, hlt, rfl⟩ := addVertex_eq_ok h
    exact .inr ⟨p, hcheck, hlt, rfl⟩
  | constrainEdge a b =>
    obtain ⟨marks, hmarks, -⟩ := moreMarked_of_edit hm.toInRange rfl h
    exact .inl hmarks.vertices
  | constrainFacet a b c =>
    obtain ⟨marks, hmarks, -⟩ := moreMarked_of_edit hm.toInRange rfl h
    exact .inl hmarks.vertices
  | delete tet =>
    obtain ⟨_, -, h⟩ := bind_eq_ok_iff.1 h
    cases h
    exact .inl rfl
  | undelete tet =>
    obtain ⟨_, -, h⟩ := bind_eq_ok_iff.1 h
    cases h
    exact .inl rfl
  | setColor tet color =>
    obtain rfl := setColor_eq_ok h
    exact .inl rfl

theorem size_vertices_of_edit (hm : m.Linked) (hcount : m.vertices.size ≤ Vertex.ghost.toNat)
    {edit : MeshEdit} (h : m.edit edit = .ok m') : m'.vertices.size ≤ Vertex.ghost.toNat := by
  rcases vertices_of_edit hm h with heq | ⟨p, -, hlt, heq⟩
  · rwa [heq]
  · rw [heq, Array.size_push]
    exact hlt

/-- An edit clears no mark but the deleted one. -/
theorem marked_of_edit (hm : m.Linked) {edit : MeshEdit} (h : m.edit edit = .ok m') {tet : Nat}
    {mark : TetMark} (hmark : mark ≠ .deleted) (hold : m.marked? tet mark = some true) :
    m'.marked? tet mark = some true := by
  cases hconstrains : edit.constrains with
  | true =>
    obtain ⟨marks, hmarks, -⟩ := moreMarked_of_edit hm.toInRange hconstrains h
    exact (hmarks.marked_iff hm (hm.lt_size_of_marked? hold) mark).2 (.inl hold)
  | false => rwa [(sameForm_of_edit hconstrains h).marked? _ _ hmark]

/-! ## Built meshes -/

namespace Built

variable [Orient3d] {edits : List MeshEdit}

/-- A mesh that was built and edited is sound. -/
theorem sound (h : Built edits m) : m.Sound := by
  induction h with
  | closed hm =>
    refine ⟨closed_of_ofTetrahedra hm, fun k => ?_⟩
    exact iff_of_false (marked?_of_ofTetrahedra hm _ _) (marked?_of_ofTetrahedra hm _ _)
  | edited _ hedit ih => exact sound_of_edit ih hedit

theorem editAll (h : Built edits m) {more : List MeshEdit} (hedits : m.editAll more = .ok m') :
    Built (more.reverse ++ edits) m' := by
  induction more generalizing m edits with
  | nil =>
    cases hedits
    exact h
  | cons edit rest ih =>
    obtain ⟨m'', hedit, hrest⟩ := bind_eq_ok_iff.1 hedits
    rw [List.reverse_cons, List.append_assoc]
    exact ih (h.edited hedit) hrest

/-- Tetrahedra that exist may be marked deleted. -/
theorem foldl_mark (h : Built edits m) {tets : List Nat} (hlt : ∀ tet ∈ tets, tet < m.size) :
    Built ((tets.map .delete).reverse ++ edits)
      (tets.foldl (fun m tet => m.mark tet .deleted) m) := by
  induction tets generalizing m edits with
  | nil => exact h
  | cons tet rest ih =>
    rw [List.forall_mem_cons] at hlt
    have hflags : tet < m.flags.size := h.sound.flags_size ▸ hlt.1
    have hdelete : m.delete tet = (.ok (m.mark tet .deleted) : Attempt MeshError Mesh) := by
      unfold delete
      rw [Array.getElem?_eq_getElem hflags]
      rfl
    rw [List.map_cons, List.reverse_cons, List.append_assoc]
    exact ih (h.edited hdelete) hlt.2

/-- An edge that was constrained is in some tetrahedra and stays marked in all of them. -/
theorem marked_of_constrainEdge (h : Built edits m) {a b : Vertex}
    (hedge : .constrainEdge a b ∈ edits) :
    m.edgeHolders a b m.tets ≠ [] ∧ ∀ tet edge, (tet, edge) ∈ m.edgeHolders a b m.tets →
      m.marked? tet (.edge edge) = some true := by
  induction h with
  | closed _ => cases hedge
  | @edited edits m m' edit hbuilt hedit ih =>
    have hm := hbuilt.sound.toLinked
    have hshape := sameShape_of_edit hm.toInRange hedit
    rw [hshape.edgeHolders_eq]
    rcases List.mem_cons.1 hedge with rfl | hedge
    · obtain ⟨⟨m'', count⟩, hconstrain, hedit⟩ := bind_eq_ok_iff.1 hedit
      cases hedit
      obtain ⟨hne, hmarks⟩ := constrainEdge_eq_ok hconstrain
      refine ⟨hne, fun tet edge hmem => ?_⟩
      have htet : tet < m.size := List.mem_range.1 (mem_edgeHolders.1 hmem).1
      refine (hmarks.marked_iff hm htet _).2 (.inr ?_)
      exact List.mem_map.2 ⟨_, hmem, rfl⟩
    · obtain ⟨hne, hmarked⟩ := ih hedge
      exact ⟨hne, fun tet edge hmem =>
        marked_of_edit hm hedit (by simp) (hmarked tet edge hmem)⟩

/-- An edge is marked in a tetrahedron only because it was constrained. -/
theorem exists_constrainEdge (h : Built edits m) {tet : Nat} {edge : Edge}
    (hmark : m.marked? tet (.edge edge) = some true) : ∃ a b nodes, .constrainEdge a b ∈ edits ∧
      m.nodes[tet]? = some nodes ∧ nodes.edgeBetween? a b = some edge := by
  induction h with
  | closed hm => exact absurd hmark (marked?_of_ofTetrahedra hm tet _)
  | @edited edits m m' edit hbuilt hedit ih =>
    have hm := hbuilt.sound.toLinked
    have hshape := sameShape_of_edit hm.toInRange hedit
    have hlt : tet < m.size := by
      rw [← hshape.size_eq]
      exact (hshape.linked hm).lt_size_of_marked? hmark
    have hold : m.marked? tet (.edge edge) = some true → ∃ a b nodes,
        .constrainEdge a b ∈ edit :: edits ∧ m'.nodes[tet]? = some nodes ∧
          nodes.edgeBetween? a b = some edge := by
      intro hmark
      obtain ⟨a, b, nodes, hmem, hn, hbetween⟩ := ih hmark
      exact ⟨a, b, nodes, List.mem_cons_of_mem _ hmem, hshape.nodes ▸ hn, hbetween⟩
    cases hconstrains : edit.constrains with
    | false =>
      rw [(sameForm_of_edit hconstrains hedit).marked? _ _ (by simp)] at hmark
      exact hold hmark
    | true =>
      cases edit with
      | constrainEdge a b =>
        obtain ⟨⟨m'', count⟩, hconstrain, hedit⟩ := bind_eq_ok_iff.1 hedit
        cases hedit
        rw [(constrainEdge_eq_ok hconstrain).2.marked_iff hm hlt] at hmark
        rcases hmark with hmark | hmark
        · exact hold hmark
        · obtain ⟨⟨tet', edge'⟩, hmem, heq⟩ := List.mem_map.1 hmark
          cases heq
          obtain ⟨-, nodes, hn, hbetween⟩ := mem_edgeHolders.1 hmem
          exact ⟨a, b, nodes, List.mem_cons_self, hshape.nodes ▸ hn, hbetween⟩
      | constrainFacet a b c =>
        obtain ⟨here, -, hmarks⟩ := constrainFacet_eq_ok hm.toInRange hedit
        rw [hmarks.marked_iff hm hlt] at hmark
        exact hold (hmark.resolve_right (by simp))
      | addVertex p => cases hconstrains
      | delete tet => cases hconstrains
      | undelete tet => cases hconstrains
      | setColor tet color => cases hconstrains

end Built

end Mesh

end CavityRepair
