import CavityRepair.Cavity.Basic
import CavityRepair.Proofs.Mesh.Triangles
/-!
# Well-linked meshes

What the operations rely on is kept in four layers, each on top of the one before.

* `Mesh.InRange`: the arrays have one entry for each tetrahedron, and every twin exists.
* `Mesh.Linked`: besides, the half-faces are paired off, the two of a pair having the same corners.
* `Mesh.Closed`: besides, the corners of a tetrahedron differ and no half-face is its own twin. Then
  no tetrahedron is its own neighbor (`Mesh.Closed.twin_tet_ne`).
* `Mesh.Sound`: besides, a constrained facet is constrained on both sides.

Less than soundness is enough for cavities to stay consistent: `Mesh.Carvable` asks of a linked mesh
that constraints agree on both sides, and that a facet between a tetrahedron and itself, which a
closed mesh does not have, is constrained.

Marking, unmarking and painting tetrahedra leaves the form of a mesh alone (`Mesh.SameForm`), and
with it all of them.
-/
namespace CavityRepair

/-- The marks of a face depend on nothing but the marks that they stand for. -/
theorem FaceFlags.ofTet_congr {flags flags' : TetFlags} {f : Facet}
    (h : ∀ mark : FaceMark, flags'.has (mark.onTet f) = flags.has (mark.onTet f)) :
    ofTet flags' f = ofTet flags f := by
  unfold ofTet
  simp only [h]

namespace Mesh

/-! ## Total look-ups -/

/-- The twin of a half-face; one that the mesh does not have is its own. -/
def twin (m : Mesh) (h : HalfFace) : HalfFace := (m.twin? h).getD h

/-- Whether a tetrahedron is marked deleted. -/
def Deleted (m : Mesh) (tet : Nat) : Prop := m.deleted? tet = some true

/-- Whether a facet is constrained on the side of a half-face. -/
def Constrained (m : Mesh) (h : HalfFace) : Prop := m.facetConstrained? h = some true

instance (m : Mesh) (tet : Nat) : Decidable (m.Deleted tet) :=
  inferInstanceAs (Decidable (_ = _))

instance (m : Mesh) (h : HalfFace) : Decidable (m.Constrained h) :=
  inferInstanceAs (Decidable (_ = _))

/-! ## Four layers -/

/-- The arrays have one entry for each tetrahedron, and every twin exists. -/
structure InRange (m : Mesh) : Prop where
  twins_size : m.twins.size = m.size
  flags_size : m.flags.size = m.size
  colors_size : m.colors.size = m.size
  twin_lt : ∀ {h : HalfFace}, h.tet < m.size → (m.twin h).tet < m.size

/-- The half-faces are paired off, and the two of a pair have the same corners. -/
structure Linked (m : Mesh) : Prop extends m.InRange where
  twin_twin : ∀ h, m.twin (m.twin h) = h
  sorted_twin : ∀ h, (m.triangle? (m.twin h)).map Triple.sorted = (m.triangle? h).map Triple.sorted

/-- Corners differ, and no half-face is its own twin. -/
structure Closed (m : Mesh) : Prop extends m.Linked where
  nodup : ∀ {tet : Nat} {nodes : Quad Vertex}, m.nodes[tet]? = some nodes → nodes.toList.Nodup
  twin_ne : ∀ {h : HalfFace}, h.tet < m.size → m.twin h ≠ h

/-- Facets are constrained on both sides or on none. -/
structure Sound (m : Mesh) : Prop extends m.Closed where
  constrained_twin : ∀ h, m.Constrained (m.twin h) ↔ m.Constrained h

/-- Facets are constrained on both sides or on none, and those between a tetrahedron and itself
are. -/
structure Carvable (m : Mesh) : Prop extends m.Linked where
  constrained_twin : ∀ h, m.Constrained (m.twin h) ↔ m.Constrained h
  constrained_of_tet : ∀ {h : HalfFace}, h.tet < m.size → (m.twin h).tet = h.tet → m.Constrained h

variable {m : Mesh}

theorem exists_nodes {tet : Nat} (h : tet < m.size) : ∃ nodes, m.nodes[tet]? = some nodes :=
  ⟨_, Array.getElem?_eq_getElem h⟩

theorem lt_size_of_nodes {tet : Nat} {nodes : Quad Vertex} (h : m.nodes[tet]? = some nodes) :
    tet < m.size :=
  (Array.getElem?_eq_some_iff.1 h).1

theorem triangle?_eq {h : HalfFace} {nodes : Quad Vertex} (hn : m.nodes[h.tet]? = some nodes) :
    m.triangle? h = some (nodes.triangle h.facet) := by
  simp [triangle?, hn]

theorem lt_size_of_triangle? {h : HalfFace} {t : Triple Vertex} (ht : m.triangle? h = some t) :
    h.tet < m.size := by
  obtain ⟨nodes, hn, -⟩ := Option.map_eq_some_iff.1 ht
  exact lt_size_of_nodes hn

/-- A half-face that the array of twins does not reach is its own twin. -/
theorem twin_eq_self {h : HalfFace} (hh : m.twins.size ≤ h.tet) : m.twin h = h := by
  simp [twin, twin?, Array.getElem?_eq_none hh]

/-- Nothing is deleted where no flag word says so. -/
theorem not_deleted_of_flags (h : ∀ flags ∈ m.flags, flags.has .deleted = false) (tet : Nat) :
    ¬m.Deleted tet := by
  intro hdeleted
  obtain ⟨flags, hflags, hhas⟩ := Option.map_eq_some_iff.1 hdeleted
  rw [h flags (Array.mem_of_getElem? hflags)] at hhas
  cases hhas

/-- A boundary face has the corners of its half-face and the marks of the tetrahedron there. -/
theorem ballFace?_eq_some_iff {outer : HalfFace} {face : BallFace} :
    m.ballFace? outer = some face ↔ face.outer = outer ∧ m.triangle? outer = some face.corners ∧
      ∃ flags, m.flags[outer.tet]? = some flags ∧ face.constraints = .ofTet flags outer.facet := by
  obtain ⟨corners, side, constraints⟩ := face
  unfold ballFace?
  cases m.triangle? outer <;> cases m.flags[outer.tet]? <;> simp [eq_comm]
  tauto

namespace InRange

theorem twin?_eq (hm : m.InRange) {h : HalfFace} (hh : h.tet < m.size) :
    m.twin? h = some (m.twin h) := by
  have : h.tet < m.twins.size := hm.twins_size ▸ hh
  simp [twin, twin?, Array.getElem?_eq_getElem this]

theorem twin?_eq_some_iff (hm : m.InRange) {h k : HalfFace} :
    m.twin? h = some k ↔ h.tet < m.size ∧ m.twin h = k := by
  constructor
  · intro e
    have hh : h.tet < m.size := by
      rw [← hm.twins_size]
      exact Nat.lt_of_not_le fun hle => by simp [twin?, Array.getElem?_eq_none hle] at e
    exact ⟨hh, Option.some.inj ((hm.twin?_eq hh).symm.trans e)⟩
  · rintro ⟨hh, rfl⟩
    exact hm.twin?_eq hh

theorem marked?_isSome (hm : m.InRange) {tet : Nat} (ht : tet < m.size) (mark : TetMark) :
    ∃ b, m.marked? tet mark = some b := by
  have : tet < m.flags.size := hm.flags_size ▸ ht
  simp [marked?, Array.getElem?_eq_getElem this]

theorem lt_size_of_marked? (hm : m.InRange) {tet : Nat} {mark : TetMark} {b : Bool}
    (h : m.marked? tet mark = some b) : tet < m.size := by
  rw [← hm.flags_size]
  exact Nat.lt_of_not_le fun hle => by simp [marked?, Array.getElem?_eq_none hle] at h

theorem deleted?_eq (hm : m.InRange) {tet : Nat} (ht : tet < m.size) :
    m.deleted? tet = some (decide (m.Deleted tet)) := by
  obtain ⟨b, hb⟩ := hm.marked?_isSome ht .deleted
  cases b <;> simp [Deleted, deleted?, hb]

theorem facetConstrained?_eq (hm : m.InRange) {h : HalfFace} (hh : h.tet < m.size) :
    m.facetConstrained? h = some (decide (m.Constrained h)) := by
  obtain ⟨b, hb⟩ := hm.marked?_isSome hh (.facet h.facet)
  cases b <;> simp [Constrained, facetConstrained?, hb]

theorem lt_size_of_deleted (hm : m.InRange) {tet : Nat} (h : m.Deleted tet) : tet < m.size :=
  hm.lt_size_of_marked? h

/-- A tetrahedron is known to survive exactly when it exists and is not marked deleted. -/
theorem deleted?_eq_false_iff (hm : m.InRange) {tet : Nat} :
    m.deleted? tet = some false ↔ tet < m.size ∧ ¬m.Deleted tet := by
  constructor
  · intro h
    exact ⟨hm.lt_size_of_marked? h, by simp [Deleted, h]⟩
  · rintro ⟨ht, h⟩
    simp [hm.deleted?_eq ht, h]

/-- Every half-face has a boundary face. -/
theorem exists_ballFace (hm : m.InRange) {outer : HalfFace} (h : outer.tet < m.size) :
    ∃ face, m.ballFace? outer = some face ∧ face.outer = outer := by
  obtain ⟨nodes, hn⟩ := exists_nodes h
  have hf : outer.tet < m.flags.size := hm.flags_size ▸ h
  refine ⟨⟨nodes.triangle outer.facet, outer, .ofTet m.flags[outer.tet] outer.facet⟩, ?_, rfl⟩
  simp [ballFace?, triangle?_eq hn, Array.getElem?_eq_getElem hf]

end InRange

namespace Linked

theorem twin_inj (hm : m.Linked) {h k : HalfFace} : m.twin h = m.twin k ↔ h = k :=
  ⟨fun e => by rw [← hm.twin_twin h, e, hm.twin_twin], congrArg _⟩

theorem twin_lt_iff (hm : m.Linked) {h : HalfFace} : (m.twin h).tet < m.size ↔ h.tet < m.size :=
  ⟨fun hh => hm.twin_twin h ▸ hm.twin_lt hh, hm.twin_lt⟩

/-- The two half-faces of a pair have the same corners. -/
theorem mem_triangle_twin (hm : m.Linked) {h : HalfFace} {nodes next : Quad Vertex}
    (hn : m.nodes[h.tet]? = some nodes) (hn' : m.nodes[(m.twin h).tet]? = some next) {v : Vertex} :
    v ∈ (next.triangle (m.twin h).facet).toList ↔ v ∈ (nodes.triangle h.facet).toList := by
  have h := hm.sorted_twin h
  rw [triangle?_eq hn, triangle?_eq hn', Option.map_some, Option.map_some, Option.some_inj,
    Triple.sorted_eq_sorted_iff] at h
  exact h.mem_iff

end Linked

/-- No tetrahedron is its own neighbor: two of its facets differ in a corner. -/
theorem Closed.twin_tet_ne (hm : m.Closed) {h : HalfFace} (hh : h.tet < m.size) :
    (m.twin h).tet ≠ h.tet := by
  intro htet
  obtain ⟨nodes, hn⟩ := exists_nodes hh
  have hn' : m.nodes[(m.twin h).tet]? = some nodes := htet ▸ hn
  have hfacet : (m.twin h).facet ≠ h.facet := fun e =>
    hm.twin_ne hh (HalfFace.eq_iff.2 ⟨htet, e⟩)
  have hmem : nodes.get (m.twin h).facet ∈ (nodes.triangle h.facet).toList :=
    Quad.mem_triangle.2 ⟨_, hfacet, rfl⟩
  obtain ⟨i, hi, hget⟩ := Quad.mem_triangle.1 ((hm.mem_triangle_twin hn hn').2 hmem)
  exact hi ((Quad.get_inj (hm.nodup hn)).1 hget)

theorem Sound.carvable (hm : m.Sound) : m.Carvable :=
  ⟨hm.toLinked, hm.constrained_twin, fun hh htet => absurd htet (hm.twin_tet_ne hh)⟩

/-- Only half-faces that exist matter. -/
theorem Linked.carvable_iff (hm : m.Linked) : m.Carvable ↔ ∀ h : HalfFace, h.tet < m.size →
    (m.Constrained (m.twin h) ↔ m.Constrained h) ∧
    ((m.twin h).tet = h.tet → m.Constrained h) := by
  constructor
  · exact fun hcarvable h hh => ⟨hcarvable.constrained_twin h, hcarvable.constrained_of_tet hh⟩
  · intro hsides
    refine ⟨hm, fun h => ?_, fun hh => (hsides _ hh).2⟩
    by_cases hh : h.tet < m.size
    · exact (hsides h hh).1
    · rw [twin_eq_self (hm.twins_size ▸ Nat.le_of_not_lt hh)]

/-! ## Changes that leave the form alone -/

/-- Two meshes with the same tetrahedra, linked in the same way. -/
structure SameShape (m m' : Mesh) : Prop where
  nodes : m'.nodes = m.nodes
  twins : m'.twins = m.twins
  flags_size : m'.flags.size = m.flags.size
  colors_size : m'.colors.size = m.colors.size

/-- Two meshes that besides have the same constraints. -/
structure SameForm (m m' : Mesh) : Prop extends m.SameShape m' where
  marked? : ∀ tet mark, mark ≠ .deleted → m'.marked? tet mark = m.marked? tet mark

namespace SameShape

variable {m' : Mesh}

theorem size_eq (h : m.SameShape m') : m'.size = m.size := congrArg Array.size h.nodes

theorem twin?_eq (h : m.SameShape m') (k : HalfFace) : m'.twin? k = m.twin? k := by
  unfold twin?
  rw [h.twins]

theorem twin_eq (h : m.SameShape m') (k : HalfFace) : m'.twin k = m.twin k := by
  unfold twin
  rw [h.twin?_eq]

theorem triangle?_eq (h : m.SameShape m') (k : HalfFace) : m'.triangle? k = m.triangle? k := by
  unfold triangle?
  rw [h.nodes]

theorem inRange (h : m.SameShape m') (hm : m.InRange) : m'.InRange where
  twins_size := by rw [h.twins, h.size_eq, hm.twins_size]
  flags_size := by rw [h.flags_size, h.size_eq, hm.flags_size]
  colors_size := by rw [h.colors_size, h.size_eq, hm.colors_size]
  twin_lt := by
    intro k hk
    rw [h.twin_eq, h.size_eq]
    exact hm.twin_lt (h.size_eq ▸ hk)

theorem linked (h : m.SameShape m') (hm : m.Linked) : m'.Linked where
  toInRange := h.inRange hm.toInRange
  twin_twin k := by rw [h.twin_eq, h.twin_eq, hm.twin_twin]
  sorted_twin k := by rw [h.twin_eq, h.triangle?_eq, h.triangle?_eq, hm.sorted_twin]

theorem closed (h : m.SameShape m') (hm : m.Closed) : m'.Closed where
  toLinked := h.linked hm.toLinked
  nodup hn := hm.nodup (h.nodes ▸ hn)
  twin_ne := by
    intro k hk
    rw [h.twin_eq]
    exact hm.twin_ne (h.size_eq ▸ hk)

end SameShape

namespace SameForm

variable {m' m'' : Mesh}

theorem refl (m : Mesh) : m.SameForm m := ⟨⟨rfl, rfl, rfl, rfl⟩, fun _ _ _ => rfl⟩

theorem trans (h : m.SameForm m') (h' : m'.SameForm m'') : m.SameForm m'' where
  nodes := h'.nodes.trans h.nodes
  twins := h'.twins.trans h.twins
  flags_size := h'.flags_size.trans h.flags_size
  colors_size := h'.colors_size.trans h.colors_size
  marked? tet mark hmark := (h'.marked? tet mark hmark).trans (h.marked? tet mark hmark)

theorem constrained_iff (h : m.SameForm m') (k : HalfFace) :
    m'.Constrained k ↔ m.Constrained k := by
  unfold Constrained facetConstrained?
  rw [h.marked? _ _ (by simp)]

theorem sound (h : m.SameForm m') (hm : m.Sound) : m'.Sound where
  toClosed := h.closed hm.toClosed
  constrained_twin k := by
    rw [h.twin_eq, h.constrained_iff, h.constrained_iff]
    exact hm.constrained_twin k

theorem carvable (h : m.SameForm m') (hm : m.Carvable) : m'.Carvable where
  toLinked := h.linked hm.toLinked
  constrained_twin k := by
    rw [h.twin_eq, h.constrained_iff, h.constrained_iff]
    exact hm.constrained_twin k
  constrained_of_tet := by
    intro k hk htet
    rw [h.twin_eq] at htet
    exact (h.constrained_iff k).2 (hm.constrained_of_tet (h.size_eq ▸ hk) htet)

/-- A boundary face does not depend on which tetrahedra are deleted. -/
theorem ballFace?_eq (h : m.SameForm m') (k : HalfFace) : m'.ballFace? k = m.ballFace? k := by
  have hmark : ∀ mark : FaceMark, m'.marked? k.tet (mark.onTet k.facet) =
      m.marked? k.tet (mark.onTet k.facet) := fun mark =>
    h.marked? _ _ (by cases mark <;> simp [FaceMark.onTet])
  unfold Mesh.marked? at hmark
  unfold ballFace?
  rw [h.triangle?_eq]
  cases hf : m.flags[k.tet]? with
  | none =>
    have : m'.flags[k.tet]? = none := by simpa [hf] using hmark .face
    rw [this]
  | some flags =>
    obtain ⟨flags', hf'⟩ : ∃ flags', m'.flags[k.tet]? = some flags' := by
      have := hmark .face
      rw [hf, Option.map_some, Option.map_eq_some_iff] at this
      exact ⟨_, this.choose_spec.1⟩
    have : FaceFlags.ofTet flags' k.facet = FaceFlags.ofTet flags k.facet :=
      FaceFlags.ofTet_congr fun mark => by simpa [hf, hf'] using hmark mark
    simp [hf', this]

end SameForm

theorem sameForm_mark_deleted (m : Mesh) (tet : Nat) : m.SameForm (m.mark tet .deleted) where
  nodes := rfl
  twins := rfl
  flags_size := by simp [mark]
  colors_size := rfl
  marked? u mark hmark := by
    rw [marked?_mark]
    cases m.marked? u mark <;> simp [hmark]

theorem sameForm_unmark_deleted (m : Mesh) (tet : Nat) : m.SameForm (m.unmark tet .deleted) where
  nodes := rfl
  twins := rfl
  flags_size := by simp [unmark]
  colors_size := rfl
  marked? u mark hmark := by
    rw [marked?_unmark]
    cases m.marked? u mark <;> simp [hmark]

theorem sameForm_paint (m : Mesh) (tet : Nat) (color : UInt16) :
    m.SameForm (m.paint tet color) where
  nodes := rfl
  twins := rfl
  flags_size := rfl
  colors_size := by simp [paint]
  marked? _ _ _ := rfl

theorem setColor_eq_ok {ε : Type} {tet : Nat} {color : UInt16} {m' : Mesh}
    (h : (m.setColor tet color : Attempt ε Mesh) = .ok m') : m' = m.paint tet color := by
  obtain ⟨_, -, h⟩ := bind_eq_ok_iff.1 h
  cases h
  rfl

theorem deleted_mark_iff (hm : m.InRange) {tet u : Nat} (ht : tet < m.size) :
    (m.mark tet .deleted).Deleted u ↔ m.Deleted u ∨ u = tet := by
  unfold Deleted deleted?
  rw [marked?_mark]
  by_cases hu : u < m.size
  · obtain ⟨b, hb⟩ := hm.marked?_isSome hu .deleted
    simp [hb, eq_comm (a := u)]
  · have : m.marked? u .deleted = none :=
      Option.eq_none_iff_forall_ne_some.2 fun b hb => hu (hm.lt_size_of_marked? hb)
    simp only [this, Option.map_none, reduceCtorEq, false_or, false_iff]
    rintro rfl
    exact hu ht

theorem deleted_unmark_iff {tet u : Nat} :
    (m.unmark tet .deleted).Deleted u ↔ m.Deleted u ∧ u ≠ tet := by
  unfold Deleted deleted?
  rw [marked?_unmark]
  cases m.marked? u .deleted <;> simp [eq_comm (a := u)]

theorem deleted_paint_iff {tet u : Nat} {color : UInt16} :
    (m.paint tet color).Deleted u ↔ m.Deleted u := .rfl

end Mesh

end CavityRepair
