import CavityRepair.Proofs.Geometry.Determinant
/-!
# Exact sides

Nothing is known about the test for the side of a plane, and most results need nothing. Those about
sides ask of it, for the points that they are about:

* `Orient3d.ExactOn`: for points with exact positions, that is finite ones, the sign is that of
  their determinant. Adaptive tests in doubles are made to have this property. It is asked of given
  points and not of all, since a product of coordinates may still overflow, or vanish below the
  smallest double.
* `Orient3d.Faithful`: besides, points of which a coordinate is not finite have no side. Among
  finite points this asks nothing more (`Orient3d.ExactOn.faithful`).

`exactSide` is the side that the determinant gives. A triangle that is passed in the opposite
direction is seen from the other side (`exactSide_of_opposite`), so a faithful test sees it so
(`Orient3d.Faithful.orientation_of_opposite`).
-/
namespace CavityRepair

/-! ## Finite points -/

/-- Every coordinate is a finite number. -/
def Point.Finite (p : Point) : Prop := ∀ axis : Axis, finite (p.coord axis) = true

theorem mem_axes : ∀ axis : Axis, axis ∈ ([0, 1, 2] : List Axis) := by decide

theorem Point.check_eq_ok {p : Point} (h : p.check = .ok ()) : p.Finite := by
  unfold check at h
  split at h
  · cases h
  · rename_i hnone
    intro axis
    simpa using List.find?_eq_none.1 hnone axis (mem_axes axis)

theorem Point.Finite.exists_position {p : Point} (h : p.Finite) :
    ∃ x, p.position? = some x := by
  have hcoord : ∀ axis, ∃ r, rational? (p.coord axis) = some r := fun axis =>
    Option.isSome_iff_exists.1 ((rational?_isSome _).trans (h axis))
  obtain ⟨x, hx⟩ := hcoord 0
  obtain ⟨y, hy⟩ := hcoord 1
  obtain ⟨z, hz⟩ := hcoord 2
  simp only [coord] at hx hy hz
  exact ⟨⟨x, y, z⟩, by simp [position?, hx, hy, hz]⟩

/-! ## The side that the determinant gives -/

/-- The side that the exact positions of four points give. Points without one have no side. -/
def exactSide (a b c d : Point) : Orientation :=
  match det? a b c d with
  | some r => .ofSign r
  | none => .degenerate

/-- A triangle that is passed in the opposite direction is seen from the other side. -/
theorem exactSide_of_opposite {t u : Triple Point} (h : t.Opposite u) (p : Point) :
    exactSide p u.c0 u.c1 u.c2 = (exactSide p t.c0 t.c1 t.c2).opposite := by
  unfold exactSide
  rw [det?_opposite h]
  cases det? p t.c0 t.c1 t.c2 with
  | none => rfl
  | some r => exact Orientation.ofSign_neg r

/-- A triangle is seen from the same side from whichever corner it is passed. -/
theorem exactSide_of_turned {t u : Triple Point} (h : t.Turned u) (p : Point) :
    exactSide p u.c0 u.c1 u.c2 = exactSide p t.c0 t.c1 t.c2 := by
  unfold exactSide
  rw [det?_turned h]

/-- A tetrahedron has all its corners before the facets that leave them out or all behind. -/
theorem exactSide_facet (q : Quad Point) (f : Facet) :
    exactSide (q.get f) (q.triangle f).c0 (q.triangle f).c1 (q.triangle f).c2 =
      (exactSide q.s0 q.s1 q.s2 q.s3).opposite := by
  unfold exactSide
  rw [det?_facet]
  cases det? q.s0 q.s1 q.s2 q.s3 with
  | none => rfl
  | some r => exact Orientation.ofSign_neg r

/-! ## What is asked of a test -/

/-- The orientation of a tetrahedron. -/
def orientationOf [Orient3d] (q : Quad Point) : Orientation := orientation q.s0 q.s1 q.s2 q.s3

namespace Orient3d

/-- The sign of the test is exact for some points: where they have exact positions, it is that of
their determinant. -/
def ExactOn [Orient3d] (points : Array Point) : Prop :=
  ∀ a ∈ points, ∀ b ∈ points, ∀ c ∈ points, ∀ d ∈ points, ∀ r,
    det? a b c d = some r → orientation a b c d = .ofSign r

/-- The test sees some points on the sides that their exact positions give, and on no side where one
of them has none. -/
def Faithful [Orient3d] (points : Array Point) : Prop :=
  ∀ a ∈ points, ∀ b ∈ points, ∀ c ∈ points, ∀ d ∈ points,
    orientation a b c d = exactSide a b c d

section

variable [Orient3d] {points points' : Array Point}

theorem ExactOn.mono (h : ExactOn points) (hsub : ∀ a ∈ points', a ∈ points) : ExactOn points' :=
  fun a ha b hb c hc d hd => h a (hsub a ha) b (hsub b hb) c (hsub c hc) d (hsub d hd)

/-- Among finite points a test with exact signs is faithful. -/
theorem ExactOn.faithful (h : ExactOn points) (hfinite : ∀ a ∈ points, a.Finite) :
    Faithful points := by
  intro a ha b hb c hc d hd
  obtain ⟨a', ha'⟩ := (hfinite a ha).exists_position
  obtain ⟨b', hb'⟩ := (hfinite b hb).exists_position
  obtain ⟨c', hc'⟩ := (hfinite c hc).exists_position
  obtain ⟨d', hd'⟩ := (hfinite d hd).exists_position
  have hdet := det?_eq_some_iff.2 ⟨a', b', c', d', ha', hb', hc', hd', rfl⟩
  rw [h a ha b hb c hc d hd _ hdet, exactSide, hdet]

namespace Faithful

variable (h : Faithful points) {t u : Triple Point} {p : Point}

include h

theorem exactOn : ExactOn points := by
  intro a ha b hb c hc d hd r hdet
  rw [h a ha b hb c hc d hd, exactSide, hdet]

theorem orientation_of_opposite (hp : p ∈ points)
    (ht : t.c0 ∈ points ∧ t.c1 ∈ points ∧ t.c2 ∈ points) (hu : t.Opposite u) :
    orientation p u.c0 u.c1 u.c2 = (orientation p t.c0 t.c1 t.c2).opposite := by
  obtain ⟨h0, h1, h2⟩ := ht
  have hmem : u.c0 ∈ points ∧ u.c1 ∈ points ∧ u.c2 ∈ points := by
    rcases hu with rfl | rfl | rfl
    exacts [⟨h1, h0, h2⟩, ⟨h0, h2, h1⟩, ⟨h2, h1, h0⟩]
  rw [h p hp _ h0 _ h1 _ h2, h p hp _ hmem.1 _ hmem.2.1 _ hmem.2.2]
  exact exactSide_of_opposite hu p

theorem orientation_of_turned (hp : p ∈ points)
    (ht : t.c0 ∈ points ∧ t.c1 ∈ points ∧ t.c2 ∈ points) (hu : t.Turned u) :
    orientation p u.c0 u.c1 u.c2 = orientation p t.c0 t.c1 t.c2 := by
  obtain ⟨h0, h1, h2⟩ := ht
  have hmem : u.c0 ∈ points ∧ u.c1 ∈ points ∧ u.c2 ∈ points := by
    rcases hu with rfl | rfl | rfl
    exacts [⟨h0, h1, h2⟩, ⟨h1, h2, h0⟩, ⟨h2, h0, h1⟩]
  rw [h p hp _ h0 _ h1 _ h2, h p hp _ hmem.1 _ hmem.2.1 _ hmem.2.2]
  exact exactSide_of_turned hu p

/-- Every corner of a tetrahedron is seen before the facet that leaves it out if the tetrahedron is
negatively oriented, and behind it if it is positively oriented. -/
theorem orientation_facet {q : Quad Point} (hq : ∀ i, q.get i ∈ points) (f : Facet) :
    orientation (q.get f) (q.triangle f).c0 (q.triangle f).c1 (q.triangle f).c2 =
      (orientationOf q).opposite := by
  have hwhole : orientationOf q = exactSide q.s0 q.s1 q.s2 q.s3 :=
    h _ (hq 0) _ (hq 1) _ (hq 2) _ (hq 3)
  rw [hwhole, ← exactSide_facet]
  exact h _ (hq f) _ (hq f.slots.c0) _ (hq f.slots.c1) _ (hq f.slots.c2)

theorem orientationOf_flip {q : Quad Point} (hq : ∀ i, q.get i ∈ points) :
    orientationOf q.flip = (orientationOf q).opposite := by
  obtain ⟨a, b, c, d⟩ := q
  have ha : a ∈ points := hq 0
  have hbcd : b ∈ points ∧ c ∈ points ∧ d ∈ points := ⟨hq 1, hq 2, hq 3⟩
  have hflip : (⟨b, c, d⟩ : Triple Point).Opposite ⟨b, d, c⟩ := .inr (.inl rfl)
  have hside := h.orientation_of_opposite ha hbcd hflip
  exact hside

end Faithful

end

theorem ofFloat_toFloat (o : Orientation) : Orientation.ofFloat o.toFloat = o := by
  cases o <;> decide +kernel

/-- The test that looks at the exact positions is faithful everywhere. -/
theorem faithful_exact (points : Array Point) : Faithful points := by
  intro a _ b _ c _ d _
  unfold orientation exactSide
  change Orientation.ofFloat (match det? a b c d with
    | some r => (Orientation.ofSign r).toFloat
    | none => 0.0 / 0.0) = _
  cases det? a b c d with
  | none => decide +kernel
  | some r => exact ofFloat_toFloat _

end Orient3d

end CavityRepair
