import Mathlib.Tactic.Linarith
import Mathlib.Tactic.Ring
import CavityRepair.Geometry.Orientation
import CavityRepair.Proofs.Mesh.Triangles
/-!
# Determinants

The determinant of four positions changes its sign when two of them are exchanged, so it has the
other sign for a triangle that is passed in the opposite direction (`detFrom_opposite`). The table
of facets gives each facet the direction in which its own tetrahedron sees it (`det_facet`), and the
determinants of a point with the four facets add up to that of the tetrahedron (`sum_det_facets`).
-/
namespace CavityRepair

/-- The other side of a plane. -/
def Orientation.opposite : Orientation → Orientation
  | .negative => .positive
  | .degenerate => .degenerate
  | .positive => .negative

theorem Orientation.opposite_eq_iff {a b : Orientation} : a.opposite = b ↔ a = b.opposite := by
  cases a <;> cases b <;> decide

/-- The determinant of a point and a triangle. -/
def detFrom (p : Position) (t : Triple Position) : Rat := det p t.c0 t.c1 t.c2

/-- The determinant of a tetrahedron. -/
def detOf (q : Quad Position) : Rat := det q.s0 q.s1 q.s2 q.s3

theorem slot_cases (i : Slot) : i = 0 ∨ i = 1 ∨ i = 2 ∨ i = 3 := by
  revert i
  decide

/-! ## Positions -/

theorem detFrom_opposite {t u : Triple Position} (h : t.Opposite u) (p : Position) :
    detFrom p u = -detFrom p t := by
  rcases h with rfl | rfl | rfl <;> simp only [detFrom, det] <;> ring

theorem det_rotate (p a b c : Position) : det p b c a = det p a b c := by
  simp only [det]
  ring

theorem detFrom_turned {t u : Triple Position} (h : t.Turned u) (p : Position) :
    detFrom p u = detFrom p t := by
  rcases h with rfl | rfl | rfl
  · rfl
  · exact det_rotate p t.c0 t.c1 t.c2
  · exact (det_rotate p t.c2 t.c0 t.c1).symm

/-- Whether two positions lie on one side of a triangle does not depend on how it is passed. -/
theorem detFrom_mul_detFrom {t u : Triple Position} (h : t.Turned u ∨ t.Opposite u)
    (p q : Position) : detFrom p u * detFrom q u = detFrom p t * detFrom q t := by
  rcases h with h | h
  · rw [detFrom_turned h, detFrom_turned h]
  · rw [detFrom_opposite h, detFrom_opposite h, neg_mul_neg]

/-- A tetrahedron sees all its facets in the same direction. -/
theorem det_facet (q : Quad Position) :
    ∀ f : Facet, detFrom (q.get f) (q.triangle f) = -detOf q
  | 0 => by
    simp only [Quad.triangle_zero, Quad.get, detFrom, detOf, det]
    ring
  | 1 => by
    simp only [Quad.triangle_one, Quad.get, detFrom, detOf, det]
    ring
  | 2 => by
    simp only [Quad.triangle_two, Quad.get, detFrom, detOf, det]
    ring
  | 3 => by
    simp only [Quad.triangle_three, Quad.get, detFrom, detOf, det]
    ring

/-- A point divides a tetrahedron into four. -/
theorem sum_det_facets (p : Position) (q : Quad Position) :
    (facets.map fun f => detFrom p (q.triangle f)).sum = -detOf q := by
  simp only [facets, List.map_cons, List.map_nil, List.sum_cons, List.sum_nil, Quad.triangle_zero,
    Quad.triangle_one, Quad.triangle_two, Quad.triangle_three, detFrom, detOf, det]
  ring

/-! ## Points -/

theorem Orientation.ofSign_neg (r : Rat) : ofSign (-r) = (ofSign r).opposite := by
  unfold ofSign
  rcases lt_trichotomy r 0 with h | rfl | h
  · rw [if_pos (by linarith), if_neg (by linarith), if_pos h]
    rfl
  · simp [opposite]
  · rw [if_neg (by linarith), if_pos (by linarith), if_pos h]
    rfl

theorem Orientation.ofSign_eq_negative_iff {r : Rat} : ofSign r = .negative ↔ r < 0 := by
  unfold ofSign
  rcases lt_trichotomy r 0 with h | rfl | h
  · simp [h, h.le]
  · simp
  · simp [h, h.le]

theorem Orientation.ofSign_eq_positive_iff {r : Rat} : ofSign r = .positive ↔ 0 < r := by
  unfold ofSign
  rcases lt_trichotomy r 0 with h | rfl | h
  · simp [h, h.le]
  · simp
  · simp [h]

theorem Orientation.ofSign_eq_degenerate_iff {r : Rat} : ofSign r = .degenerate ↔ r = 0 := by
  unfold ofSign
  rcases lt_trichotomy r 0 with h | rfl | h
  · simp [h, h.ne, not_lt_of_gt h]
  · simp
  · simp [h, h.ne']

theorem det?_eq_some_iff {a b c d : Point} {r : Rat} :
    det? a b c d = some r ↔ ∃ a' b' c' d', a.position? = some a' ∧ b.position? = some b' ∧
      c.position? = some c' ∧ d.position? = some d' ∧ det a' b' c' d' = r := by
  simp only [det?, Option.bind_eq_bind, Option.bind_eq_some_iff, Option.pure_def, Option.some_inj]
  constructor
  · rintro ⟨a', ha, b', hb, c', hc, d', hd, h⟩
    exact ⟨a', b', c', d', ha, hb, hc, hd, h⟩
  · rintro ⟨a', b', c', d', ha, hb, hc, hd, h⟩
    exact ⟨a', ha, b', hb, c', hc, d', hd, h⟩

theorem det?_opposite {t u : Triple Point} (h : t.Opposite u) (p : Point) :
    det? p u.c0 u.c1 u.c2 = (det? p t.c0 t.c1 t.c2).map (-·) := by
  obtain ⟨a, b, c⟩ := t
  have hneg : ∀ {a b c d a' b' c' d' : Position}, det a' b' c' d' = -det a b c d →
      some (det a' b' c' d') = (some (det a b c d)).map (-·) := fun h => congrArg some h
  rcases h with rfl | rfl | rfl <;> unfold det? <;> dsimp only <;>
    cases p.position? <;> cases a.position? <;> cases b.position? <;> cases c.position? <;>
    first | rfl | exact hneg (by simp only [det]; ring)

theorem det?_rotate (p a b c : Point) : det? p b c a = det? p a b c := by
  unfold det?
  cases p.position? <;> cases a.position? <;> cases b.position? <;> cases c.position? <;>
    simp only [Option.bind_eq_bind, Option.bind_none, Option.bind_some, det_rotate]

theorem det?_turned {t u : Triple Point} (h : t.Turned u) (p : Point) :
    det? p u.c0 u.c1 u.c2 = det? p t.c0 t.c1 t.c2 := by
  rcases h with rfl | rfl | rfl
  · rfl
  · exact det?_rotate p t.c0 t.c1 t.c2
  · exact (det?_rotate p t.c2 t.c0 t.c1).symm

theorem det?_facet (q : Quad Point) (f : Facet) :
    det? (q.get f) (q.triangle f).c0 (q.triangle f).c1 (q.triangle f).c2 =
      (det? q.s0 q.s1 q.s2 q.s3).map (-·) := by
  obtain ⟨a, b, c, d⟩ := q
  have hneg (p : Quad Position) : some (detFrom (p.get f) (p.triangle f)) =
      (some (detOf p)).map (-·) := congrArg some (det_facet p f)
  rcases slot_cases f with rfl | rfl | rfl | rfl <;> unfold det? <;>
    simp only [Quad.get, Quad.triangle_zero, Quad.triangle_one, Quad.triangle_two,
      Quad.triangle_three] <;>
    cases a.position? <;> cases b.position? <;> cases c.position? <;> cases d.position? <;>
    first | rfl | exact hneg ⟨_, _, _, _⟩

end CavityRepair
