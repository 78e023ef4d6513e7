import CavityRepair.Mesh.Record
import CavityRepair.Proofs.Mesh.Facing
import CavityRepair.Proofs.Mesh.WellLinked
/-!
# Folds

For each of two neighbors the check of a mesh looks where the far corner of the other lies, seen
from the facet as the first one passes it. That the near corner lies on the other side is not looked
at: it is so when the tetrahedron is negatively oriented, as all real ones of a built mesh are. Two
neighbors that are positively oriented and pass their triangle in one direction take each other's
corner to be behind it, although both corners are before it.

This supposes a test that sees the corners of the two on the sides that their exact positions give.
For finite corners that is to say that its signs are exact (`Orient3d.ExactOn.faithful`).

* `Mesh.validate_opposite_iff`: real neighbors in an accepted mesh have one orientation, and which
  it is decides whether they lie on opposite sides of their triangle or are folded onto each other.
* `Mesh.validate_accepts_fold`: a mesh that a document gives and that is accepted with a fold.
-/
namespace CavityRepair

/-- Two points lie on the two sides of a triangle, neither in its plane. -/
def Triple.Separates [Orient3d] (t : Triple Point) (p q : Point) : Prop :=
  orientation p t.c0 t.c1 t.c2 = .negative ∧ orientation q t.c0 t.c1 t.c2 = .positive ∨
  orientation p t.c0 t.c1 t.c2 = .positive ∧ orientation q t.c0 t.c1 t.c2 = .negative

instance [Orient3d] (t : Triple Point) (p q : Point) : Decidable (t.Separates p q) :=
  inferInstanceAs (Decidable (_ ∧ _ ∨ _ ∧ _))

namespace Mesh

variable {m : Mesh} {here there : HalfFace} {mine theirs : Quad Vertex} {p q : Quad Point}

theorem trianglePoints?_triangle (h : m.tetPoints? mine = some p) (f : Facet) :
    m.trianglePoints? (mine.triangle f) = some (p.triangle f) := by
  have hpoint := tetPoints?_eq_some_iff.1 h
  exact trianglePoints?_eq_some_iff.2 ⟨hpoint _, hpoint _, hpoint _⟩

/-- Corners that are passed in the same direction have positions that are so. -/
theorem turned_points {t u : Triple Vertex} (h : t.Turned u) {a b : Triple Point}
    (ha : m.trianglePoints? t = some a) (hb : m.trianglePoints? u = some b) : a.Turned b := by
  obtain ⟨h0, h1, h2⟩ := trianglePoints?_eq_some_iff.1 ha
  rcases h with rfl | rfl | rfl
  · exact .inl (Option.some_inj.1 (hb.symm.trans ha))
  · have hturned : m.trianglePoints? ⟨t.c1, t.c2, t.c0⟩ = some ⟨a.c1, a.c2, a.c0⟩ :=
      trianglePoints?_eq_some_iff.2 ⟨h1, h2, h0⟩
    exact .inr (.inl (Option.some_inj.1 (hb.symm.trans hturned)))
  · have hturned : m.trianglePoints? ⟨t.c2, t.c0, t.c1⟩ = some ⟨a.c2, a.c0, a.c1⟩ :=
      trianglePoints?_eq_some_iff.2 ⟨h2, h0, h1⟩
    exact .inr (.inr (Option.some_inj.1 (hb.symm.trans hturned)))

theorem opposite_points {t u : Triple Vertex} (h : t.Opposite u) {a b : Triple Point}
    (ha : m.trianglePoints? t = some a) (hb : m.trianglePoints? u = some b) : a.Opposite b := by
  obtain ⟨b', hb', hopposite⟩ := exists_opposite_points h ha
  rwa [Option.some_inj.1 (hb.symm.trans hb')]

namespace WellLinked

variable [Orient3d] (hm : m.WellLinked) (hlink : m.twin? here = some there)
  (hmine : m.nodes[here.tet]? = some mine) (htheirs : m.nodes[there.tet]? = some theirs)
  (hp : m.tetPoints? mine = some p) (hq : m.tetPoints? theirs = some q)

include hm hlink hmine htheirs hp hq

/-- Linked half-faces pass the positions of their corners in the same direction or in opposite
ones. -/
theorem turned_or_opposite :
    (p.triangle here.facet).Turned (q.triangle there.facet) ∨
      (p.triangle here.facet).Opposite (q.triangle there.facet) := by
  obtain ⟨k, t, u, -, htwin, -, ht, hu, hperm⟩ := hm.exists_twin (lt_size_of_nodes hmine)
  obtain rfl := Option.some_inj.1 (htwin.symm.trans hlink)
  obtain rfl := Option.some_inj.1 (ht.symm.trans (triangle?_eq hmine))
  obtain rfl := Option.some_inj.1 (hu.symm.trans (triangle?_eq htheirs))
  rcases Triple.turned_or_opposite hperm with h | h
  · exact .inl (turned_points h (trianglePoints?_triangle hp _) (trianglePoints?_triangle hq _))
  · exact .inr (opposite_points h (trianglePoints?_triangle hp _) (trianglePoints?_triangle hq _))

/-- The far corner of a real neighbor lies behind the triangle. -/
theorem apart (hreal : mine.isGhost = false) (hreal' : theirs.isGhost = false) :
    orientation (q.get there.facet) (p.triangle here.facet).c0 (p.triangle here.facet).c1
      (p.triangle here.facet).c2 = .negative := by
  have hhere := lt_size_of_nodes hmine
  have htwin : m.twin here = there := by rw [twin, hlink, Option.getD_some]
  have hapart := (hm.linkedAt here hhere).apart
  rw [htwin] at hapart
  exact hapart mine hmine theirs htheirs hreal hreal' _ (trianglePoints?_triangle hp _) _
    (tetPoints?_eq_some_iff.1 hq _)

end WellLinked

/-- In any mesh that is accepted, two real neighbors with known positions, whose corners the test
sees on their exact sides, are not flat and have the same orientation. The far corner of the other
is behind the triangle as each of them passes it. So the two lie on opposite sides of the triangle
if they are negatively oriented, and on the same side if they are positively oriented. -/
theorem validate_opposite_iff [Orient3d] (hvalid : m.validate = .ok ())
    (hlink : m.twin? here = some there) (hmine : m.nodes[here.tet]? = some mine)
    (htheirs : m.nodes[there.tet]? = some theirs) (hreal : mine.isGhost = false)
    (hreal' : theirs.isGhost = false) (hp : m.tetPoints? mine = some p)
    (hq : m.tetPoints? theirs = some q)
    (hexact : Orient3d.Faithful (p.toList ++ q.toList).toArray) :
    orientationOf p ≠ .degenerate ∧ orientationOf q = orientationOf p ∧
    orientation (q.get there.facet) (p.triangle here.facet).c0 (p.triangle here.facet).c1
      (p.triangle here.facet).c2 = .negative ∧
    orientation (p.get here.facet) (p.triangle here.facet).c0 (p.triangle here.facet).c1
      (p.triangle here.facet).c2 = (orientationOf p).opposite ∧
    ((p.triangle here.facet).Separates (p.get here.facet) (q.get there.facet) ↔
      orientationOf p = .negative) := by
  have hm : m.WellLinked := validate_eq_ok_iff_wellLinked.1 hvalid
  have hback : m.twin? there = some here := by
    obtain ⟨k, -, -, -, htwin, hback, -⟩ := hm.exists_twin (lt_size_of_nodes hmine)
    rwa [← Option.some_inj.1 (htwin.symm.trans hlink)]
  have hfar := hm.apart hlink hmine htheirs hp hq hreal hreal'
  have hnear := hm.apart hback htheirs hmine hq hp hreal' hreal
  have hmemP : ∀ i, p.get i ∈ (p.toList ++ q.toList).toArray := fun i =>
    List.mem_toArray.2 (List.mem_append_left _ (Quad.mem_toList.2 ⟨i, rfl⟩))
  have hmemQ : ∀ i, q.get i ∈ (p.toList ++ q.toList).toArray := fun i =>
    List.mem_toArray.2 (List.mem_append_right _ (Quad.mem_toList.2 ⟨i, rfl⟩))
  have hsideP := hexact.orientation_facet hmemP here.facet
  have hsideQ := hexact.orientation_facet hmemQ there.facet
  have htriangle : (p.triangle here.facet).c0 ∈ (p.toList ++ q.toList).toArray ∧
      (p.triangle here.facet).c1 ∈ (p.toList ++ q.toList).toArray ∧
      (p.triangle here.facet).c2 ∈ (p.toList ++ q.toList).toArray := ⟨hmemP _, hmemP _, hmemP _⟩
  -- Only here does the direction in which the neighbor passes the triangle matter.
  have hsame : orientationOf p ≠ .degenerate ∧ orientationOf q = orientationOf p := by
    rcases hm.turned_or_opposite hlink hmine htheirs hp hq with h | h
    · rw [hexact.orientation_of_turned (hmemP _) htriangle h, hsideP,
        Orientation.opposite_eq_iff] at hnear
      rw [hexact.orientation_of_turned (hmemQ _) htriangle h, hfar, eq_comm,
        Orientation.opposite_eq_iff] at hsideQ
      rw [hnear, hsideQ]
      exact ⟨by decide, rfl⟩
    · rw [hexact.orientation_of_opposite (hmemP _) htriangle h, hsideP,
        Orientation.opposite_eq_iff, Orientation.opposite_eq_iff] at hnear
      rw [hexact.orientation_of_opposite (hmemQ _) htriangle h, hfar, eq_comm,
        Orientation.opposite_eq_iff] at hsideQ
      rw [hnear, hsideQ]
      exact ⟨by decide, rfl⟩
  refine ⟨hsame.1, hsame.2, hfar, hsideP, ?_⟩
  rw [Triple.Separates, hfar, hsideP]
  cases orientationOf p <;> simp [Orientation.opposite]

/-- The two real tetrahedra of the pyramid lie on opposite sides of their triangle. -/
theorem validate_opposite_iff_pyramid : ∃ m, ofTetrahedra pyramidCorners pyramidTets = .ok m ∧
    m.validate = .ok () ∧ m.twin? ⟨0, 0⟩ = some ⟨1, 2⟩ ∧
    ∃ p, m.tetPoints? ⟨0, 1, 2, 3⟩ = some p ∧ orientationOf p = .negative ∧
    ∃ q, m.tetPoints? ⟨1, 3, 4, 2⟩ = some q ∧
      Orient3d.Faithful (p.toList ++ q.toList).toArray ∧
      (p.triangle 0).Separates (p.get 0) (q.get 2) := by
  obtain ⟨m, hm, hvalid, hlink, hmine, htheirs, hp, hq⟩ : ∃ m,
      ofTetrahedra pyramidCorners pyramidTets = .ok m ∧ m.validate = .ok () ∧
      m.twin? ⟨0, 0⟩ = some ⟨1, 2⟩ ∧
      m.nodes[0]? = some ⟨0, 1, 2, 3⟩ ∧ m.nodes[1]? = some ⟨1, 3, 4, 2⟩ ∧
      m.tetPoints? ⟨0, 1, 2, 3⟩ = some ⟨⟨0, 0, 0⟩, ⟨1, 0, 0⟩, ⟨0, 1, 0⟩, ⟨0, 0, 1⟩⟩ ∧
      m.tetPoints? ⟨1, 3, 4, 2⟩ = some ⟨⟨1, 0, 0⟩, ⟨0, 0, 1⟩, ⟨1, 1, 1⟩, ⟨0, 1, 0⟩⟩ :=
    exists_of_any (by decide +kernel)
  have hnegative : orientationOf ⟨⟨0, 0, 0⟩, ⟨1, 0, 0⟩, ⟨0, 1, 0⟩, ⟨0, 0, 1⟩⟩ = .negative := by
    decide +kernel
  have hexact := Orient3d.faithful_exact
  obtain ⟨-, -, -, -, hiff⟩ :=
    validate_opposite_iff hvalid hlink hmine htheirs (by decide) (by decide) hp hq (hexact _)
  exact ⟨m, hm, hvalid, hlink, _, hp, hnegative, _, hq, hexact _, hiff.2 hnegative⟩

/-- Two tetrahedra below one triangle, the second around the first, both in the order that makes
them positively oriented, and the ghosts around them. -/
def folded : Mesh where
  vertices := #[⟨0, 0, 0⟩, ⟨1, 0, 0⟩, ⟨0, 1, 0⟩, ⟨0, 0, -1⟩, ⟨0, 0, -2⟩]
  nodes := #[⟨0, 1, 2, 3⟩, ⟨0, 1, 2, 4⟩, ⟨2, 3, 1, .ghost⟩, ⟨0, 3, 2, .ghost⟩, ⟨1, 3, 0, .ghost⟩,
    ⟨2, 4, 1, .ghost⟩, ⟨0, 4, 2, .ghost⟩, ⟨1, 4, 0, .ghost⟩]
  twins := #[⟨11, 15, 19, 7⟩, ⟨23, 27, 31, 3⟩, ⟨18, 21, 12, 0⟩, ⟨10, 25, 16, 1⟩, ⟨14, 29, 8, 2⟩,
    ⟨30, 9, 24, 4⟩, ⟨22, 13, 28, 5⟩, ⟨26, 17, 20, 6⟩].map (Quad.map HalfFace.ofRaw)
  flags := .replicate 8 .empty
  colors := .replicate 8 0

/-- A document can give a mesh with a fold that is accepted, also by a test that sees its vertices
on their exact sides: the far corners of two real neighbors are known, and their triangle does not
separate them. -/
theorem validate_accepts_fold : Orient3d.Faithful folded.vertices ∧
    ofDocument? folded.toDocument = some folded ∧ folded.validate = .ok () ∧
    folded.twin? ⟨0, 3⟩ = some ⟨1, 3⟩ ∧
    folded.ghost? 0 = some false ∧ folded.ghost? 1 = some false ∧
    folded.nodes[0]? = some ⟨0, 1, 2, 3⟩ ∧ folded.nodes[1]? = some ⟨0, 1, 2, 4⟩ ∧
    ∃ p, folded.tetPoints? ⟨0, 1, 2, 3⟩ = some p ∧
    ∃ q, folded.tetPoints? ⟨0, 1, 2, 4⟩ = some q ∧
      ¬(p.triangle 3).Separates (p.get 3) (q.get 3) := by
  refine ⟨Orient3d.faithful_exact _, ?_, ?_, ?_, ?_, ?_, ?_, ?_,
    ⟨⟨0, 0, 0⟩, ⟨1, 0, 0⟩, ⟨0, 1, 0⟩, ⟨0, 0, -1⟩⟩, ?_,
    ⟨⟨0, 0, 0⟩, ⟨1, 0, 0⟩, ⟨0, 1, 0⟩, ⟨0, 0, -2⟩⟩, ?_, ?_⟩ <;> decide +kernel

end Mesh

end CavityRepair
