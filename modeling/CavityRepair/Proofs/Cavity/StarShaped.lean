import Mathlib.Data.Set.Basic
import Mathlib.Order.Bounds.Basic
import CavityRepair.Proofs.Cavity.Runs
/-!
# Star-shaped cavities

Whether a facet is blind depends on the mesh and the point only, not on what is deleted. A set of
tetrahedra is star-shaped for a point when none of the facets that would bound it is blind. A blind
facet that bounds the cavity belongs to no star-shaped part of it, so reshaping gives back nothing
that has to stay (`Site.Consistent.subset_of_repair?`), and what it stops at is star-shaped itself.

* `Site.reshape_isGreatest`: reshaping leaves the greatest star-shaped part of the cavity.
-/
namespace CavityRepair

/-- The tetrahedra of a cavity as a set. -/
def Cavity.tets (c : Cavity) : Set Nat := {tet | tet ∈ c.deleted}

namespace Mesh

variable [Orient3d]

/-- The point does not lie on the inner side of a facet, seen from behind it. -/
def IsBlindFacet (m : Mesh) (p : Point) (policy : Policy) (inner : HalfFace) : Prop :=
  ∃ outer face t, m.twin? inner = some outer ∧ m.ballFace? outer = some face ∧
    face.isGhost = false ∧ m.trianglePoints? face.corners = some t ∧
    (orientation p t.c0 t.c1 t.c2 = .positive ∨
      (orientation p t.c0 t.c1 t.c2 = .degenerate ∧ policy.flatIsBlind = true))

/-- No facet of some tetrahedra that leads out of them or is constrained is blind. -/
def StarShaped (m : Mesh) (p : Point) (policy : Policy) (tets : Set Nat) : Prop :=
  ∀ tet ∈ tets, ∀ facet outer, m.twin? ⟨tet, facet⟩ = some outer →
    (outer.tet ∉ tets ∨ m.Constrained ⟨tet, facet⟩) → ¬m.IsBlindFacet p policy ⟨tet, facet⟩

variable {m m' : Mesh} {p : Point} {policy : Policy}

/-- A face that is up to date is blind when the facet that it stands for is. -/
theorem isBlind_iff (hm : m.Linked) {face : BallFace} (hface : m.ballFace? face.outer = some face)
    (hlt : face.outer.tet < m.size) :
    face.isBlind m p policy = true ↔ m.IsBlindFacet p policy (m.twin face.outer) := by
  have htwin : m.twin? (m.twin face.outer) = some face.outer :=
    hm.twin?_eq_some_iff.2 ⟨hm.twin_lt hlt, hm.twin_twin _⟩
  have hblind : face.isBlind m p policy = true ↔ face.isGhost = false ∧
      ∃ t, m.trianglePoints? face.corners = some t ∧
        (orientation p t.c0 t.c1 t.c2 = .positive ∨
          (orientation p t.c0 t.c1 t.c2 = .degenerate ∧ policy.flatIsBlind = true)) := by
    unfold BallFace.isBlind
    cases m.trianglePoints? face.corners with
    | none => simp
    | some t => cases horient : orientation p t.c0 t.c1 t.c2 <;> simp [horient]
  rw [hblind]
  unfold IsBlindFacet
  constructor
  · rintro ⟨hghost, t, ht, horient⟩
    exact ⟨face.outer, face, t, htwin, hface, hghost, ht, horient⟩
  · rintro ⟨outer, face', t, htwin', hface', hghost, ht, horient⟩
    obtain rfl := Option.some.inj (htwin.symm.trans htwin')
    obtain rfl := Option.some.inj (hface.symm.trans hface')
    exact ⟨hghost, t, ht, horient⟩

/-- A facet with known corners behind it is blind when the point is on the wrong side of them. -/
theorem isBlindFacet_iff_of_triangle (hm : m.Linked) {inner : HalfFace} (hlt : inner.tet < m.size)
    {t : Triple Vertex} {u : Triple Point} (ht : m.triangle? (m.twin inner) = some t)
    (hfinite : Vertex.ghost ∉ t.toList) (hu : m.trianglePoints? t = some u) :
    m.IsBlindFacet p policy inner ↔ orientation p u.c0 u.c1 u.c2 = .positive ∨
      (orientation p u.c0 u.c1 u.c2 = .degenerate ∧ policy.flatIsBlind = true) := by
  obtain ⟨face, hface, -⟩ := hm.exists_ballFace (hm.twin_lt hlt)
  have hcorners : face.corners = t :=
    Option.some_inj.1 ((ballFace?_eq_some_iff.1 hface).2.1.symm.trans ht)
  have hghost : face.isGhost = false := by
    have hne : t.c2 ≠ Vertex.ghost := fun heq => hfinite (by simp [Triple.toList, heq])
    simp [BallFace.isGhost, hcorners, hne]
  constructor
  · rintro ⟨outer, face', u', htwin, hface', -, hu', hblind⟩
    obtain rfl := Option.some_inj.1 ((hm.twin?_eq hlt).symm.trans htwin)
    obtain rfl := Option.some_inj.1 (hface.symm.trans hface')
    rw [hcorners] at hu'
    obtain rfl := Option.some_inj.1 (hu.symm.trans hu')
    exact hblind
  · intro hblind
    exact ⟨_, face, u, hm.twin?_eq hlt, hface, hghost, hcorners ▸ hu, hblind⟩

theorem SameForm.isBlindFacet_iff (h : m.SameForm m') (hvertices : m'.vertices = m.vertices)
    (inner : HalfFace) : m'.IsBlindFacet p policy inner ↔ m.IsBlindFacet p policy inner := by
  unfold IsBlindFacet trianglePoints? point?
  simp only [h.twin?_eq, h.ballFace?_eq, hvertices]

/-- To be star-shaped does not depend on what is deleted. -/
theorem SameForm.starShaped_iff (h : m.SameForm m') (hvertices : m'.vertices = m.vertices)
    (tets : Set Nat) : m'.StarShaped p policy tets ↔ m.StarShaped p policy tets := by
  unfold StarShaped
  simp only [h.twin?_eq, h.constrained_iff, h.isBlindFacet_iff hvertices]

/-- A facet that leads out of both of two sets leads out of each. -/
theorem StarShaped.union {tets tets' : Set Nat} (h : m.StarShaped p policy tets)
    (h' : m.StarShaped p policy tets') : m.StarShaped p policy (tets ∪ tets') := by
  intro tet ht facet outer htwin hbounds
  have hout : ∀ {all : Set Nat}, all ⊆ tets ∪ tets' →
      outer.tet ∉ all ∨ m.Constrained ⟨tet, facet⟩ := fun hsub =>
    hbounds.imp_left fun hnot hin => hnot (hsub hin)
  rcases ht with ht | ht
  · exact h tet ht facet outer htwin (hout Set.subset_union_left)
  · exact h' tet ht facet outer htwin (hout Set.subset_union_right)

end Mesh

namespace Site

section

variable [Orient3d] {s s' : Site} {p : Point} {policy : Policy} {place : Nat}

theorem blindFace?_eq_none_iff :
    s.blindFace? p policy = none ↔
      ∀ face ∈ s.cavity.ball, face.isBlind s.mesh p policy = false := by
  unfold blindFace?
  rw [List.findIdx?_eq_none_iff]

/-- What is found is a blind face. -/
theorem exists_of_blindFace? (h : s.blindFace? p policy = some place) :
    ∃ face ∈ s.cavity.ball, s.cavity.ball[place]? = some face ∧
      face.isBlind s.mesh p policy = true := by
  unfold blindFace? at h
  obtain ⟨hlt, hblind, -⟩ := List.findIdx?_eq_some_iff_getElem.1 h
  exact ⟨_, List.getElem_mem hlt, List.getElem?_eq_getElem hlt, hblind⟩

namespace Consistent

/-- Behind a blind face lies a deleted tetrahedron, and its facet there is blind and bounds the
cavity. -/
theorem behind_spec (h : s.Consistent) (hm : s.mesh.Linked)
    (hblind : s.blindFace? p policy = some place) :
    ∃ inner, (s.behind place : Attempt CavityError Nat) = .ok inner.tet ∧ s.mesh.Deleted inner.tet ∧
      s.mesh.Bounds inner ∧ s.mesh.IsBlindFacet p policy inner := by
  obtain ⟨face, hmem, hget, hblind⟩ := exists_of_blindFace? hblind
  have hlt := h.lt_size_of_mem_ball hm hmem
  obtain ⟨hdeleted, hbounds⟩ := (h.mem_outers_iff hm).1 (mem_outers_of_mem_ball hmem)
  refine ⟨s.mesh.twin face.outer, ?_, hdeleted, hbounds, ?_⟩
  · unfold behind
    rw [hget, found_some, ok_bind, hm.twin?_eq hlt]
    rfl
  · exact (Mesh.isBlind_iff hm (h.fresh face hmem) hlt).1 hblind

/-- A repair never fails. -/
theorem repair?_ne_error (h : s.Consistent) (hm : s.mesh.Linked) (fault : Fault CavityError) :
    s.repair? p policy ≠ some (.error fault) := by
  intro hr
  obtain ⟨place, hblind, hr⟩ := Option.map_eq_some_iff.1 hr
  obtain ⟨inner, hbehind, hdeleted, -⟩ := h.behind_spec hm hblind
  obtain ⟨site, hsite, -⟩ := h.exists_restore hm hdeleted policy
  rw [hbehind, ok_bind, hsite] at hr
  cases hr

/-- The tetrahedron that a repair gives back belongs to no star-shaped part of the cavity. -/
theorem notMem_of_repair? (h : s.Consistent) (hm : s.mesh.Linked) {tet : Nat}
    (hr : s.repair? p policy = some (.ok (tet, s'))) {tets : Set Nat}
    (hstar : s.mesh.StarShaped p policy tets) (hsub : tets ⊆ s.cavity.tets) : tet ∉ tets := by
  obtain ⟨place, hblind, hr⟩ := Option.map_eq_some_iff.1 hr
  obtain ⟨inner, hbehind, hdeleted, hbounds, hfacet⟩ := h.behind_spec hm hblind
  rw [hbehind, ok_bind] at hr
  obtain ⟨site, -, hr⟩ := bind_eq_ok_iff.1 hr
  cases hr
  intro hin
  refine hstar inner.tet hin inner.facet _ (hm.twin?_eq (hm.lt_size_of_deleted hdeleted)) ?_ hfacet
  exact hbounds.imp_left fun hsurvives hout => hsurvives ((h.deleted_iff _).2 (hsub hout))

/-- A star-shaped part of the cavity survives a repair. -/
theorem subset_of_repair? (h : s.Consistent) (hm : s.mesh.Sound) {tet : Nat}
    (hr : s.repair? p policy = some (.ok (tet, s'))) {tets : Set Nat}
    (hstar : s.mesh.StarShaped p policy tets) (hsub : tets ⊆ s.cavity.tets) :
    tets ⊆ s'.cavity.tets := by
  have hnot := h.notMem_of_repair? hm.toLinked hr hstar hsub
  intro u hu
  have hin : u ∈ tet :: s'.cavity.deleted :=
    (h.repair?_repaired hm hr).deleted.mem_iff.1 (hsub hu)
  rcases List.mem_cons.1 hin with rfl | hin
  · exact absurd hu hnot
  · exact hin

/-- A cavity without blind faces is star-shaped. -/
theorem starShaped_of_blindFace? (h : s.Consistent) (hm : s.mesh.Linked)
    (hnone : s.blindFace? p policy = none) : s.mesh.StarShaped p policy s.cavity.tets := by
  intro tet ht facet outer htwin hbounds hblind
  obtain ⟨hlt, rfl⟩ := hm.twin?_eq_some_iff.1 htwin
  have hmem : s.mesh.twin ⟨tet, facet⟩ ∈ s.cavity.outers := by
    rw [h.mem_outers_iff hm, hm.twin_twin]
    exact ⟨(h.deleted_iff tet).2 ht,
      hbounds.imp_left fun hout hd => hout ((h.deleted_iff _).1 hd)⟩
  obtain ⟨face, hface, houter⟩ := List.mem_map.1 hmem
  have hnot := blindFace?_eq_none_iff.1 hnone face hface
  have hblind' : face.isBlind s.mesh p policy = true := by
    rw [Mesh.isBlind_iff hm (h.fresh face hface) (h.lt_size_of_mem_ball hm hface), houter,
      hm.twin_twin]
    exact hblind
  simp [hnot] at hblind'

/-- Shrinking ends without blind faces, and the star-shaped parts of the cavity stay in it. -/
theorem shrink_spec (h : s.Consistent) (hm : s.mesh.Sound) (p : Point) (policy : Policy) :
    (s.shrink p policy).outcome = .ok () ∧
    (s.shrink p policy).scans = (s.shrink p policy).restored.length + 1 ∧
    (s.shrink p policy).site.blindFace? p policy = none ∧
    ∀ tets, s.mesh.StarShaped p policy tets → tets ⊆ s.cavity.tets →
      tets ⊆ (s.shrink p policy).site.cavity.tets := by
  fun_induction Site.shrink s p policy with
  | case1 s hr => exact ⟨rfl, rfl, Option.map_eq_none_iff.1 hr, fun _ _ hsub => hsub⟩
  | case2 s fault hr => exact absurd hr (h.repair?_ne_error hm.toLinked fault)
  | case3 s tet next hr later ih =>
    have hstep := h.repair?_repaired hm hr
    obtain ⟨houtcome, hscans, hnone, hgreatest⟩ := ih hstep.consistent (hstep.sound hm)
    refine ⟨houtcome, ?_, hnone, fun tets hstar hsub => ?_⟩
    · exact congrArg (· + 1) hscans
    · have hnext := (hstep.sameForm.starShaped_iff hstep.vertices tets).2 hstar
      exact hgreatest tets hnext (h.subset_of_repair? hm hr hstar hsub)

/-- Shrinking leaves the greatest star-shaped part of the cavity. -/
theorem shrink_isGreatest (h : s.Consistent) (hm : s.mesh.Sound) (p : Point) (policy : Policy) :
    IsGreatest {tets | s.mesh.StarShaped p policy tets ∧ tets ⊆ s.cavity.tets}
      (s.shrink p policy).site.cavity.tets := by
  have hrepaired := h.shrink_repaired hm p policy
  obtain ⟨-, -, hnone, hgreatest⟩ := h.shrink_spec hm p policy
  refine ⟨⟨?_, fun tet ht => ?_⟩, fun tets htets => hgreatest tets htets.1 htets.2⟩
  · rw [← hrepaired.sameForm.starShaped_iff hrepaired.vertices]
    exact hrepaired.consistent.starShaped_of_blindFace? (hrepaired.sound hm).toLinked hnone
  · exact hrepaired.deleted.mem_iff.2 (List.mem_append_right _ ht)

/-- Nothing stands in the way of reshaping for a vertex that has a position. -/
theorem reshape_eq (h : s.Consistent) (hm : s.mesh.Linked) {vertex : Vertex}
    (hp : s.mesh.point? vertex = some p) {checkpoint : Nat}
    (hle : checkpoint ≤ s.cavity.deleted.length) (policy : Policy) :
    s.reshape vertex checkpoint policy = s.shrink p policy := by
  have hcheck : s.checkReshape vertex checkpoint policy = .ok p := by
    unfold checkReshape position Cavity.checkCheckpoint require
    rw [hp, if_pos hle]
    cases hchecks : policy.checks with
    | true => simp [h.checkBoundary hm hle, pure, Except.pure]
    | false => simp [pure, Except.pure]
  unfold reshape
  rw [hcheck]

omit [Orient3d] in
/-- The order of the two lists does not matter. -/
theorem of_perm (h : s.Consistent) {c : Cavity} (hdeleted : c.deleted.Perm s.cavity.deleted)
    (hball : c.ball.Perm s.cavity.ball) : Site.Consistent ⟨s.mesh, c⟩ where
  nodup := hdeleted.nodup_iff.2 h.nodup
  deleted_iff tet := by rw [h.deleted_iff, hdeleted.mem_iff]
  outers_nodup := (hball.map _).nodup_iff.2 h.outers_nodup
  mem_outers outer := by
    rw [← h.mem_outers]
    exact (hball.map _).mem_iff
  fresh face hf := h.fresh face (hball.mem_iff.1 hf)

end Consistent

/-- Reshaping succeeds and leaves the greatest star-shaped part of the cavity. It looks the ball
over once more than it gives tetrahedra back, and the order of faces and tetrahedra does not
matter. -/
theorem reshape_isGreatest {edits : List MeshEdit} (hbuilt : s.mesh.Built edits) (hs : s.Checked)
    {vertex : Vertex} (hp : s.mesh.point? vertex = some p) {checkpoint : Nat}
    (hle : checkpoint ≤ s.cavity.deleted.length) (policy : Policy) :
    (s.reshape vertex checkpoint policy).outcome = .ok () ∧
    IsGreatest {tets | s.mesh.StarShaped p policy tets ∧ tets ⊆ s.cavity.tets}
      (s.reshape vertex checkpoint policy).site.cavity.tets ∧
    (s.reshape vertex checkpoint policy).restored.length +
      (s.reshape vertex checkpoint policy).site.cavity.deleted.length = s.cavity.deleted.length ∧
    (s.reshape vertex checkpoint policy).scans =
      (s.reshape vertex checkpoint policy).restored.length + 1 ∧
    ∀ c : Cavity, c.deleted.Perm s.cavity.deleted → c.ball.Perm s.cavity.ball →
      (reshape ⟨s.mesh, c⟩ vertex checkpoint policy).site.cavity.tets =
        (s.reshape vertex checkpoint policy).site.cavity.tets := by
  have hm := hbuilt.sound
  have h := hs.consistent hm.toLinked
  rw [h.reshape_eq hm.toLinked hp hle]
  obtain ⟨houtcome, hscans, -, -⟩ := h.shrink_spec hm p policy
  have hgreatest := h.shrink_isGreatest hm p policy
  have hlength := (h.shrink_repaired hm p policy).length_deleted
  rw [List.length_reverse] at hlength
  refine ⟨houtcome, hgreatest, hlength, hscans, fun c hdeleted hball => ?_⟩
  have h' := h.of_perm hdeleted hball
  have hgreatest' := h'.shrink_isGreatest hm p policy
  have htets : c.tets = s.cavity.tets := Set.ext fun tet => hdeleted.mem_iff
  rw [h'.reshape_eq hm.toLinked hp (hdeleted.length_eq ▸ hle)]
  rw [htets] at hgreatest'
  exact hgreatest'.unique hgreatest

end

/-- For a vertex outside the chain, the tetrahedron that it sees from the wrong side is given
back. -/
theorem reshape_isGreatest_chain : ∃ (s : Site) (edits : List MeshEdit),
    s.mesh.Built edits ∧ s.Checked ∧
    s.mesh.point? 6 = some ⟨2, 2, 0⟩ ∧ 2 ≤ s.cavity.deleted.length ∧
    (s.reshape 6 2 .strict).restored = [2] ∧ (s.reshape 6 2 .strict).scans = 2 ∧
    (s.reshape 6 2 .strict).outcome = .ok () ∧
    IsGreatest {tets | s.mesh.StarShaped ⟨2, 2, 0⟩ .strict tets ∧ tets ⊆ s.cavity.tets}
      (s.reshape 6 2 .strict).site.cavity.tets := by
  obtain ⟨s, hs, hp, hle, hrestored⟩ : ∃ s,
      prepare? chainCorners chainTets [.addVertex ⟨2, 2, 0⟩] [[1, 7], [0, 2, 4]] = some s ∧
      s.mesh.point? 6 = some ⟨2, 2, 0⟩ ∧ 2 ≤ s.cavity.deleted.length ∧
      (s.reshape 6 2 .strict).restored = [2] := exists_of_any? (by decide +kernel)
  obtain ⟨hchecked, more, hbuilt⟩ := prepare?_eq_some (by decide) hs
  obtain ⟨houtcome, hgreatest, -, hscans, -⟩ := reshape_isGreatest hbuilt hchecked hp hle .strict
  rw [hrestored] at hscans
  exact ⟨s, _, hbuilt, hchecked, hp, hle, hrestored, hscans, houtcome, hgreatest⟩

end Site

end CavityRepair
