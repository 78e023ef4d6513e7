import CavityRepair.Mesh.Record
import CavityRepair.Proofs.Cavity.InBounds
/-!
# Cavities in loaded meshes

A mesh that was not built but read from a document has any links and any flags that the document
gives it. The check of a cavity can be trusted all the same, as long as links lead somewhere.
Carving and giving back cannot, not even in a mesh that was accepted: `Mesh.validate` looks at no
flags, and it lets a tetrahedron be its own neighbor.

* `Site.checkBoundary_accepts_faithful`: what the check says of any lists.
* `Site.moves_accepted_iff`: in which accepted meshes every run of carvings and restorations leaves
  a cavity that the check accepts. They are the carvable ones (`Mesh.Carvable`).
* `Site.moves_refused_oneSide`: a face of a facet that is constrained on one side only may stay for
  the sake of that side when nothing asks for it for the sake of the other.
-/
namespace CavityRepair

namespace Site

variable {s : Site}

/-! ## The check -/

/-- On any mesh whose links lead to tetrahedra, whatever the lists of the cavity are, the check
accepts exactly what is so, and it follows no index that names no entry. -/
theorem checkBoundary_accepts_faithful (hm : s.mesh.InRange) (checkpoint : Nat) :
    (s.checkBoundary checkpoint = .ok () ↔
      checkpoint ≤ s.cavity.deleted.length ∧ s.Faithful) ∧
    s.checkBoundary checkpoint ≠ .error .outOfRange :=
  ⟨checkBoundary_eq_ok_iff hm, checkBoundary_inBounds hm checkpoint⟩

/-- A tetrahedron whose four links lead to one and the same half-face of another, which leads
nowhere else. -/
def funnel : Mesh where
  vertices := #[]
  nodes := #[⟨0, 1, 2, 3⟩, ⟨4, 4, 4, 4⟩]
  twins := #[.replicate ⟨1, 0⟩, .replicate ⟨1, 2⟩]
  flags := #[.only .deleted, .only (.facet 0)]
  colors := #[0, 0]

/-- The one face behind all facets of the first. -/
def funnelFace : BallFace := ⟨⟨4, 4, 4⟩, ⟨1, 0⟩, .only .face⟩

/-- The four facets of the carved tetrahedron need one face. A second one is refused, and so is one
whose tetrahedron does not exist. -/
theorem checkBoundary_accepts_faithful_funnel : funnel.InRange ∧
    Faithful ⟨funnel, ⟨[0], [funnelFace]⟩⟩ ∧ ¬Faithful ⟨funnel, ⟨[0], [funnelFace, funnelFace]⟩⟩ ∧
    checkBoundary ⟨funnel, ⟨[0], [⟨⟨4, 4, 4⟩, ⟨9, 0⟩, .empty⟩]⟩⟩ 0 ≠ .error .outOfRange := by
  have hm : funnel.InRange := by
    refine ⟨rfl, rfl, rfl, fun {h} hh => ?_⟩
    have hall : ∀ h ∈ funnel.halfFaces, (funnel.twin h).tet < funnel.size := by decide
    exact hall h (Mesh.mem_halfFaces.2 hh)
  have hcheck := fun cavity : Cavity => checkBoundary_accepts_faithful (s := ⟨funnel, cavity⟩) hm 0
  refine ⟨hm, ((hcheck _).1.1 (by decide +kernel)).2, fun h => ?_, (hcheck _).2⟩
  have hok := (hcheck _).1.2 ⟨Nat.zero_le _, h⟩
  revert hok
  decide +kernel

end Site

/-! ## Runs -/

/-- Whether a call carves or gives back a tetrahedron that it names. -/
def Call.moves : Call → Bool
  | .carve _ | .restore .. => true
  | _ => false

namespace Site

variable {s s' : Site}

section

variable [Orient3d]

theorem after_carve {tets : List Nat} {checkpoint : Nat}
    (hcarve : s.carve tets = .ok (s', checkpoint)) : s.after (.carve tets) = s' := by
  simp only [after, hcarve]

theorem after_restore {tet : Nat} {policy : Policy} (hrestore : s.restore tet policy = .ok s') :
    s.after (.restore tet policy) = s' := by
  simp only [after, hrestore]

/-- In a carvable mesh carving and giving back keep the cavity consistent. -/
theorem Consistent.after_move (h : s.Consistent) (hm : s.mesh.Carvable) {call : Call}
    (hcall : call.moves = true) : (s.after call).Consistent ∧ (s.after call).mesh.Carvable := by
  cases call with
  | carve tets =>
    cases hcarve : s.carve tets with
    | ok answer =>
      obtain ⟨-, g⟩ := h.carve_eq_ok hm.toLinked hcarve
      rw [after_carve hcarve]
      exact ⟨h.of_carved hm g, g.sameForm.carvable hm⟩
    | error _ =>
      simp only [after, hcarve]
      exact ⟨h, hm⟩
  | restore tet policy =>
    cases hrestore : s.restore tet policy with
    | ok site =>
      obtain ⟨hdeleted, g⟩ := h.restore_eq_ok hm.toLinked hrestore
      rw [after_restore hrestore]
      exact ⟨h.of_givenBack hm hdeleted g, g.sameForm.carvable hm⟩
    | error _ =>
      simp only [after, hrestore]
      exact ⟨h, hm⟩
  | addVertex | setColor | constrainEdge | constrainFacet | reshape | rescue => cases hcall

theorem Consistent.afterAll_moves (h : s.Consistent) (hm : s.mesh.Carvable) {calls : List Call}
    (hcalls : ∀ call ∈ calls, call.moves = true) :
    (s.afterAll calls).Consistent ∧ (s.afterAll calls).mesh.Carvable := by
  induction calls generalizing s with
  | nil => exact ⟨h, hm⟩
  | cons call rest ih =>
    rw [List.forall_mem_cons] at hcalls
    obtain ⟨h', hm'⟩ := h.after_move hm hcalls.1
    exact ih h' hm' hcalls.2

section

variable {m : Mesh} {h : HalfFace} (hm : m.Linked) (hsurvived : ∀ tet, ¬m.Deleted tet)
  (hh : h.tet < m.size)

include hm hsurvived hh

omit [Orient3d] in
/-- A tetrahedron can be carved where nothing is, and the cavity is consistent whatever is
constrained, since no face was there before. -/
theorem exists_carve_first : ∃ s', carve ⟨m, .empty⟩ [h.tet] = .ok (s', 0) ∧ s'.Consistent ∧
    Carved ⟨m, .empty⟩ s' [h.tet] := by
  have hempty := Consistent.of_survived hsurvived
  have hcheck : m.checkCarve [] [h.tet] = .ok () := by
    apply (Mesh.checkCarve_eq_ok_iff hm.toInRange).2
    simpa using ⟨hh, hsurvived h.tet⟩
  obtain ⟨s', hcarve, g⟩ := hempty.exists_carve hm hcheck
  exact ⟨s', hcarve, hempty.of_carved_of_sides hm g (List.forall_mem_nil _), g⟩

/-- A facet constrained on one side only: when the other side is carved first, its face stays for
the sake of the constrained side, and nothing expects it for the sake of the other. -/
theorem refused_of_oneSided (hne : (m.twin h).tet ≠ h.tet) (hc : m.Constrained h)
    (hc' : ¬m.Constrained (m.twin h)) :
    (afterAll ⟨m, .empty⟩ [.carve [(m.twin h).tet], .carve [h.tet]]).checkBoundary 0 ≠ .ok () := by
  obtain ⟨s₁, hcarve₁, hs₁, g₁⟩ := exists_carve_first hm hsurvived (hm.twin_lt hh)
  have hm₁ : s₁.mesh.Linked := g₁.sameForm.linked hm
  have hdeleted₁ : ∀ tet, s₁.mesh.Deleted tet ↔ tet = (m.twin h).tet := fun tet => by
    simp [g₁.deleted_iff, hsurvived]
  have hcheck : s₁.mesh.checkCarve [] [h.tet] = .ok () := by
    apply (Mesh.checkCarve_eq_ok_iff hm₁.toInRange).2
    simpa [hdeleted₁, hne.symm] using g₁.sameForm.size_eq ▸ hh
  obtain ⟨s₂, hcarve₂, g₂⟩ := hs₁.exists_carve hm₁ hcheck
  have hface₁ : h ∈ s₁.cavity.outers := by
    rw [hs₁.mem_outers_iff hm₁, hdeleted₁, g₁.sameForm.twin_eq]
    refine ⟨rfl, .inl ?_⟩
    rw [g₁.sameForm.twin_eq, hm.twin_twin, hdeleted₁]
    exact hne.symm
  have hface₂ : h ∈ s₂.cavity.outers := by
    rw [g₂.outers, List.mem_append, List.mem_filter, decide_eq_true_eq]
    exact .inl ⟨hface₁, .inr ((g₁.sameForm.constrained_iff h).2 hc)⟩
  have hform : m.SameForm s₂.mesh := g₁.sameForm.trans g₂.sameForm
  intro hok
  rw [afterAll, List.foldl_cons, List.foldl_cons, List.foldl_nil, after_carve hcarve₁,
    after_carve hcarve₂, checkBoundary_eq_ok_iff (hform.linked hm).toInRange] at hok
  obtain ⟨inner, -, htwin, hbounds⟩ := (hok.2.mem_outers h).1 hface₂
  obtain rfl : inner = m.twin h := by
    rw [← ((hform.linked hm).twin?_eq_some_iff.1 htwin).2, hform.twin_eq, hm.twin_twin]
  rcases hbounds with hsurvives | hconstrained
  · exact hsurvives ((g₂.deleted_iff _).2 (.inr (List.mem_singleton_self _)))
  · exact hc' ((hform.constrained_iff _).1 hconstrained)

/-- A facet between a tetrahedron and itself that is not constrained: once the tetrahedron is carved
and given back, it has a face, although nothing is deleted. -/
theorem refused_of_selfJoined (htet : (m.twin h).tet = h.tet) (hc : ¬m.Constrained h) :
    (afterAll ⟨m, .empty⟩ [.carve [h.tet], .restore h.tet .fast]).checkBoundary 0 ≠ .ok () := by
  obtain ⟨s₁, hcarve, hs₁, g₁⟩ := exists_carve_first hm hsurvived hh
  have hm₁ : s₁.mesh.Linked := g₁.sameForm.linked hm
  have hdeleted : s₁.mesh.Deleted h.tet := (g₁.deleted_iff _).2 (.inr (List.mem_singleton_self _))
  obtain ⟨s₂, hrestore, g₂⟩ := hs₁.exists_restore hm₁ hdeleted .fast
  have hface : h ∈ s₂.cavity.outers := by
    refine g₂.mem_outers_iff.2 (.inr ⟨rfl, ?_⟩)
    unfold Mesh.Bounds
    rw [g₁.sameForm.twin_eq, htet, g₁.sameForm.constrained_iff]
    exact not_or.2 ⟨not_not.2 hdeleted, hc⟩
  have hlist : s₂.cavity.deleted = [] := by
    have hperm := g₂.deleted.length_eq
    rw [g₁.deleted] at hperm
    exact List.length_eq_zero_iff.1 (Nat.succ.inj hperm).symm
  have hform : m.SameForm s₂.mesh := g₁.sameForm.trans g₂.sameForm
  intro hok
  rw [afterAll, List.foldl_cons, List.foldl_cons, List.foldl_nil, after_carve hcarve,
    after_restore hrestore, checkBoundary_eq_ok_iff (hform.linked hm).toInRange] at hok
  obtain ⟨inner, hin, -⟩ := (hok.2.mem_outers h).1 hface
  rw [hlist] at hin
  exact List.not_mem_nil hin

end

/-- What runs of carvings and restorations need of a linked mesh. -/
theorem carvable_of_moves {m : Mesh} (hm : m.Linked) (hsurvived : ∀ tet, ¬m.Deleted tet)
    (hruns : ∀ calls : List Call, (∀ call ∈ calls, call.moves = true) →
      (afterAll ⟨m, .empty⟩ calls).checkBoundary 0 = .ok ()) : m.Carvable := by
  have hself : ∀ {h : HalfFace}, h.tet < m.size → (m.twin h).tet = h.tet → m.Constrained h := by
    intro h hh htet
    by_contra hc
    exact refused_of_selfJoined hm hsurvived hh htet hc (hruns _ (by simp [Call.moves]))
  have hother : ∀ {h : HalfFace}, h.tet < m.size → (m.twin h).tet ≠ h.tet →
      m.Constrained h → m.Constrained (m.twin h) := by
    intro h hh hne hc
    by_contra hc'
    exact refused_of_oneSided hm hsurvived hh hne hc hc' (hruns _ (by simp [Call.moves]))
  have hside : ∀ {h : HalfFace}, h.tet < m.size → m.Constrained h → m.Constrained (m.twin h) := by
    intro h hh hc
    by_cases htet : (m.twin h).tet = h.tet
    · exact hself (hm.twin_lt hh) (by rw [hm.twin_twin, htet])
    · exact hother hh htet hc
  refine hm.carvable_iff.2 fun h hh => ⟨⟨fun hc => ?_, hside hh⟩, hself hh⟩
  have hback := hside (hm.twin_lt hh) hc
  rwa [hm.twin_twin] at hback

/-- In an accepted mesh of which nothing was carved, every run of carvings and restorations leaves a
cavity that the check accepts if and only if facets are constrained on both sides or on none, and
those between a tetrahedron and itself are. -/
theorem moves_accepted_iff {m : Mesh} (hvalid : m.validate = .ok ())
    (hsurvived : ∀ tet, ¬m.Deleted tet) :
    (∀ calls : List Call, (∀ call ∈ calls, call.moves = true) →
      (afterAll ⟨m, .empty⟩ calls).checkBoundary 0 = .ok ()) ↔
    ∀ h : HalfFace, h.tet < m.size → (m.Constrained (m.twin h) ↔ m.Constrained h) ∧
      ((m.twin h).tet = h.tet → m.Constrained h) := by
  have hm : m.Linked := Mesh.linked_of_validate hvalid
  rw [← hm.carvable_iff]
  constructor
  · exact carvable_of_moves hm hsurvived
  · intro hcarvable calls hcalls
    obtain ⟨hconsistent, hend⟩ :=
      (Consistent.of_survived hsurvived).afterAll_moves hcarvable hcalls
    exact hconsistent.checkBoundary hend.toLinked (Nat.zero_le _)

end

/-- Two tetrahedra on the two sides of a triangle and the six ghosts around them, with the given
flags. -/
def bipyramid (first second : TetFlags) : Mesh where
  vertices := #[⟨0, 0, 0⟩, ⟨1, 0, 0⟩, ⟨0, 1, 0⟩, ⟨0, 0, 1⟩, ⟨1, 1, 1⟩]
  nodes := #[⟨0, 1, 2, 3⟩, ⟨1, 2, 3, 4⟩, ⟨0, 3, 2, .ghost⟩, ⟨1, 3, 0, .ghost⟩, ⟨0, 2, 1, .ghost⟩,
    ⟨3, 4, 2, .ghost⟩, ⟨1, 4, 3, .ghost⟩, ⟨2, 4, 1, .ghost⟩]
  twins := #[⟨7, 11, 15, 19⟩, ⟨23, 27, 31, 0⟩, ⟨21, 18, 12, 1⟩, ⟨10, 17, 25, 2⟩, ⟨29, 13, 9, 3⟩,
    ⟨30, 8, 24, 4⟩, ⟨22, 14, 28, 5⟩, ⟨26, 16, 20, 6⟩].map (Quad.map HalfFace.ofRaw)
  flags := #[first, second, .empty, .empty, .empty, .empty, .empty, .empty]
  colors := .replicate 8 0

/-- The triangle between the two tetrahedra is constrained on both sides. -/
def bothSides : Mesh := bipyramid (.only (.facet 0)) (.only (.facet 3))

/-- The triangle between the two tetrahedra is constrained on one side. -/
def oneSide : Mesh := bipyramid (.only (.facet 0)) .empty

/-- Constrained on both sides, the triangle does no harm. -/
theorem moves_accepted_iff_bothSides :
    bothSides.validate = .ok () ∧ (∀ tet, ¬bothSides.Deleted tet) ∧
    ∀ calls : List Call, (∀ call ∈ calls, call.moves = true) →
      (afterAll ⟨bothSides, .empty⟩ calls).checkBoundary 0 = .ok () := by
  have hvalid : bothSides.validate = .ok () := by decide +kernel
  have hsurvived := Mesh.not_deleted_of_flags (m := bothSides) (by decide)
  refine ⟨hvalid, hsurvived, (moves_accepted_iff hvalid hsurvived).2 fun h hh => ?_⟩
  have hsides : ∀ h ∈ bothSides.halfFaces,
      (bothSides.Constrained (bothSides.twin h) ↔ bothSides.Constrained h) ∧
      ((bothSides.twin h).tet = h.tet → bothSides.Constrained h) := by decide +kernel
  exact hsides h (Mesh.mem_halfFaces.2 hh)

/-- Constrained on one side, the triangle leaves a face behind that is said to be stray, although
the mesh is one that a document gives and that was accepted. -/
theorem moves_refused_oneSide :
    Mesh.ofDocument? oneSide.toDocument = some oneSide ∧ oneSide.validate = .ok () ∧
    (∀ tet, ¬oneSide.Deleted tet) ∧
    (afterAll ⟨oneSide, .empty⟩ [.carve [1], .carve [0]]).checkBoundary 0 =
      refuse (.inconsistentBoundary (.stray 3 ⟨0, 0⟩)) := by
  refine ⟨?_, ?_, Mesh.not_deleted_of_flags ?_, ?_⟩ <;> decide +kernel

end Site

end CavityRepair
