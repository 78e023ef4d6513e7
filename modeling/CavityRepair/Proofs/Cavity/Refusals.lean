import CavityRepair.Proofs.Cavity.Insertion
import CavityRepair.Proofs.Cavity.RescueOutcomes
/-!
# What calls are refused for

On a consistent cavity in a sound mesh a call is refused for what it was given and for nothing else:
no refusal tells of a mesh or a cavity that contradicts itself. One lemma for each operation lists
the causes that are left.

* `Site.no_internal_refusal`: so it is in all sites that runs lead to.
* `Site.Good.eq_setColor_of_outOfRange`: only one call can leave the arrays of the mesh.
-/
namespace CavityRepair

/-- Refusals that tell of a mesh or a cavity that contradicts itself. -/
def CavityError.isInternal : CavityError → Bool
  | .missingFromDeletedSet _ | .boundaryMismatch .. | .inconsistentBoundary _ | .ring _
  | .ringRevisited .. => true
  | _ => false

/-- Refusals to give back a tetrahedron that does not exist or is not deleted. -/
def CavityError.isNotDeleted : CavityError → Bool
  | .unknownTetrahedron .. | .notDeleted _ => true
  | _ => false

/-- Whether a call chooses by itself which tetrahedra it gives back. -/
def Call.repairs : Call → Bool
  | .reshape .. | .rescue .. => true
  | _ => false

/-- How an attempt ends, without its answer. -/
def ending {ε δ α : Type} (f : ε → δ) (x : Attempt ε α) : Attempt δ Unit := do
  let _ ← withCause f x
  return ()

section

variable {ε δ α : Type} {f : ε → δ} {x : Attempt ε α}

theorem ending_eq_ok_iff : ending f x = .ok () ↔ ∃ a, x = .ok a := by
  unfold ending
  match x with
  | .ok a => simp [withCause, bind, Except.bind, pure, Except.pure]
  | .error (.refused cause) => simp [withCause, refuse, bind, Except.bind]
  | .error .outOfRange => simp [withCause, bind, Except.bind]

theorem ending_eq_refuse_iff {cause : δ} :
    ending f x = refuse cause ↔ ∃ cause', x = refuse cause' ∧ f cause' = cause := by
  unfold ending
  match x with
  | .ok a => simp [withCause, refuse, bind, Except.bind, pure, Except.pure]
  | .error (.refused cause') => simp [withCause, refuse, bind, Except.bind]
  | .error .outOfRange => simp [withCause, refuse, bind, Except.bind]

theorem ending_inl_ne {x : Attempt MeshError α} {cause : CavityError} :
    ending .inl x ≠ (refuse (.inr cause) : Attempt (MeshError ⊕ CavityError) Unit) := by
  intro h
  obtain ⟨_, -, he⟩ := ending_eq_refuse_iff.1 h
  cases he

theorem eq_of_ending_inr {x : Attempt CavityError α} {cause : CavityError}
    (h : ending .inr x = (refuse (.inr cause) : Attempt (MeshError ⊕ CavityError) Unit)) :
    x = refuse cause := by
  obtain ⟨cause', hx, he⟩ := ending_eq_refuse_iff.1 h
  rwa [Sum.inr.inj he] at hx

theorem ending_eq_outOfRange_iff : ending f x = .error .outOfRange ↔ x = .error .outOfRange := by
  unfold ending
  match x with
  | .ok a => simp [withCause, bind, Except.bind, pure, Except.pure]
  | .error (.refused cause') => simp [withCause, refuse, bind, Except.bind]
  | .error .outOfRange => simp [withCause, bind, Except.bind]

end

namespace Mesh

variable {m : Mesh}

/-- Tetrahedra to carve are accepted, or one does not exist, or one is deleted or named twice. -/
theorem checkCarve_refusesOnly (hm : m.InRange) (before tets : List Nat) :
    RefusesOnly (m.checkCarve before tets) fun cause =>
      ∃ tet ∈ tets, cause = .unknownTetrahedron tet m.size ∨ cause = .alreadyDeleted tet := by
  induction tets generalizing before with
  | nil => exact .inl ⟨(), rfl⟩
  | cons tet rest ih =>
    rw [checkCarve, checkTet, require]
    by_cases hlt : tet < m.size
    · rw [if_pos hlt, ok_bind, hm.deleted?_eq hlt, found_some, ok_bind, require]
      by_cases hfree : decide (m.Deleted tet) = false ∧ tet ∉ before
      · rw [if_pos hfree, ok_bind]
        refine (ih (tet :: before)).imp_right ?_
        rintro ⟨cause, hrefused, u, hu, hcause⟩
        exact ⟨cause, hrefused, u, List.mem_cons_of_mem _ hu, hcause⟩
      · rw [if_neg hfree]
        exact .inr ⟨_, rfl, tet, List.mem_cons_self, .inr rfl⟩
    · rw [if_neg hlt]
      exact .inr ⟨_, rfl, tet, List.mem_cons_self, .inl rfl⟩

end Mesh

namespace Site

variable {s : Site}

/-- How a call ends. -/
def outcome [Orient3d] (s : Site) : Call → Attempt (MeshError ⊕ CavityError) Unit
  | .addVertex p => ending .inl (s.mesh.edit (.addVertex p))
  | .setColor tet color => ending .inl (s.mesh.edit (.setColor tet color))
  | .constrainEdge a b => ending .inl (s.mesh.edit (.constrainEdge a b))
  | .constrainFacet a b c => ending .inl (s.mesh.edit (.constrainFacet a b c))
  | .carve tets => ending .inr (s.carve tets)
  | .restore tet policy => ending .inr (s.restore tet policy)
  | .reshape vertex checkpoint policy => ending .inr (s.reshape vertex checkpoint policy).outcome
  | .rescue vertex color checkpoint policy =>
    ending .inr (s.rescue vertex color checkpoint policy).outcome

/-! ## Causes -/

/-- Carving goes through or is refused for one of its tetrahedra. -/
theorem carve_refusesOnly (h : s.Good) (tets : List Nat) :
    RefusesOnly (s.carve tets) fun cause =>
      ∃ tet ∈ tets, cause = .unknownTetrahedron tet s.mesh.size ∨ cause = .alreadyDeleted tet := by
  have hm := h.sound.toLinked
  rcases Mesh.checkCarve_refusesOnly hm.toInRange [] tets with ⟨_, hok⟩ | ⟨cause, hrefused, hcause⟩
  · obtain ⟨s', hcarve, -⟩ := h.consistent.exists_carve hm hok
    exact .inl ⟨_, hcarve⟩
  · refine .inr ⟨cause, ?_, hcause⟩
    unfold carve
    rw [hrefused]
    rfl

/-- A tetrahedron is given back, or it does not exist or is not deleted. -/
theorem restore_refusesOnly (h : s.Good) (tet : Nat) (policy : Policy) :
    RefusesOnly (s.restore tet policy) fun cause =>
      cause = .unknownTetrahedron tet s.mesh.size ∨ cause = .notDeleted tet := by
  have hm := h.sound.toLinked
  by_cases hdeleted : s.mesh.Deleted tet
  · obtain ⟨s', hrestore, -⟩ := h.consistent.exists_restore hm hdeleted policy
    exact .inl ⟨s', hrestore⟩
  · unfold restore facesToRemove Mesh.checkTet require
    by_cases hlt : tet < s.mesh.size
    · rw [if_pos hlt, ok_bind, hm.deleted?_eq hlt, found_some, ok_bind, decide_eq_false hdeleted,
        if_neg Bool.false_ne_true]
      exact .inr ⟨_, rfl, .inr rfl⟩
    · rw [if_neg hlt]
      exact .inr ⟨_, rfl, .inl rfl⟩

theorem restore_eq_ok_iff (h : s.Good) (tet : Nat) (policy : Policy) :
    (∃ s', s.restore tet policy = .ok s') ↔ tet < s.mesh.size ∧ s.mesh.Deleted tet := by
  have hm := h.sound.toLinked
  constructor
  · rintro ⟨s', hrestore⟩
    have hdeleted := (h.consistent.restore_eq_ok hm hrestore).1
    exact ⟨hm.lt_size_of_deleted hdeleted, hdeleted⟩
  · rintro ⟨-, hdeleted⟩
    obtain ⟨s', hrestore, -⟩ := h.consistent.exists_restore hm hdeleted policy
    exact ⟨s', hrestore⟩

section

variable [Orient3d]

theorem reshape_of_unknown {vertex : Vertex} (hp : s.mesh.point? vertex = none) (checkpoint : Nat)
    (policy : Policy) :
    s.reshape vertex checkpoint policy = ⟨s, [], 0, refuse (.unknownVertex vertex)⟩ := by
  unfold reshape checkReshape position
  rw [hp]
  rfl

theorem reshape_of_le (h : s.Good) {vertex : Vertex} {p : Point}
    (hp : s.mesh.point? vertex = some p) {checkpoint : Nat}
    (hle : checkpoint ≤ s.cavity.deleted.length) (policy : Policy) :
    (s.reshape vertex checkpoint policy).outcome = .ok () := by
  rw [h.consistent.reshape_eq h.sound.toLinked hp hle]
  exact (h.consistent.shrink_spec h.sound p policy).1

/-- Reshaping succeeds, or the vertex has no position or the checkpoint lies beyond the list. -/
theorem reshape_refusesOnly (h : s.Good) (vertex : Vertex) (checkpoint : Nat) (policy : Policy) :
    RefusesOnly (s.reshape vertex checkpoint policy).outcome fun cause =>
      cause = .unknownVertex vertex ∨
      cause = .invalidCheckpoint checkpoint s.cavity.deleted.length := by
  cases hp : s.mesh.point? vertex with
  | none =>
    rw [reshape_of_unknown hp]
    exact .inr ⟨_, rfl, .inl rfl⟩
  | some p =>
    rcases Nat.lt_or_ge s.cavity.deleted.length checkpoint with hlt | hle
    · rw [reshape_of_lt hp hlt]
      exact .inr ⟨_, rfl, .inr rfl⟩
    · exact .inl ⟨(), reshape_of_le h hp hle policy⟩

theorem reshape_eq_ok_iff (h : s.Good) (vertex : Vertex) (checkpoint : Nat) (policy : Policy) :
    (s.reshape vertex checkpoint policy).outcome = .ok () ↔
      (∃ p, s.mesh.point? vertex = some p) ∧ checkpoint ≤ s.cavity.deleted.length := by
  constructor
  · intro hok
    cases hp : s.mesh.point? vertex with
    | none =>
      rw [reshape_of_unknown hp] at hok
      cases hok
    | some p =>
      refine ⟨⟨p, rfl⟩, Nat.le_of_not_lt fun hlt => ?_⟩
      rw [reshape_of_lt hp hlt] at hok
      cases hok
  · rintro ⟨⟨p, hp⟩, hle⟩
    exact reshape_of_le h hp hle policy

/-! ## Calls -/

/-- No refusal of a call tells of a mesh or a cavity that contradicts itself. Reshaping and rescuing
choose deleted tetrahedra only, so they are not refused for others. -/
theorem Good.refusal_cases (h : s.Good) {call : Call} {cause : CavityError}
    (hcall : s.outcome call = refuse (.inr cause)) :
    cause.isInternal = false ∧ (call.repairs = true → cause.isNotDeleted = false) := by
  cases call with
  | addVertex p => exact absurd hcall ending_inl_ne
  | setColor tet color => exact absurd hcall ending_inl_ne
  | constrainEdge a b => exact absurd hcall ending_inl_ne
  | constrainFacet a b c => exact absurd hcall ending_inl_ne
  | carve tets =>
    have hcauses := (carve_refusesOnly h tets).cause_of_eq (eq_of_ending_inr hcall)
    obtain ⟨tet, -, rfl | rfl⟩ := hcauses <;> exact ⟨rfl, nofun⟩
  | restore tet policy =>
    have hcauses := (restore_refusesOnly h tet policy).cause_of_eq (eq_of_ending_inr hcall)
    obtain rfl | rfl := hcauses <;> exact ⟨rfl, nofun⟩
  | reshape vertex checkpoint policy =>
    have hcauses :=
      (reshape_refusesOnly h vertex checkpoint policy).cause_of_eq (eq_of_ending_inr hcall)
    obtain rfl | rfl := hcauses <;> exact ⟨rfl, fun _ => rfl⟩
  | rescue vertex color checkpoint policy =>
    have hcauses :=
      (rescue_refusesOnly h vertex color checkpoint policy).cause_of_eq (eq_of_ending_inr hcall)
    obtain rfl | rfl | ⟨start, rfl⟩ | ⟨tet, edge, rfl⟩ := hcauses <;> exact ⟨rfl, fun _ => rfl⟩

/-- Of the calls that set no constraints, painting a tetrahedron that does not exist is the only one
that leaves the arrays of the mesh. -/
theorem Good.eq_setColor_of_outOfRange (h : s.Good) {call : Call} (hcall : call.constrains = false)
    (hout : s.outcome call = .error .outOfRange) :
    ∃ tet color, call = .setColor tet color ∧ s.mesh.size ≤ tet := by
  cases call with
  | constrainEdge a b => cases hcall
  | constrainFacet a b c => cases hcall
  | addVertex p =>
    have hx := ending_eq_outOfRange_iff.1 hout
    unfold Mesh.edit at hx
    cases hadd : s.mesh.addVertex p <;>
      simp [hadd, Except.mapError, bind, Except.bind, pure, Except.pure] at hx
  | setColor tet color =>
    refine ⟨tet, color, rfl, Nat.le_of_not_lt fun hlt => ?_⟩
    have hx := ending_eq_outOfRange_iff.1 hout
    unfold Mesh.edit at hx
    simp only at hx
    rw [Mesh.exists_setColor h.sound.toInRange hlt] at hx
    cases hx
  | carve tets =>
    exact absurd (ending_eq_outOfRange_iff.1 hout) (carve_refusesOnly h tets).ne_outOfRange
  | restore tet policy =>
    exact absurd (ending_eq_outOfRange_iff.1 hout) (restore_refusesOnly h tet policy).ne_outOfRange
  | reshape vertex checkpoint policy =>
    exact absurd (ending_eq_outOfRange_iff.1 hout)
      (reshape_refusesOnly h vertex checkpoint policy).ne_outOfRange
  | rescue vertex color checkpoint policy =>
    exact absurd (ending_eq_outOfRange_iff.1 hout)
      (rescue_refusesOnly h vertex color checkpoint policy).ne_outOfRange

/-! ## Runs -/

/-- The sites that runs lead to: a mesh is built, constraints are set before anything is carved, and
then come calls that set none. -/
def Reached (s : Site) : Prop :=
  ∃ vertices tets m setup calls, Mesh.ofTetrahedra vertices tets = .ok m ∧
    (∀ call ∈ setup, call.carves = false) ∧ (∀ call ∈ calls, call.constrains = false) ∧
    s = afterAll ⟨m, .empty⟩ (setup ++ calls)

theorem Reached.good (h : s.Reached) : s.Good := by
  obtain ⟨vertices, tets, m, setup, calls, hm, hsetup, hcalls, rfl⟩ := h
  unfold afterAll
  rw [List.foldl_append]
  exact ((untouched_of_ofTetrahedra hm).afterAll hsetup).good.afterAll hcalls

/-- Whatever calls were made before and however they ended, no call is refused because the mesh or
the cavity contradicts itself. Reshaping and rescuing do not try to give back what is not deleted.
Hence a tetrahedron can be given back exactly when it is deleted, and reshaping succeeds exactly
when the vertex is known and the checkpoint lies within the list. -/
theorem no_internal_refusal (hs : s.Reached) :
    (∀ call cause, s.outcome call = refuse (.inr cause) → cause.isInternal = false) ∧
    (∀ call cause, call.repairs = true → s.outcome call = refuse (.inr cause) →
      cause.isNotDeleted = false) ∧
    (∀ tet policy, s.outcome (.restore tet policy) = .ok () ↔
      tet < s.mesh.size ∧ s.mesh.Deleted tet) ∧
    ∀ vertex checkpoint policy, s.outcome (.reshape vertex checkpoint policy) = .ok () ↔
      (∃ p, s.mesh.point? vertex = some p) ∧ checkpoint ≤ s.cavity.deleted.length := by
  have h := hs.good
  refine ⟨fun call cause hcall => (h.refusal_cases hcall).1,
    fun call cause hrepairs hcall => (h.refusal_cases hcall).2 hrepairs, fun tet policy => ?_,
    fun vertex checkpoint policy => ?_⟩
  · exact ending_eq_ok_iff.trans (restore_eq_ok_iff h tet policy)
  · have hunit : (∃ a, (s.reshape vertex checkpoint policy).outcome = .ok a) ↔
        (s.reshape vertex checkpoint policy).outcome = .ok () :=
      ⟨fun ⟨_, ha⟩ => ha, fun ha => ⟨(), ha⟩⟩
    exact ending_eq_ok_iff.trans (hunit.trans (reshape_eq_ok_iff h vertex checkpoint policy))

end

/-- After the run in a single tetrahedron, what is deleted can be given back and nothing else, and
the checkpoint of a reshaping may be anything up to the end of the list. -/
theorem no_internal_refusal_unitRun : ∃ s : Site, s.Reached ∧ s.cavity.deleted = [0, 1, 2] ∧
    s.outcome (.restore 2 .strict) = .ok () ∧ s.outcome (.restore 3 .strict) ≠ .ok () ∧
    s.outcome (.reshape 4 3 .strict) = .ok () ∧ s.outcome (.reshape 4 4 .strict) ≠ .ok () ∧
    ∀ call cause, s.outcome call = refuse (.inr cause) → cause.isInternal = false := by
  obtain ⟨m, hm, hdeleted, hsize, hthree, hp⟩ :
      ∃ m, Mesh.ofTetrahedra unitCorners [⟨0, 1, 2, 3⟩] = .ok m ∧
      (afterAll ⟨m, .empty⟩ ([.constrainFacet 0 1 2] ++ unitRun)).cavity.deleted = [0, 1, 2] ∧
      (afterAll ⟨m, .empty⟩ ([.constrainFacet 0 1 2] ++ unitRun)).mesh.size = 5 ∧
      ¬(afterAll ⟨m, .empty⟩ ([.constrainFacet 0 1 2] ++ unitRun)).mesh.Deleted 3 ∧
      (afterAll ⟨m, .empty⟩ ([.constrainFacet 0 1 2] ++ unitRun)).mesh.point? 4 =
        some ⟨0.25, 0.25, 0.25⟩ := exists_of_any (by decide +kernel)
  have hreached : (afterAll ⟨m, .empty⟩ ([.constrainFacet 0 1 2] ++ unitRun)).Reached :=
    ⟨_, _, m, _, _, hm, by decide, by decide, rfl⟩
  generalize afterAll ⟨m, .empty⟩ ([.constrainFacet 0 1 2] ++ unitRun) = s at *
  obtain ⟨hinternal, -, hrestore, hreshape⟩ := no_internal_refusal hreached
  have htwo : s.mesh.Deleted 2 := by
    rw [hreached.good.consistent.deleted_iff, hdeleted]
    decide
  refine ⟨s, hreached, hdeleted, (hrestore 2 .strict).2 ⟨by omega, htwo⟩,
    fun hok => hthree ((hrestore 3 .strict).1 hok).2,
    (hreshape 4 3 .strict).2 ⟨⟨_, hp⟩, by simp [hdeleted]⟩, fun hok => ?_, hinternal⟩
  have := ((hreshape 4 4 .strict).1 hok).2
  simp [hdeleted] at this

end Site

end CavityRepair
