import CavityRepair.Proofs.Cavity.Hopeless
import CavityRepair.Proofs.Cavity.Refusals
/-!
# Repairs without checks

A policy may turn the checks of the cavity's own bookkeeping off. On a good site it does not matter:
no check finds anything, neither at the start of a repair nor at any site that it passes through, so
the repair ends in the same way, at the same site, with both lists in the same order. The only check
that depends on what the caller says is the one of the first tetrahedron of a rescue, and it passes
when the rescue may start there (`Site.MayStart`).

* `Site.restore_congr`: a restoration does not depend on the policy at all.
* `Site.shrink_congr`, `Rescue.sweep_congr`: a repair that goes on from restoration to restoration.
* `Site.checks_find_nothing`: restoring, reshaping and rescuing.
-/
namespace CavityRepair

namespace Mesh

variable {m : Mesh} {policy policy' : Policy}

/-- A ring without repetitions that is new is visited with and without checks in the same way. -/
theorem visitRing_congr {ring : List RingStep} {visited : List (Nat × Edge)}
    (hnodup : (ring.map (·.tet)).Nodup) (hnew : ∀ step ∈ ring, (step.tet, step.edge) ∉ visited) :
    m.visitRing policy visited ring = m.visitRing policy' visited ring := by
  induction ring generalizing visited with
  | nil => rfl
  | cons step rest ih =>
    rw [List.forall_mem_cons] at hnew
    rw [List.map_cons, List.nodup_cons] at hnodup
    have hrest : ∀ other ∈ rest,
        (other.tet, other.edge) ∉ (step.tet, step.edge) :: visited := by
      intro other hother hmem
      rcases List.mem_cons.1 hmem with heq | hmem
      · exact hnodup.1 (List.mem_map.2 ⟨other, hother, congrArg Prod.fst heq⟩)
      · exact hnew.2 other hother hmem
    have hpass : ∀ policy : Policy,
        (require (policy.checks = false ∨ (step.tet, step.edge) ∉ visited)
          (.ringRevisited step.tet step.edge) : Attempt CavityError Unit) = .ok () := by
      intro policy
      exact require_eq_ok_iff.2 (.inr hnew.1)
    rw [visitRing, visitRing, hpass, hpass, ih hnodup.2 hrest]

end Mesh

namespace Site

variable {s : Site} {policy policy' : Policy} {p : Point}

/-! ## Restoring and reshaping -/

/-- Which faces go with a tetrahedron, or why it cannot be given back, does not depend on checks. -/
theorem facesToRemove_congr (h : s.Good) (tet : Nat) :
    s.facesToRemove tet policy = s.facesToRemove tet policy' := by
  have hm := h.sound.toLinked
  by_cases hdeleted : s.mesh.Deleted tet
  · rw [h.consistent.facesToRemove_eq hm hdeleted, h.consistent.facesToRemove_eq hm hdeleted]
  · -- What does not exist or is not deleted is refused before anything is checked.
    unfold facesToRemove Mesh.checkTet require
    by_cases hlt : tet < s.mesh.size
    · simp only [hlt, if_true, ok_bind, hm.deleted?_eq hlt, found_some, decide_eq_false hdeleted,
        Bool.false_eq_true, if_false]
      rfl
    · simp only [hlt, if_false]
      rfl

theorem restore_congr (h : s.Good) (tet : Nat) : s.restore tet policy = s.restore tet policy' := by
  unfold restore
  rw [facesToRemove_congr h tet]

variable [Orient3d]

theorem blindFace?_congr (hflat : policy.flatIsBlind = policy'.flatIsBlind) :
    s.blindFace? p policy = s.blindFace? p policy' := by
  unfold blindFace? BallFace.isBlind
  rw [hflat]

theorem repair?_congr (h : s.Good) (hflat : policy.flatIsBlind = policy'.flatIsBlind) :
    s.repair? p policy = s.repair? p policy' := by
  have hrestore : ∀ tet, s.restore tet policy = s.restore tet policy' := restore_congr h
  unfold repair?
  simp only [blindFace?_congr hflat, hrestore]

/-- One round of shrinking. -/
theorem shrink_eq (s : Site) (p : Point) (policy : Policy) : s.shrink p policy =
    match s.repair? p policy with
    | none => ⟨s, [], 1, .ok ()⟩
    | some (.error fault) => ⟨s, [], 1, .error fault⟩
    | some (.ok (tet, next)) =>
      { next.shrink p policy with
        restored := tet :: (next.shrink p policy).restored
        scans := (next.shrink p policy).scans + 1 } := by
  rw [shrink]
  split <;> rename_i hr <;> rw [hr]

/-- Shrinking gives the same tetrahedra back in the same order, with and without checks. -/
theorem shrink_congr (h : s.Good) (hflat : policy.flatIsBlind = policy'.flatIsBlind) :
    s.shrink p policy = s.shrink p policy' := by
  fun_induction Site.shrink s p policy with
  | case1 s hr => rw [shrink_eq, ← repair?_congr h hflat, hr]
  | case2 s fault hr => rw [shrink_eq, ← repair?_congr h hflat, hr]
  | case3 s tet next hr later ih =>
    have hnext := (h.consistent.repair?_repaired h.sound hr).good h
    rw [shrink_eq s, ← repair?_congr h hflat, hr]
    simp only [later, ih hnext]

theorem reshape_congr (h : s.Good) (hflat : policy.flatIsBlind = policy'.flatIsBlind)
    (vertex : Vertex) (checkpoint : Nat) :
    s.reshape vertex checkpoint policy = s.reshape vertex checkpoint policy' := by
  cases hp : s.mesh.point? vertex with
  | none => rw [reshape_of_unknown hp, reshape_of_unknown hp]
  | some p =>
    rcases Nat.lt_or_ge s.cavity.deleted.length checkpoint with hlt | hle
    · rw [reshape_of_lt hp hlt, reshape_of_lt hp hlt]
    · rw [h.consistent.reshape_eq h.sound.toLinked hp hle,
        h.consistent.reshape_eq h.sound.toLinked hp hle]
      exact shrink_congr h hflat

end Site

/-! ## Rescuing -/

/-- The same goal under another policy. -/
def RescueGoal.under (goal : RescueGoal) (policy : Policy) : RescueGoal :=
  { goal with policy := policy }

namespace Rescue

variable {r : Rescue} {goal : RescueGoal} {policy : Policy}

theorem giveBack_congr (hr : r.site.Good) (tet : Nat) :
    r.giveBack goal tet = r.giveBack (goal.under policy) tet := by
  have hrestore : ∀ {mesh : Mesh},
      (r.site.mesh.setColor tet goal.color : Attempt CavityError Mesh) = .ok mesh →
      Site.restore ⟨mesh, r.site.cavity⟩ tet goal.policy =
        Site.restore ⟨mesh, r.site.cavity⟩ tet policy := by
    intro mesh hmesh
    obtain rfl := Mesh.setColor_eq_ok hmesh
    have hpainted := (Site.Repaired.refl hr.consistent).of_sameForm
      (Mesh.sameForm_paint r.site.mesh tet goal.color) rfl fun _ => .rfl
    exact Site.restore_congr (hpainted.good hr) tet
  unfold giveBack RescueGoal.under
  cases hmesh : (r.site.mesh.setColor tet goal.color : Attempt CavityError Mesh) with
  | error fault => rfl
  | ok mesh => simp only [hrestore hmesh]

/-- A walk around an edge that was not visited finds no edge visited twice. -/
theorem walk_congr (hr : r.Orderly) {tet : Nat} {edge : Edge} (htet : tet < r.site.mesh.size)
    (hnew : (tet, edge) ∉ r.visited) :
    r.walk goal tet edge = r.walk (goal.under policy) tet edge := by
  have hm := hr.good.sound.toClosed
  have hring := Mesh.ring_eq hm htet edge
  generalize (List.iterate r.site.mesh.next (.ofEdge tet edge)
    (r.site.mesh.period (.ofEdge tet edge))).map r.site.mesh.ringStep = ring at hring
  have hvisit : r.site.mesh.visitRing goal.policy r.visited ring =
      r.site.mesh.visitRing policy r.visited ring :=
    Mesh.visitRing_congr (Mesh.ring_nodup hm htet hring) (hr.closed.notMem hm htet hring hnew)
  have hback : ∀ visited rings member,
      giveBack { r with visited := visited, rings := rings } goal member =
        giveBack { r with visited := visited, rings := rings } (goal.under policy) member :=
    fun visited rings member => giveBack_congr (r := ⟨r.site, visited, rings, r.restored⟩) hr.good _
  unfold walk
  simp only [hring, withCause, hvisit, hback]
  rfl

/-- A sweep does the same with and without checks. -/
theorem sweep_congr (hr : r.Orderly) {pairs : List (Nat × Edge)}
    (hpairs : ∀ pair ∈ pairs, pair.1 < r.site.mesh.size) :
    r.sweep goal pairs = r.sweep (goal.under policy) pairs := by
  induction pairs generalizing r with
  | nil => rfl
  | cons pair rest ih =>
    obtain ⟨tet, edge⟩ := pair
    rw [List.forall_mem_cons] at hpairs
    unfold sweep
    cases hdue : (r.isDue tet edge : Attempt CavityError Bool) with
    | error fault => rfl
    | ok due =>
      cases due with
      | false => exact ih hr hpairs.2
      | true =>
        obtain ⟨-, hmark, hnew⟩ := isDue_eq_true hdue
        have horderly := (walk_refusesOnly goal hr hpairs.1 hmark hnew).2
        obtain ⟨restored, -, hrep⟩ :=
          (walk_advanced goal hr.good.consistent hr.good.sound tet edge).repaired
        have hwalk : r.walk goal tet edge = r.walk (goal.under policy) tet edge :=
          walk_congr hr hpairs.1 hnew
        simp only [← hwalk, ih horderly (hrep.sameForm.size_eq ▸ hpairs.2)]

theorem run_congr (hr : r.Orderly) {fresh : List Nat}
    (hfresh : ∀ tet ∈ fresh, tet < r.site.mesh.size) :
    r.run goal fresh = r.run (goal.under policy) fresh := by
  unfold run
  rw [← sweep_congr hr fun pair hpair => hfresh pair.1 (mem_edgesOf.1 hpair)]
  rfl

end Rescue

namespace Site

variable {s : Site} {vertex : Vertex} {checkpoint : Nat}

section

variable [Orient3d]

/-- A rescue that may start whether there are checks or not does the same with and without. -/
theorem rescue_congr_of_start (h : s.Good) {p : Point} (hp : s.mesh.point? vertex = some p)
    {start : Nat} (hstart : s.cavity.deleted[checkpoint]? = some start) {policy policy' : Policy}
    (hmay : s.MayStart start p policy) (hmay' : s.MayStart start p policy') (color : UInt16) :
    s.rescue vertex color checkpoint policy = s.rescue vertex color checkpoint policy' := by
  have hlt : ∀ tet ∈ s.cavity.deleted, tet < s.mesh.size := fun tet ht =>
    h.sound.lt_size_of_deleted ((h.consistent.deleted_iff tet).2 ht)
  have horderly : Rescue.Orderly ⟨s, [], [], []⟩ := ⟨h, fun a ha => absurd ha List.not_mem_nil⟩
  have hstartlt := hlt start (List.mem_of_getElem? hstart)
  rw [hmay.rescue_eq hstartlt hp hstart color, hmay'.rescue_eq hstartlt hp hstart color]
  exact Rescue.run_congr horderly fun tet ht => hlt tet (List.mem_of_mem_drop ht)

/-- A rescue to which the check of its first tetrahedron does not matter: it is refused before, it
has no first tetrahedron, or that one is a ghost or contains the vertex. -/
inductive StartsAnyway (s : Site) (vertex : Vertex) (checkpoint : Nat) : Prop where
  | unknown (hp : s.mesh.point? vertex = none)
  | beyond (hlt : s.cavity.deleted.length < checkpoint)
  | nothing (hnil : s.cavity.deleted.drop checkpoint = [])
  | ghost {start : Nat} (hstart : s.cavity.deleted[checkpoint]? = some start)
      (hghost : s.mesh.ghost? start = some true)
  | inside {start : Nat} {p : Point} (hstart : s.cavity.deleted[checkpoint]? = some start)
      (hp : s.mesh.point? vertex = some p) (hinside : s.mesh.contains? start p = some true)

theorem rescue_congr (h : s.Good) (hstarts : s.StartsAnyway vertex checkpoint)
    (policy policy' : Policy) (color : UInt16) :
    s.rescue vertex color checkpoint policy = s.rescue vertex color checkpoint policy' := by
  cases hp : s.mesh.point? vertex with
  | none =>
    unfold rescue checkRescue position
    rw [hp]
    rfl
  | some p =>
    cases hdrop : s.cavity.deleted.drop checkpoint with
    | nil =>
      unfold rescue
      rw [hdrop]
    | cons start others =>
      have hstart : s.cavity.deleted[checkpoint]? = some start := by
        rw [← Nat.add_zero checkpoint, ← List.getElem?_drop, hdrop]
        rfl
      have hmay : ∀ policy, s.MayStart start p policy := by
        intro policy
        cases hstarts with
        | unknown hnone => simp [hp] at hnone
        | beyond hlt => simp [List.drop_eq_nil_of_le (Nat.le_of_lt hlt)] at hdrop
        | nothing hnil => simp [hnil] at hdrop
        | ghost hstart' hghost =>
          obtain rfl := Option.some_inj.1 (hstart.symm.trans hstart')
          exact .inl hghost
        | inside hstart' hp' hinside =>
          obtain rfl := Option.some_inj.1 (hstart.symm.trans hstart')
          obtain rfl := Option.some_inj.1 (hp.symm.trans hp')
          exact .inr (.inl hinside)
      exact rescue_congr_of_start h hp hstart (hmay policy) (hmay policy') color

/-- On a consistent cavity of a built mesh checks find nothing: with and without them, restoring and
reshaping end in the same way at the same site, and so does rescuing when the check of its first
tetrahedron does not matter. -/
theorem checks_find_nothing {edits : List MeshEdit} (hbuilt : s.mesh.Built edits) (hs : s.Checked)
    (flat : Bool) :
    (∀ tet, s.restore tet ⟨true, flat⟩ = s.restore tet ⟨false, flat⟩) ∧
    (∀ vertex checkpoint, s.reshape vertex checkpoint ⟨true, flat⟩ =
      s.reshape vertex checkpoint ⟨false, flat⟩) ∧
    ∀ vertex color checkpoint, s.StartsAnyway vertex checkpoint →
      s.rescue vertex color checkpoint ⟨true, flat⟩ =
        s.rescue vertex color checkpoint ⟨false, flat⟩ := by
  have hm := hbuilt.sound
  have h : s.Good := ⟨hs.consistent hm.toLinked, hm⟩
  refine ⟨fun tet => restore_congr h tet, fun vertex checkpoint => ?_,
    fun vertex color checkpoint hstarts => rescue_congr h hstarts _ _ color⟩
  apply reshape_congr h
  rfl

end

/-- Two tetrahedra of the chain are rescued from the point in the first one, and one more is given
back by the reshaping after it, all without checks as with them. -/
theorem checks_find_nothing_chain : ∃ (s : Site) (edits : List MeshEdit),
    prepare? chainCorners chainTets
      [.constrainEdge 1 2, .constrainEdge 0 2, .addVertex ⟨0.25, 0.25, 0.25⟩]
      [[0, 1, 2, 4, 7, 10]] = some s ∧
    s.mesh.Built edits ∧ s.Checked ∧ s.StartsAnyway 6 0 ∧
    (s.rescue 6 7 0 ⟨true, true⟩).rescue.restored = [2, 1] ∧
    s.rescue 6 7 0 ⟨true, true⟩ = s.rescue 6 7 0 ⟨false, true⟩ ∧
    s.reshape 6 3 ⟨true, true⟩ = s.reshape 6 3 ⟨false, true⟩ ∧
    s.restore 4 ⟨true, true⟩ = s.restore 4 ⟨false, true⟩ := by
  obtain ⟨s, hs, hp, hstart, hinside, hrestored⟩ : ∃ s,
      prepare? chainCorners chainTets
        [.constrainEdge 1 2, .constrainEdge 0 2, .addVertex ⟨0.25, 0.25, 0.25⟩]
        [[0, 1, 2, 4, 7, 10]] = some s ∧
      s.mesh.point? 6 = some ⟨0.25, 0.25, 0.25⟩ ∧ s.cavity.deleted[0]? = some 0 ∧
      s.mesh.contains? 0 ⟨0.25, 0.25, 0.25⟩ = some true ∧
      (s.rescue 6 7 0 ⟨true, true⟩).rescue.restored = [2, 1] := exists_of_any? (by decide +kernel)
  obtain ⟨hchecked, more, hbuilt⟩ := prepare?_eq_some (by decide) hs
  have hstarts : s.StartsAnyway 6 0 := .inside hstart hp hinside
  obtain ⟨hrestore, hreshape, hrescue⟩ := checks_find_nothing hbuilt hchecked true
  exact ⟨s, _, hs, hbuilt, hchecked, hstarts, hrestored, hrescue 6 7 0 hstarts, hreshape 6 3,
    hrestore 4⟩

end Site

end CavityRepair
