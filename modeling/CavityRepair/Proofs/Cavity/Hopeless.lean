import CavityRepair.Proofs.Cavity.Ghosts
import CavityRepair.Proofs.Cavity.Holder
import CavityRepair.Proofs.Cavity.RescueOutcomes
/-!
# When a rescue fails

Whether a rescue succeeds can be told before it starts: it fails exactly when a ring that it has to
see to is hopeless (`Site.Hopeless`). All tetrahedra of such a ring are deleted, and besides the one
that holds the point they are ghosts.

What is given back on the way does not matter. A ring at which a rescue is given up was stuck from
the beginning (`Site.Good.rescue_stuck`), and what is stuck has only ghosts besides the start
(`Site.Hopeless.of_stuck`). Nor does a rescue save a hopeless ring. As long as no constrained edge
ends at infinity, it gives back neither ghosts nor the start, on whatever ring they lie
(`Site.Hopeless.rescue_ne_ok`).
-/
namespace CavityRepair

/-- On a ring, what has no midpoint is a ghost. -/
theorem Mesh.Built.ghost?_of_midpoint_eq_none [Orient3d] {m : Mesh} {edits : List MeshEdit}
    (hbuilt : m.Built edits) {ends : Finset Vertex} {tet : Nat} {edge : Edge}
    {ring : List RingStep} (hring : m.RingAround ends tet edge ring) {step : RingStep}
    (hstep : step ∈ ring) (hnone : m.oppositeMidpoint? step = none) :
    m.ghost? step.tet = some true := by
  obtain ⟨nodes, hn, -, hperm⟩ := hring.corners step hstep
  have hfirst : step.apexes.1 ∈ nodes.toList := hperm.mem_iff.2 (by simp)
  have hsecond : step.apexes.2 ∈ nodes.toList := hperm.mem_iff.2 (by simp)
  have hinfinity : Vertex.ghost ∈ nodes.toList :=
    ((hbuilt.oppositeMidpoint?_eq_none_iff hn hfirst hsecond).1 hnone).elim (· ▸ hfirst)
      (· ▸ hsecond)
  rw [ghost?, hn, Option.map_some, Option.some_inj]
  by_contra hreal
  exact (hbuilt.hulled.placed hn (Bool.eq_false_iff.2 hreal) _ hinfinity).1 rfl

namespace Site

variable {s : Site} {vertex : Vertex} {p : Point} {checkpoint start tet : Nat} {edge : Edge}
  {policy : Policy}

/-- The ring around a constrained edge of a tetrahedron that was deleted since the checkpoint, all
of whose members are deleted and ghosts, but for the first tetrahedron since the checkpoint. -/
structure Hopeless (s : Site) (checkpoint start tet : Nat) (edge : Edge) : Prop where
  fresh : tet ∈ s.cavity.deleted.drop checkpoint
  marked : s.mesh.marked? tet (.edge edge) = some true
  ring : ∃ ring, s.mesh.ring tet edge = .ok ring ∧ ∀ step ∈ ring, s.mesh.Deleted step.tet ∧
    (step.tet ≠ start → s.mesh.ghost? step.tet = some true)

/-- The first tetrahedron since the checkpoint is one from which a rescue may start. -/
def MayStart [Orient3d] (s : Site) (start : Nat) (p : Point) (policy : Policy) : Prop :=
  s.mesh.ghost? start = some true ∨ s.mesh.contains? start p = some true ∨ policy.checks = false

section

variable [Orient3d]

theorem MayStart.checkStart (h : s.MayStart start p policy) (hlt : start < s.mesh.size) :
    s.checkStart vertex p start policy = .ok () := by
  obtain ⟨nodes, hn⟩ := Mesh.exists_nodes hlt
  unfold MayStart at h
  unfold Site.checkStart Mesh.ghost? Mesh.contains? at *
  rw [hn] at h ⊢
  cases hchecks : policy.checks with
  | false => rfl
  | true =>
    rw [hchecks, Option.map_some, Option.some_inj, Option.map_some, Option.some_inj] at h
    rw [if_pos rfl, Option.map_some, found_some, ok_bind, Option.map_some, found_some, ok_bind]
    exact require_eq_ok_iff.2 (h.imp_right fun h => h.resolve_right Bool.noConfusion)

/-- A rescue that may start runs over what was deleted since the checkpoint. -/
theorem MayStart.rescue_eq (h : s.MayStart start p policy) (hlt : start < s.mesh.size)
    (hp : s.mesh.point? vertex = some p) (hstart : s.cavity.deleted[checkpoint]? = some start)
    (color : UInt16) : s.rescue vertex color checkpoint policy =
      Rescue.run ⟨s, [], [], []⟩ ⟨p, start, color, policy⟩ (s.cavity.deleted.drop checkpoint) := by
  obtain ⟨hcheckpoint, hget⟩ := List.getElem?_eq_some_iff.1 hstart
  have hcheck : s.checkRescue vertex checkpoint = .ok p := by
    unfold checkRescue position Cavity.checkCheckpoint require
    rw [hp]
    simp only [Nat.le_of_lt hcheckpoint, if_true, ok_bind]
    rfl
  unfold rescue
  rw [hcheck, List.drop_eq_getElem_cons hcheckpoint, hget]
  simp only [h.checkStart hlt]

/-- A rescue that may start is given up only at a ring that was stuck before it. -/
theorem Good.rescue_stuck (h : s.Good) (hp : s.mesh.point? vertex = some p)
    (hstart : s.cavity.deleted[checkpoint]? = some start) (hmay : s.MayStart start p policy)
    (color : UInt16) :
    RefusesOnly (s.rescue vertex color checkpoint policy).outcome fun cause =>
      ∃ tet ∈ s.cavity.deleted.drop checkpoint, ∃ edge,
        cause = .noRescueCandidate tet edge ∧ s.mesh.Stuck start tet edge := by
  have hlt : ∀ tet ∈ s.cavity.deleted, tet < s.mesh.size := fun tet ht =>
    h.sound.lt_size_of_deleted ((h.consistent.deleted_iff tet).2 ht)
  have horderly : Rescue.Orderly ⟨s, [], [], []⟩ := ⟨h, fun a ha => absurd ha List.not_mem_nil⟩
  rw [hmay.rescue_eq (hlt start (List.mem_of_getElem? hstart)) hp hstart color]
  exact Rescue.run_refusesOnly ⟨p, start, color, policy⟩ horderly fun tet ht =>
    hlt tet (List.mem_of_mem_drop ht)

/-- A ring that is stuck has only ghosts besides the start. -/
theorem Hopeless.of_stuck {edits : List MeshEdit} (hbuilt : s.mesh.Built edits)
    (hs : s.Consistent) (hfresh : tet ∈ s.cavity.deleted.drop checkpoint)
    (hstuck : s.mesh.Stuck start tet edge) : s.Hopeless checkpoint start tet edge := by
  obtain ⟨hmark, ring, hring, hsteps⟩ := hstuck
  have hlt := hbuilt.sound.lt_size_of_deleted ((hs.deleted_iff tet).2 (List.mem_of_mem_drop hfresh))
  obtain ⟨ring', hring', haround⟩ :=
    hbuilt.sound.toClosed.exists_ringAround (Mesh.nodes_eq_corners hlt) edge
  obtain rfl := Except.ok.inj (hring'.symm.trans hring)
  refine ⟨hfresh, hmark, ring', hring, fun step hstep => ?_⟩
  refine ⟨(hsteps step hstep).1, fun hne => ?_⟩
  exact hbuilt.ghost?_of_midpoint_eq_none haround hstep ((hsteps step hstep).2 hne)

/-- No rescue succeeds when a ring is hopeless: a member that survived would have been given back,
but it is a ghost or the start. -/
theorem Hopeless.rescue_ne_ok (h : s.Hopeless checkpoint start tet edge) {edits : List MeshEdit}
    (hbuilt : s.mesh.Built edits) (hs : s.Good)
    (hreal : ∀ a b, .constrainEdge a b ∈ edits → a ≠ Vertex.ghost ∧ b ≠ Vertex.ghost)
    (hstart : s.cavity.deleted[checkpoint]? = some start) (color : UInt16) :
    (s.rescue vertex color checkpoint policy).outcome ≠ .ok () := by
  intro hok
  have hrepaired := hs.consistent.rescue_repaired hs.sound vertex color checkpoint policy
  have htraced := hs.traced_rescue vertex color checkpoint policy
  obtain ⟨ring, hring, hsteps⟩ := h.ring
  obtain ⟨ring', hring', step, hstep, hsurvives⟩ := hs.hasSurvivor_of_rescue hok h.fresh h.marked
  rw [hrepaired.sameForm.ring_eq, hring] at hring'
  obtain rfl := Except.ok.inj hring'
  obtain ⟨hdeleted, hghost⟩ := hsteps step hstep
  have hback : step.tet ∈ (s.rescue vertex color checkpoint policy).rescue.restored := by
    by_contra hnot
    have hstill := (hrepaired.deleted_iff hs.consistent step.tet).2 ⟨hdeleted, hnot⟩
    exact ((hrepaired.sound hs.sound).deleted?_eq_false_iff.1 hsurvives).2 hstill
  have hne : step.tet ≠ start := fun heq =>
    rescue_start_notMem hstart vertex color policy (heq ▸ hback)
  have hreal' := htraced.ghost?_of_restored hbuilt hreal hback
  rw [hghost hne] at hreal'
  cases hreal'

/-- A rescue that may start fails exactly when a ring is hopeless before it. Then it names such a
ring, and leaves a consistent cavity with a part of what was deleted. -/
theorem rescue_fails_iff {edits : List MeshEdit} (hbuilt : s.mesh.Built edits) (hs : s.Checked)
    (hreal : ∀ a b, .constrainEdge a b ∈ edits → a ≠ Vertex.ghost ∧ b ≠ Vertex.ghost)
    (hp : s.mesh.point? vertex = some p) (hstart : s.cavity.deleted[checkpoint]? = some start)
    (hmay : s.MayStart start p policy) (color : UInt16) :
    ((∃ fault, (s.rescue vertex color checkpoint policy).outcome = .error fault) ↔
      ∃ tet edge, s.Hopeless checkpoint start tet edge) ∧
    ∀ fault, (s.rescue vertex color checkpoint policy).outcome = .error fault →
      (∃ tet edge, fault = .refused (.noRescueCandidate tet edge) ∧
        s.Hopeless checkpoint start tet edge) ∧
      (s.rescue vertex color checkpoint policy).rescue.site.Checked ∧
      (s.rescue vertex color checkpoint policy).rescue.site.cavity.deleted ⊆ s.cavity.deleted := by
  have hm := hbuilt.sound
  have hgood : s.Good := ⟨hs.consistent hm.toLinked, hm⟩
  have hrepaired := hgood.consistent.rescue_repaired hm vertex color checkpoint policy
  have hcause : ∀ fault, (s.rescue vertex color checkpoint policy).outcome = .error fault →
      ∃ tet edge, fault = .refused (.noRescueCandidate tet edge) ∧
        s.Hopeless checkpoint start tet edge := by
    intro fault hfault
    rcases hgood.rescue_stuck hp hstart hmay color with ⟨_, hok⟩ | ⟨cause, hrefused, hcause⟩
    · rw [hok] at hfault
      cases hfault
    · obtain ⟨tet, hfresh, edge, rfl, hstuck⟩ := hcause
      rw [refuse, hfault] at hrefused
      exact ⟨tet, edge, Except.error.inj hrefused, .of_stuck hbuilt hgood.consistent hfresh hstuck⟩
  refine ⟨⟨?_, ?_⟩, fun fault hfault => ?_⟩
  · rintro ⟨fault, hfault⟩
    obtain ⟨tet, edge, -, hhopeless⟩ := hcause fault hfault
    exact ⟨tet, edge, hhopeless⟩
  · rintro ⟨tet, edge, hhopeless⟩
    cases houtcome : (s.rescue vertex color checkpoint policy).outcome with
    | ok _ => exact absurd houtcome (hhopeless.rescue_ne_ok hbuilt hgood hreal hstart color)
    | error fault => exact ⟨fault, rfl⟩
  · refine ⟨hcause fault hfault, hrepaired.consistent.checked (hrepaired.sound hm).toLinked, ?_⟩
    exact fun tet ht => hrepaired.deleted.mem_iff.2 (List.mem_append_right _ ht)

end

/-- Around one edge of the chain there are, besides the tetrahedron with the point, only ghosts. The
rescue gives a tetrahedron at another edge back before it comes to that edge and fails. -/
theorem rescue_fails_iff_chain : ∃ (s : Site) (edits : List MeshEdit),
    prepare? chainCorners chainTets
      [.constrainEdge 1 2, .constrainEdge 0 1, .addVertex ⟨0.25, 0.25, 0.25⟩]
      [[0, 1, 3, 4, 7]] = some s ∧
    s.mesh.Built edits ∧ s.Checked ∧
    (∀ a b, .constrainEdge a b ∈ edits → a ≠ Vertex.ghost ∧ b ≠ Vertex.ghost) ∧
    s.mesh.point? 6 = some ⟨0.25, 0.25, 0.25⟩ ∧ s.cavity.deleted[0]? = some 0 ∧
    s.MayStart 0 ⟨0.25, 0.25, 0.25⟩ .strict ∧
    (s.rescue 6 7 0 .strict).rescue.restored = [1] ∧
    (s.rescue 6 7 0 .strict).outcome = refuse (.noRescueCandidate 0 5) ∧
    (∃ tet edge, s.Hopeless 0 0 tet edge) ∧ (s.rescue 6 7 0 .strict).rescue.site.Checked ∧
    (s.rescue 6 7 0 .strict).rescue.site.cavity.deleted ⊆ s.cavity.deleted := by
  obtain ⟨s, hs, hp, hstart, hinside, hrestored, houtcome⟩ : ∃ s,
      prepare? chainCorners chainTets
        [.constrainEdge 1 2, .constrainEdge 0 1, .addVertex ⟨0.25, 0.25, 0.25⟩]
        [[0, 1, 3, 4, 7]] = some s ∧
      s.mesh.point? 6 = some ⟨0.25, 0.25, 0.25⟩ ∧ s.cavity.deleted[0]? = some 0 ∧
      s.mesh.contains? 0 ⟨0.25, 0.25, 0.25⟩ = some true ∧
      (s.rescue 6 7 0 .strict).rescue.restored = [1] ∧
      (s.rescue 6 7 0 .strict).outcome = refuse (.noRescueCandidate 0 5) :=
    exists_of_any? (by decide +kernel)
  obtain ⟨hchecked, edits, hbuilt, hreal⟩ := prepare?_finite (by decide) hs
  have hmay : s.MayStart 0 ⟨0.25, 0.25, 0.25⟩ .strict := .inr (.inl hinside)
  obtain ⟨hfails, hleft⟩ := rescue_fails_iff hbuilt hchecked hreal hp hstart hmay 7
  obtain ⟨-, hafter, hsubset⟩ := hleft _ houtcome
  exact ⟨s, edits, hs, hbuilt, hchecked, hreal, hp, hstart, hmay, hrestored, houtcome,
    hfails.1 ⟨_, houtcome⟩, hafter, hsubset⟩

end Site

end CavityRepair
