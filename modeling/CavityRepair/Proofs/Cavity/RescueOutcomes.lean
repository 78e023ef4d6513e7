import CavityRepair.Proofs.Cavity.EdgeSurvival
/-!
# How rescues end

A rescue that is given up on the way lacks a tetrahedron to give back; there is no other reason. In
particular no edge is visited twice. Edges are visited ring by ring, and to be on one ring is an
equivalence, so what was visited is at all times a union of rings (`Mesh.RingClosed`). A ring that
is walked from an edge that was not visited has nothing in common with it.

* `Rescue.sweep_refusesOnly`: a sweep succeeds or finds no tetrahedron to give back for a ring that
  was stuck (`Mesh.Stuck`) from the beginning.
* `Site.rescue_refusesOnly`: all that can come out of a rescue.
-/
namespace CavityRepair

/-! ## Attempts -/

/-- An attempt that never leaves its arrays, and is refused for certain causes only. -/
def RefusesOnly {ε α : Type} (x : Attempt ε α) (causes : ε → Prop) : Prop :=
  (∃ a, x = .ok a) ∨ ∃ cause, x = refuse cause ∧ causes cause

namespace RefusesOnly

variable {ε α : Type} {x : Attempt ε α} {causes : ε → Prop}

theorem cause_of_eq (h : RefusesOnly x causes) {cause : ε} (hx : x = refuse cause) :
    causes cause := by
  rcases h with ⟨a, rfl⟩ | ⟨cause', rfl, hcause⟩
  · cases hx
  · cases hx
    exact hcause

theorem mono (h : RefusesOnly x causes) {causes' : ε → Prop}
    (hcauses : ∀ cause, causes cause → causes' cause) : RefusesOnly x causes' :=
  h.imp_right fun ⟨cause, hx, hcause⟩ => ⟨cause, hx, hcauses cause hcause⟩

theorem ne_outOfRange (h : RefusesOnly x causes) : x ≠ .error .outOfRange := by
  rcases h with ⟨a, rfl⟩ | ⟨cause, rfl, -⟩ <;> simp [refuse]

end RefusesOnly

namespace Mesh

variable {m m' : Mesh} {tet : Nat} {edge : Edge} {ring : List RingStep}
  {visited visited' : List (Nat × Edge)}

/-- Edges of tetrahedra that come together with all others on their rings. -/
def RingClosed (m : Mesh) (visited : List (Nat × Edge)) : Prop :=
  ∀ a ∈ visited, a.1 < m.size ∧ ∀ b, m.OnRing a b → b ∈ visited

theorem SameShape.ringClosed (h : m.SameShape m') (hv : m.RingClosed visited) :
    m'.RingClosed visited := by
  intro a ha
  obtain ⟨hlt, hall⟩ := hv a ha
  exact ⟨h.size_eq ▸ hlt, fun b hb => hall b (h.onRing_iff.1 hb)⟩

/-- A ring that starts at an edge that was not visited is new as a whole. -/
theorem RingClosed.notMem (hv : m.RingClosed visited) (hm : m.Closed) (htet : tet < m.size)
    (hring : m.ring tet edge = .ok ring) (hnew : (tet, edge) ∉ visited) :
    ∀ step ∈ ring, (step.tet, step.edge) ∉ visited := by
  intro step hstep hmem
  have hon : m.OnRing (tet, edge) (step.tet, step.edge) := ⟨ring, hring, step, hstep, rfl⟩
  exact hnew ((hv _ hmem).2 _ (hon.symm hm htet))

/-- With a ring added, what was visited is still closed. -/
theorem RingClosed.append (hv : m.RingClosed visited) (hm : m.Closed) (htet : tet < m.size)
    (hring : m.ring tet edge = .ok ring)
    (hmem : ∀ a, a ∈ visited' ↔ a ∈ visited ∨ ∃ step ∈ ring, (step.tet, step.edge) = a) :
    m.RingClosed visited' := by
  have hon : ∀ a, m.OnRing (tet, edge) a → a ∈ visited' := by
    rintro a ⟨ring', hring', step, hstep, rfl⟩
    obtain rfl : ring' = ring := Except.ok.inj (hring'.symm.trans hring)
    exact (hmem _).2 (.inr ⟨step, hstep, rfl⟩)
  intro a ha
  rcases (hmem a).1 ha with hold | ⟨step, hstep, rfl⟩
  · obtain ⟨hlt, hall⟩ := hv a hold
    exact ⟨hlt, fun b hb => (hmem b).2 (.inl (hall b hb))⟩
  · have hstart : m.OnRing (tet, edge) (step.tet, step.edge) := ⟨ring, hring, step, hstep, rfl⟩
    exact ⟨hstart.lt_size, fun b hb => hon b (hstart.trans hm htet hb)⟩

/-- A ring without repetitions that is new goes through, and it is swallowed when all its
tetrahedra are deleted. -/
theorem exists_visitRing (hm : m.Linked) (policy : Policy) (hlt : ∀ step ∈ ring, step.tet < m.size)
    (hnodup : (ring.map (·.tet)).Nodup)
    (hnew : ∀ step ∈ ring, (step.tet, step.edge) ∉ visited) :
    ∃ visited', m.visitRing policy visited ring =
      .ok (visited', decide (∀ step ∈ ring, m.Deleted step.tet)) := by
  induction ring generalizing visited with
  | nil => exact ⟨visited, by simp [visitRing]⟩
  | cons step rest ih =>
    rw [List.forall_mem_cons] at hlt hnew
    rw [List.map_cons, List.nodup_cons] at hnodup
    have hrest : ∀ other ∈ rest,
        (other.tet, other.edge) ∉ (step.tet, step.edge) :: visited := by
      intro other hother hmem
      rcases List.mem_cons.1 hmem with heq | hmem
      · exact hnodup.1 (List.mem_map.2 ⟨other, hother, congrArg Prod.fst heq⟩)
      · exact hnew.2 other hother hmem
    obtain ⟨visited', hvisit⟩ := ih hlt.2 hnodup.2 hrest
    refine ⟨visited', ?_⟩
    rw [visitRing, require, if_pos (.inr hnew.1), ok_bind, hm.deleted?_eq hlt.1, found_some,
      ok_bind, hvisit, ok_bind]
    simp only [List.forall_mem_cons, Bool.decide_and]
    rfl

/-- From the ring around a constrained edge nothing can be given back: all its tetrahedra are
deleted, and besides the first one since the checkpoint none has a midpoint. -/
def Stuck (m : Mesh) (start tet : Nat) (edge : Edge) : Prop :=
  m.marked? tet (.edge edge) = some true ∧ ∃ ring, m.ring tet edge = .ok ring ∧
    ∀ step ∈ ring, m.Deleted step.tet ∧ (step.tet ≠ start → m.oppositeMidpoint? step = none)

/-- Tetrahedra that exist can be painted. -/
theorem exists_setColor {ε : Type} (hm : m.InRange) (htet : tet < m.size) (color : UInt16) :
    (m.setColor tet color : Attempt ε Mesh) = .ok (m.paint tet color) := by
  have : tet < m.colors.size := hm.colors_size ▸ htet
  rw [setColor, Array.getElem?_eq_getElem this]
  rfl

theorem exists_paintDeleted {ε : Type} (hm : m.InRange) {tets : List Nat}
    (hlt : ∀ tet ∈ tets, tet < m.size) (color : UInt16) :
    ∃ m', (m.paintDeleted color tets : Attempt ε Mesh) = .ok m' := by
  induction tets generalizing m with
  | nil => exact ⟨m, rfl⟩
  | cons tet rest ih =>
    rw [List.forall_mem_cons] at hlt
    rw [paintDeleted, hm.deleted?_eq hlt.1, found_some, ok_bind, exists_setColor hm hlt.1, ok_bind]
    split
    · exact ih ((sameForm_paint m tet color).inRange hm) hlt.2
    · exact ih hm hlt.2

end Mesh

/-- A ring that is stuck after a repair was so before it. -/
theorem Site.Repaired.stuck {s s' : Site} {restored : List Nat} (h : s.Repaired s' restored)
    (hs : s.Consistent) {start tet : Nat} {edge : Edge} (hstuck : s'.mesh.Stuck start tet edge) :
    s.mesh.Stuck start tet edge := by
  obtain ⟨hmark, ring, hring, hsteps⟩ := hstuck
  rw [h.sameForm.marked? _ _ (by simp)] at hmark
  rw [h.sameForm.ring_eq] at hring
  refine ⟨hmark, ring, hring, fun step hstep => ?_⟩
  obtain ⟨hdeleted, hnone⟩ := hsteps step hstep
  rw [Mesh.oppositeMidpoint?_eq h.vertices] at hnone
  exact ⟨((h.deleted_iff hs _).1 hdeleted).1, hnone⟩

namespace Rescue

variable {r : Rescue} {goal : RescueGoal} {tet : Nat} {edge : Edge}

/-- A rescue on its way: the cavity is in order, and rings are visited as a whole. -/
structure Orderly (r : Rescue) : Prop where
  good : r.site.Good
  closed : r.site.mesh.RingClosed r.visited

/-- A deleted tetrahedron is colored and given back, and nothing fails after it was colored. -/
theorem giveBack_eq (goal : RescueGoal) (hr : r.site.Good) (hdeleted : r.site.mesh.Deleted tet) :
    ∃ site,
      r.giveBack goal tet = ⟨{ r with site := site, restored := tet :: r.restored }, .ok ()⟩ ∧
        site.mesh = (r.site.mesh.paint tet goal.color).unmark tet .deleted := by
  have hm := hr.sound.toLinked
  have hform := Mesh.sameForm_paint r.site.mesh tet goal.color
  have hpainted : Site.Consistent ⟨r.site.mesh.paint tet goal.color, r.site.cavity⟩ :=
    hr.consistent.of_sameForm hform fun _ => .rfl
  obtain ⟨site, hsite, hgiven⟩ := hpainted.exists_restore (hform.linked hm) hdeleted goal.policy
  refine ⟨site, ?_, hgiven.mesh⟩
  unfold giveBack
  rw [Mesh.exists_setColor hm.toInRange (hm.lt_size_of_deleted hdeleted)]
  simp only [hsite]

/-- The reason for which rescues are given up on the way. -/
def LacksCandidate (cause : CavityError) : Prop := ∃ tet edge, cause = .noRescueCandidate tet edge

/-- A walk from an edge that was not visited notes the ring there as a whole. If a member survives,
that is all. If none does, the farthest member is given back, or the walk is refused for want of
one. -/
theorem walk_orderly (goal : RescueGoal) (hr : r.Orderly) (htet : tet < r.site.mesh.size)
    (hnew : (tet, edge) ∉ r.visited) : ∃ ring visited, r.site.mesh.ring tet edge = .ok ring ∧
      (∀ a, a ∈ visited ↔ a ∈ r.visited ∨ ∃ step ∈ ring, (step.tet, step.edge) = a) ∧
      ((∃ step ∈ ring, ¬r.site.mesh.Deleted step.tet) ∧
          r.walk goal tet edge = ⟨⟨r.site, visited, ring :: r.rings, r.restored⟩, .ok ()⟩ ∨
        (∀ step ∈ ring, r.site.mesh.Deleted step.tet) ∧
          (r.site.mesh.farthestMember? ring goal.start goal.point = none ∧
              r.walk goal tet edge = ⟨⟨r.site, visited, ring :: r.rings, r.restored⟩,
                refuse (.noRescueCandidate tet edge)⟩ ∨
            ∃ member site, r.walk goal tet edge =
              ⟨⟨site, visited, ring :: r.rings, member :: r.restored⟩, .ok ()⟩)) := by
  have hm := hr.good.sound.toClosed
  have hring := Mesh.ring_eq hm htet edge
  obtain ⟨visited, hvisit⟩ := Mesh.exists_visitRing hm.toLinked goal.policy
    (fun _ => Mesh.lt_size_of_mem_ring hring) (Mesh.ring_nodup hm htet hring)
    (hr.closed.notMem hm htet hring hnew)
  generalize (List.iterate r.site.mesh.next (.ofEdge tet edge)
    (r.site.mesh.period (.ofEdge tet edge))).map r.site.mesh.ringStep = ring at hring hvisit
  refine ⟨ring, visited, hring, (Mesh.visitRing_eq_ok hvisit).1, ?_⟩
  unfold walk
  by_cases hswallowed : ∀ step ∈ ring, r.site.mesh.Deleted step.tet
  · rw [decide_eq_true hswallowed] at hvisit
    simp only [hring, withCause, hvisit, if_true]
    refine .inr ⟨hswallowed, ?_⟩
    cases hmember : r.site.mesh.farthestMember? ring goal.start goal.point with
    | none => exact .inl ⟨rfl, rfl⟩
    | some member =>
      obtain ⟨⟨step, hstep, rfl, -⟩, -⟩ := Mesh.mem_of_farthestMember? hmember
      obtain ⟨site, heq, -⟩ := giveBack_eq goal
        (r := ⟨r.site, visited, ring :: r.rings, r.restored⟩) hr.good (hswallowed step hstep)
      exact .inr ⟨step.tet, site, heq⟩
  · rw [decide_eq_false hswallowed] at hvisit
    simp only [hring, withCause, hvisit, Bool.false_eq_true, if_false]
    exact .inl ⟨by simpa using hswallowed, trivial⟩

/-- A walk from an edge that was not visited succeeds or finds no tetrahedron to give back. -/
theorem walk_refusesOnly (goal : RescueGoal) (hr : r.Orderly) (htet : tet < r.site.mesh.size)
    (hmark : r.site.mesh.marked? tet (.edge edge) = some true) (hnew : (tet, edge) ∉ r.visited) :
    RefusesOnly (r.walk goal tet edge).outcome (fun cause =>
        cause = .noRescueCandidate tet edge ∧ r.site.mesh.Stuck goal.start tet edge) ∧
      (r.walk goal tet edge).rescue.Orderly := by
  have hadvanced := walk_advanced goal hr.good.consistent hr.good.sound tet edge
  obtain ⟨restored, -, hrep⟩ := hadvanced.repaired
  obtain ⟨ring, visited, hring, hvisited, hends⟩ := walk_orderly goal hr htet hnew
  have hclosed := hrep.sameForm.toSameShape.ringClosed
    (hr.closed.append hr.good.sound.toClosed htet hring hvisited)
  have horderly : (r.walk goal tet edge).rescue.visited = visited →
      (r.walk goal tet edge).rescue.Orderly := fun heq =>
    ⟨hadvanced.good hr.good, heq ▸ hclosed⟩
  rcases hends with ⟨-, heq⟩ | ⟨hswallowed, ⟨hnone, heq⟩ | ⟨member, site, heq⟩⟩
  · exact ⟨.inl ⟨(), by rw [heq]⟩, horderly (by rw [heq])⟩
  · refine ⟨.inr ⟨_, by rw [heq], rfl, hmark, ring, hring, fun step hstep => ?_⟩,
      horderly (by rw [heq])⟩
    exact ⟨hswallowed step hstep, Mesh.farthestMember?_eq_none_iff.1 hnone step hstep⟩
  · exact ⟨.inl ⟨(), by rw [heq]⟩, horderly (by rw [heq])⟩

/-- Whether an edge of a tetrahedron that exists is due is known. -/
theorem exists_isDue {ε : Type} (hm : r.site.mesh.InRange) (htet : tet < r.site.mesh.size)
    (edge : Edge) : ∃ due, (r.isDue tet edge : Attempt ε Bool) = .ok due := by
  have : tet < r.site.mesh.flags.size := hm.flags_size ▸ htet
  unfold isDue
  rw [Array.getElem?_eq_getElem this]
  exact ⟨_, rfl⟩

/-- A sweep succeeds or finds no tetrahedron to give back for one of its rings, which was stuck from
the beginning. -/
theorem sweep_refusesOnly (goal : RescueGoal) (hr : r.Orderly) {pairs : List (Nat × Edge)}
    (hpairs : ∀ pair ∈ pairs, pair.1 < r.site.mesh.size) :
    RefusesOnly (r.sweep goal pairs).outcome fun cause => ∃ pair ∈ pairs,
      cause = .noRescueCandidate pair.1 pair.2 ∧
        r.site.mesh.Stuck goal.start pair.1 pair.2 := by
  induction pairs generalizing r with
  | nil => exact .inl ⟨(), rfl⟩
  | cons pair rest ih =>
    obtain ⟨tet, edge⟩ := pair
    rw [List.forall_mem_cons] at hpairs
    obtain ⟨due, hdue⟩ := exists_isDue (ε := CavityError) hr.good.sound.toInRange hpairs.1 edge
    unfold sweep
    cases due with
    | false =>
      simp only [hdue]
      refine (ih hr hpairs.2).mono ?_
      rintro cause ⟨pair, hpair, hcause⟩
      exact ⟨pair, List.mem_cons_of_mem _ hpair, hcause⟩
    | true =>
      obtain ⟨-, hmark, hnew⟩ := isDue_eq_true hdue
      obtain ⟨houtcome, horderly⟩ := walk_refusesOnly goal hr hpairs.1 hmark hnew
      simp only [hdue]
      rcases houtcome with ⟨_, hok⟩ | ⟨cause, hrefused, rfl, hstuck⟩
      · obtain ⟨restored, -, hrep⟩ :=
          (walk_advanced goal hr.good.consistent hr.good.sound tet edge).repaired
        simp only [hok]
        refine (ih horderly (hrep.sameForm.size_eq ▸ hpairs.2)).mono ?_
        rintro cause ⟨pair, hpair, hcause, hstuck⟩
        exact ⟨pair, List.mem_cons_of_mem _ hpair, hcause, hrep.stuck hr.good.consistent hstuck⟩
      · rw [refuse] at hrefused
        simp only [hrefused]
        exact .inr ⟨_, rfl, (tet, edge), List.mem_cons_self, rfl, hstuck⟩

theorem run_refusesOnly (goal : RescueGoal) (hr : r.Orderly) {fresh : List Nat}
    (hfresh : ∀ tet ∈ fresh, tet < r.site.mesh.size) :
    RefusesOnly (r.run goal fresh).outcome fun cause => ∃ tet ∈ fresh, ∃ edge,
      cause = .noRescueCandidate tet edge ∧ r.site.mesh.Stuck goal.start tet edge := by
  obtain ⟨restored, -, hrep⟩ :=
    (sweep_advanced goal hr.good.consistent hr.good.sound (edgesOf fresh)).repaired
  unfold run
  rcases sweep_refusesOnly goal hr fun pair hpair => hfresh _ (mem_edgesOf.1 hpair) with
    ⟨_, hok⟩ | ⟨cause, hrefused, ⟨tet, edge⟩, hpair, hcause⟩
  · have hlt : ∀ tet ∈ fresh, tet < (r.sweep goal (edgesOf fresh)).rescue.site.mesh.size :=
      fun tet ht => hrep.sameForm.size_eq ▸ hfresh tet ht
    obtain ⟨mesh, hmesh⟩ := Mesh.exists_paintDeleted (ε := CavityError)
      (hrep.sound hr.good.sound).toInRange hlt goal.color
    simp only [hok, hmesh]
    exact .inl ⟨(), rfl⟩
  · rw [refuse] at hrefused
    simp only [hrefused]
    exact .inr ⟨cause, rfl, tet, mem_edgesOf.1 hpair, edge, hcause⟩

end Rescue

namespace Site

variable [Orient3d] {s : Site}

/-- Whether a rescue may start is known: the first tetrahedron is looked at for the point only. -/
theorem checkStart_refusesOnly {start : Nat} (hstart : start < s.mesh.size) (vertex : Vertex)
    (p : Point) (policy : Policy) :
    RefusesOnly (s.checkStart vertex p start policy) (· = .pointOutsideStart start vertex) := by
  obtain ⟨nodes, hn⟩ := Mesh.exists_nodes hstart
  unfold checkStart Mesh.ghost? Mesh.contains?
  rw [hn]
  split
  · rw [Option.map_some, Option.map_some, found_some, ok_bind, found_some, ok_bind]
    unfold require
    split
    · exact .inl ⟨(), rfl⟩
    · exact .inr ⟨_, rfl, rfl⟩
  · exact .inl ⟨(), rfl⟩

/-- All that can come out of a rescue. -/
theorem rescue_refusesOnly (h : s.Good) (vertex : Vertex) (color : UInt16) (checkpoint : Nat)
    (policy : Policy) :
    RefusesOnly (s.rescue vertex color checkpoint policy).outcome fun cause =>
      cause = .unknownVertex vertex ∨
      cause = .invalidCheckpoint checkpoint s.cavity.deleted.length ∨
      (∃ start, cause = .pointOutsideStart start vertex) ∨ Rescue.LacksCandidate cause := by
  have hm := h.sound.toLinked
  unfold rescue checkRescue position Cavity.checkCheckpoint require
  cases hp : s.mesh.point? vertex with
  | none => exact .inr ⟨_, rfl, .inl rfl⟩
  | some p =>
    by_cases hle : checkpoint ≤ s.cavity.deleted.length
    · simp only [hle, if_true, ok_bind, pure, Except.pure]
      cases hdrop : s.cavity.deleted.drop checkpoint with
      | nil => exact .inl ⟨(), rfl⟩
      | cons start others =>
        have hlt : ∀ tet ∈ start :: others, tet < s.mesh.size := by
          intro tet ht
          have hlisted : tet ∈ s.cavity.deleted := List.mem_of_mem_drop (hdrop ▸ ht)
          exact hm.lt_size_of_deleted ((h.consistent.deleted_iff tet).2 hlisted)
        rcases checkStart_refusesOnly (hlt start List.mem_cons_self) vertex p policy with
          ⟨_, hok⟩ | ⟨cause, houtside, rfl⟩
        · have horderly : Rescue.Orderly ⟨s, [], [], []⟩ :=
            ⟨h, fun a ha => absurd ha List.not_mem_nil⟩
          simp only [hok]
          refine (Rescue.run_refusesOnly ⟨p, start, color, policy⟩ horderly hlt).mono ?_
          rintro cause ⟨tet, -, edge, hcause, -⟩
          exact .inr (.inr (.inr ⟨tet, edge, hcause⟩))
        · rw [refuse] at houtside
          simp only [houtside]
          exact .inr ⟨_, rfl, .inr (.inr (.inl ⟨start, rfl⟩))⟩
    · simp only [hle, if_false, ok_bind]
      exact .inr ⟨_, rfl, .inr (.inl rfl)⟩

end Site

end CavityRepair
