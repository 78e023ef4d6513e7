import Mathlib.Data.Finset.Card
import Mathlib.Data.Set.Pairwise.Basic
import CavityRepair.Proofs.Cavity.RescueOutcomes
/-!
# The tally of rings

A rescue notes what it visits as edges of single tetrahedra, while a ring has one such edge in each
of its members and may be met from many of them. As rings are visited as a whole and only from edges
that were not, the rings it walks have no edge in common (`Rescue.Tallied`). So each ring is walked
once at most, and the numbers that a rescue reports can be told from the rings there are.

* `Rescue.Tallied.walk`: one walk adds one ring to the tally.
* `Rescue.sweep_accounts`: no constrained edge of a tetrahedron that stays deleted is left out.
* `Site.rings_walked_once`: the tally of a rescue.
-/
namespace CavityRepair

/-- The edges of tetrahedra that a ring goes along. -/
def ringEdges (ring : List RingStep) : Finset (Nat × Edge) :=
  (ring.map fun step => (step.tet, step.edge)).toFinset

theorem mem_ringEdges {ring : List RingStep} {a : Nat × Edge} :
    a ∈ ringEdges ring ↔ ∃ step ∈ ring, (step.tet, step.edge) = a := by
  rw [ringEdges, List.mem_toFinset, List.mem_map]

/-- The edges that the ring around an edge goes along, none if the walk is refused. -/
def Mesh.ringEdgesAt (m : Mesh) (a : Nat × Edge) : Finset (Nat × Edge) :=
  ((m.ring a.1 a.2).toOption.map ringEdges).getD ∅

/-- The distinct rings around constrained edges of the tetrahedra deleted since a checkpoint. -/
def Site.freshRings (s : Site) (checkpoint : Nat) : Finset (Finset (Nat × Edge)) :=
  (((edgesOf (s.cavity.deleted.drop checkpoint)).filter fun a =>
    s.mesh.marked? a.1 (.edge a.2) = some true).map s.mesh.ringEdgesAt).toFinset

namespace Mesh

variable {m : Mesh} {a b : Nat × Edge} {ring : List RingStep}

theorem ringEdgesAt_eq (hring : m.ring a.1 a.2 = .ok ring) : m.ringEdgesAt a = ringEdges ring := by
  rw [ringEdgesAt, hring]
  rfl

theorem mem_ringEdges_self (hm : m.Closed) (ha : a.1 < m.size)
    (hring : m.ring a.1 a.2 = .ok ring) : a ∈ ringEdges ring := by
  obtain ⟨step, hstep, htet, hedge⟩ := exists_mem_ring_self hm ha hring
  exact mem_ringEdges.2 ⟨step, hstep, Prod.ext htet hedge⟩

/-- The ring around an edge goes along the edges that are met on the walk around it. -/
theorem mem_ringEdgesAt (hm : m.Closed) (ha : a.1 < m.size) :
    b ∈ m.ringEdgesAt a ↔ m.OnRing a b := by
  have hring := ring_eq hm ha a.2
  rw [ringEdgesAt_eq hring, mem_ringEdges]
  constructor
  · exact fun hb => ⟨_, hring, hb⟩
  · rintro ⟨ring, hring', hb⟩
    exact Except.ok.inj (hring'.symm.trans hring) ▸ hb

end Mesh

namespace Rescue

variable {m : Mesh} {r : Rescue} {goal : RescueGoal} {pairs : List (Nat × Edge)} {tet : Nat}
  {edge : Edge}

/-- What a rescue notes, seen from the mesh that it started in with some edges: what was visited is
what the rings go along, no two of which have an edge in common; each is the ring around one of the
edges, which is constrained; and not more is given back than rings were walked. -/
structure Tallied (m : Mesh) (pairs : List (Nat × Edge)) (r : Rescue) : Prop where
  orderly : r.Orderly
  sameForm : m.SameForm r.site.mesh
  visited : ∀ a, a ∈ r.visited ↔ ∃ ring ∈ r.rings, a ∈ ringEdges ring
  disjoint : r.rings.Pairwise fun later earlier => Disjoint (ringEdges later) (ringEdges earlier)
  rings : ∀ ring ∈ r.rings, ∃ a ∈ pairs, m.marked? a.1 (.edge a.2) = some true ∧
    m.ring a.1 a.2 = .ok ring
  restored_le : r.restored.length ≤ r.rings.length

theorem tallied_idle {s : Site} (hs : s.Good) (pairs : List (Nat × Edge)) :
    Tallied s.mesh pairs ⟨s, [], [], []⟩ where
  orderly := ⟨hs, fun a ha => absurd ha List.not_mem_nil⟩
  sameForm := .refl _
  visited a := by simp
  disjoint := .nil
  rings := List.forall_mem_nil _
  restored_le := Nat.le_refl _

/-- One walk adds one ring to the tally, and at most one tetrahedron that is given back. -/
theorem Tallied.walk (h : r.Tallied m pairs) (hpair : (tet, edge) ∈ pairs)
    (hdue : (r.isDue tet edge : Attempt CavityError Bool) = .ok true) :
    (r.walk goal tet edge).rescue.Tallied m pairs := by
  obtain ⟨-, hmark, hnew⟩ := isDue_eq_true hdue
  have hgood := h.orderly.good
  have htet := hgood.sound.lt_size_of_marked? hmark
  obtain ⟨restored, -, hrep⟩ :=
    (walk_advanced goal hgood.consistent hgood.sound tet edge).repaired
  obtain ⟨ring, visited, hring, hvisited, hends⟩ := walk_orderly goal h.orderly htet hnew
  have horderly := (walk_refusesOnly goal h.orderly htet hmark hnew).2
  obtain ⟨site, back, heq, hback⟩ : ∃ site back,
      (r.walk goal tet edge).rescue = ⟨site, visited, ring :: r.rings, back⟩ ∧
        back.length ≤ r.restored.length + 1 := by
    rcases hends with ⟨-, heq⟩ | ⟨-, ⟨-, heq⟩ | ⟨member, site, heq⟩⟩ <;> rw [heq]
    · exact ⟨_, _, rfl, Nat.le_succ _⟩
    · exact ⟨_, _, rfl, Nat.le_succ _⟩
    · exact ⟨_, _, rfl, Nat.le_refl _⟩
  have hfresh := h.orderly.closed.notMem hgood.sound.toClosed htet hring hnew
  have hform := h.sameForm.trans hrep.sameForm
  rw [h.sameForm.ring_eq] at hring
  rw [h.sameForm.marked? _ _ (by simp)] at hmark
  rw [heq] at horderly hform ⊢
  refine ⟨horderly, hform, fun a => ?_, ?_, ?_, ?_⟩
  · rw [hvisited, h.visited, ← mem_ringEdges, List.exists_mem_cons_iff, or_comm]
  · refine List.pairwise_cons.2 ⟨fun earlier hearlier => ?_, h.disjoint⟩
    refine Finset.disjoint_left.2 fun a ha hold => ?_
    obtain ⟨step, hstep, rfl⟩ := mem_ringEdges.1 ha
    exact hfresh step hstep ((h.visited _).2 ⟨earlier, hearlier, hold⟩)
  · exact List.forall_mem_cons.2 ⟨⟨(tet, edge), hpair, hmark, hring⟩, h.rings⟩
  · exact hback.trans (Nat.succ_le_succ h.restored_le)

/-- A ring with a survivor leaves everything as it is. -/
theorem Tallied.walk_of_survivor (h : r.Tallied m pairs) (goal : RescueGoal)
    (hdue : (r.isDue tet edge : Attempt CavityError Bool) = .ok true)
    (hsurvivor : r.site.mesh.HasSurvivor tet edge) :
    (r.walk goal tet edge).rescue.site = r.site ∧
      (r.walk goal tet edge).rescue.restored = r.restored := by
  obtain ⟨-, hmark, hnew⟩ := isDue_eq_true hdue
  have htet := h.orderly.good.sound.lt_size_of_marked? hmark
  obtain ⟨ring, visited, hring, -, ⟨-, heq⟩ | ⟨hswallowed, -⟩⟩ :=
    walk_orderly goal h.orderly htet hnew
  · rw [heq]
    exact ⟨rfl, rfl⟩
  · obtain ⟨ring', hring', step, hstep, hsurvives⟩ := hsurvivor
    obtain rfl : ring' = ring := Except.ok.inj (hring'.symm.trans hring)
    have hdeleted : r.site.mesh.deleted? step.tet = some true := hswallowed step hstep
    rw [hdeleted] at hsurvives
    cases hsurvives

theorem Tallied.sweep (h : r.Tallied m pairs) (goal : RescueGoal) :
    (r.sweep goal pairs).rescue.Tallied m pairs :=
  sweep_invariant_of_mem (fun hpair h hdue => h.walk hpair hdue) h

/-- A sweep over edges that all have a survivor leaves everything as it is. -/
theorem Tallied.sweep_of_survivors (h : r.Tallied m pairs) (goal : RescueGoal)
    (hsurvivors : ∀ a ∈ pairs, m.marked? a.1 (.edge a.2) = some true →
      r.site.mesh.HasSurvivor a.1 a.2) :
    (r.sweep goal pairs).rescue.site = r.site ∧
      (r.sweep goal pairs).rescue.restored = r.restored := by
  refine (sweep_invariant_of_mem (P := fun r' => r'.Tallied m pairs ∧ r'.site = r.site ∧
    r'.restored = r.restored) ?_ ⟨h, rfl, rfl⟩).2
  rintro r' tet edge hpair ⟨h', hsite, hrestored⟩ hdue
  have hmark := (isDue_eq_true hdue).2.1
  rw [h'.sameForm.marked? _ _ (by simp)] at hmark
  obtain ⟨hsite', hrestored'⟩ := h'.walk_of_survivor goal hdue
    (hsite ▸ hsurvivors (tet, edge) hpair hmark)
  exact ⟨h'.walk hpair hdue, hsite'.trans hsite, hrestored'.trans hrestored⟩

/-! ### Nothing is left out -/

/-- If the tetrahedron of an edge is still deleted, the edge was visited. -/
def Accounted (r : Rescue) (a : Nat × Edge) : Prop := r.site.mesh.Deleted a.1 → a ∈ r.visited

/-- A walk accounts for its own edge and for all that was accounted for. -/
theorem Accounted.walk (hr : r.Orderly) (htet : tet < r.site.mesh.size)
    (hnew : (tet, edge) ∉ r.visited) {a : Nat × Edge} (ha : a = (tet, edge) ∨ r.Accounted a) :
    (r.walk goal tet edge).rescue.Accounted a := by
  obtain ⟨restored, -, hrep⟩ :=
    (walk_advanced goal hr.good.consistent hr.good.sound tet edge).repaired
  obtain ⟨ring, visited, hring, hvisited, hends⟩ := walk_orderly goal hr htet hnew
  have heq : (r.walk goal tet edge).rescue.visited = visited := by
    rcases hends with ⟨-, heq⟩ | ⟨-, ⟨-, heq⟩ | ⟨member, site, heq⟩⟩ <;> rw [heq]
  intro hdeleted
  rw [heq, hvisited]
  rcases ha with rfl | ha
  · exact .inr (mem_ringEdges.1 (Mesh.mem_ringEdges_self hr.good.sound.toClosed htet hring))
  · exact .inl (ha ((hrep.deleted_iff hr.good.consistent _).1 hdeleted).1)

/-- A sweep that succeeds accounts for every constrained edge that it was given. -/
theorem sweep_accounts (hr : r.Orderly) (hok : (r.sweep goal pairs).outcome = .ok ())
    {a : Nat × Edge} (hmark : r.site.mesh.marked? a.1 (.edge a.2) = some true)
    (ha : a ∈ pairs ∨ r.Accounted a) : (r.sweep goal pairs).rescue.Accounted a := by
  induction pairs generalizing r with
  | nil => exact ha.resolve_left List.not_mem_nil
  | cons pair rest ih =>
    obtain ⟨tet, edge⟩ := pair
    unfold sweep at hok ⊢
    cases hdue : (r.isDue tet edge : Attempt CavityError Bool) with
    | error fault =>
      simp only [hdue] at hok
      cases hok
    | ok due =>
      cases due with
      | false =>
        simp only [hdue] at hok ⊢
        refine ih hr hok hmark ?_
        rcases ha with ha | ha
        · rcases List.mem_cons.1 ha with rfl | ha
          · refine .inr fun hdeleted => ?_
            obtain ⟨gone, marked, hgone, hmarked, hcond⟩ := isDue_eq_ok hdue
            obtain rfl := Option.some.inj (hgone.symm.trans hdeleted)
            obtain rfl := Option.some.inj (hmarked.symm.trans hmark)
            simpa using hcond
          · exact .inl ha
        · exact .inr ha
      | true =>
        obtain ⟨-, hmark', hnew⟩ := isDue_eq_true hdue
        have htet := hr.good.sound.lt_size_of_marked? hmark'
        have horderly := (walk_refusesOnly goal hr htet hmark' hnew).2
        obtain ⟨restored, -, hrep⟩ :=
          (walk_advanced goal hr.good.consistent hr.good.sound tet edge).repaired
        simp only [hdue] at hok ⊢
        cases houtcome : (r.walk goal tet edge).outcome with
        | error fault =>
          simp only [houtcome] at hok
          cases hok
        | ok _ =>
          simp only [houtcome] at hok ⊢
          refine ih horderly hok (by rwa [hrep.sameForm.marked? _ _ (by simp)]) ?_
          rcases ha with ha | ha
          · rcases List.mem_cons.1 ha with ha | ha
            · exact .inr (.walk hr htet hnew (.inl ha))
            · exact .inl ha
          · exact .inr (.walk hr htet hnew (.inr ha))

/-! ### Runs -/

theorem Tallied.paint (h : r.Tallied m pairs) {color : UInt16} {tets : List Nat} {mesh : Mesh}
    (hmesh : (r.site.mesh.paintDeleted color tets : Attempt CavityError Mesh) = .ok mesh) :
    Tallied m pairs { r with site := ⟨mesh, r.site.cavity⟩ } := by
  obtain ⟨hform, -, hdeleted⟩ := Mesh.paintDeleted_eq_ok hmesh
  have hgood := h.orderly.good
  exact ⟨⟨⟨hgood.consistent.of_sameForm hform hdeleted, hform.sound hgood.sound⟩,
      hform.toSameShape.ringClosed h.orderly.closed⟩,
    h.sameForm.trans hform, h.visited, h.disjoint, h.rings, h.restored_le⟩

variable {fresh : List Nat}

theorem Tallied.run (h : r.Tallied m (edgesOf fresh)) (goal : RescueGoal) :
    (r.run goal fresh).rescue.Tallied m (edgesOf fresh) := by
  rcases r.run_cases goal fresh with ⟨-, heq⟩ | ⟨-, mesh, hmesh, heq⟩ <;> rw [heq]
  · exact h.sweep goal
  · exact (h.sweep goal).paint hmesh

theorem Tallied.run_of_survivors (h : r.Tallied m (edgesOf fresh)) (goal : RescueGoal)
    (hsurvivors : ∀ a ∈ edgesOf fresh, m.marked? a.1 (.edge a.2) = some true →
      r.site.mesh.HasSurvivor a.1 a.2) :
    (r.run goal fresh).rescue.site.cavity = r.site.cavity ∧
      (r.run goal fresh).rescue.restored = r.restored := by
  obtain ⟨hsite, hrestored⟩ := h.sweep_of_survivors goal hsurvivors
  have hcavity := congrArg Site.cavity hsite
  rcases r.run_cases goal fresh with ⟨-, heq⟩ | ⟨-, mesh, -, heq⟩ <;> rw [heq]
  · exact ⟨hcavity, hrestored⟩
  · exact ⟨hcavity, hrestored⟩

theorem run_accounts (hr : r.Orderly) (hok : (r.run goal fresh).outcome = .ok ())
    {a : Nat × Edge} (hmark : r.site.mesh.marked? a.1 (.edge a.2) = some true)
    (ha : a ∈ edgesOf fresh) : (r.run goal fresh).rescue.Accounted a := by
  have hsweep : (r.sweep goal (edgesOf fresh)).outcome = .ok () := by
    unfold run at hok
    dsimp only at hok
    split at hok
    · rename_i fault hfault
      rw [hfault] at hok
      cases hok
    · assumption
  have haccounted := sweep_accounts hr hsweep hmark (.inl ha)
  rcases r.run_cases goal fresh with ⟨hnot, -⟩ | ⟨-, mesh, hmesh, heq⟩
  · exact absurd hok hnot
  · obtain ⟨-, -, hdeleted⟩ := Mesh.paintDeleted_eq_ok hmesh
    rw [heq]
    exact fun hd => haccounted ((hdeleted a.1).1 hd)

end Rescue

namespace Site

variable {s : Site} {checkpoint : Nat}

theorem mem_freshRings {all : Finset (Nat × Edge)} : all ∈ s.freshRings checkpoint ↔
    ∃ a ∈ edgesOf (s.cavity.deleted.drop checkpoint),
      s.mesh.marked? a.1 (.edge a.2) = some true ∧ s.mesh.ringEdgesAt a = all := by
  simp [freshRings, and_assoc]

/-- Rings with an edge in common are the same. -/
theorem Good.freshRings_disjoint (hs : s.Good) (checkpoint : Nat) :
    (s.freshRings checkpoint : Set (Finset (Nat × Edge))).PairwiseDisjoint id := by
  have hm := hs.sound.toClosed
  intro all hall all' hall' hne
  obtain ⟨a, -, hmark, rfl⟩ := mem_freshRings.1 hall
  obtain ⟨a', -, hmark', rfl⟩ := mem_freshRings.1 hall'
  have ha := hs.sound.lt_size_of_marked? hmark
  have ha' := hs.sound.lt_size_of_marked? hmark'
  refine Finset.disjoint_left.2 fun b hb hb' => hne (Finset.ext fun c => ?_)
  rw [id, Mesh.mem_ringEdgesAt hm ha] at hb
  rw [id, Mesh.mem_ringEdgesAt hm ha'] at hb'
  rw [Mesh.mem_ringEdgesAt hm ha, Mesh.mem_ringEdgesAt hm ha']
  constructor
  · exact fun hc => hb'.trans hm ha' (.euclidean hm ha hb hc)
  · exact fun hc => hb.trans hm ha (.euclidean hm ha' hb' hc)

/-- Rings that have no edge in common are as many as their sets of edges. -/
theorem length_rings_le {r : Rescue} (hs : s.Good)
    (h : r.Tallied s.mesh (edgesOf (s.cavity.deleted.drop checkpoint))) :
    r.rings.length ≤ (s.freshRings checkpoint).card := by
  have hm := hs.sound.toClosed
  have hself : ∀ ring ∈ r.rings, ∃ a ∈ edgesOf (s.cavity.deleted.drop checkpoint),
      s.mesh.marked? a.1 (.edge a.2) = some true ∧ s.mesh.ringEdgesAt a = ringEdges ring ∧
        a ∈ ringEdges ring := by
    intro ring hring
    obtain ⟨a, ha, hmark, hwalk⟩ := h.rings ring hring
    refine ⟨a, ha, hmark, Mesh.ringEdgesAt_eq hwalk, ?_⟩
    exact Mesh.mem_ringEdges_self hm (hs.sound.lt_size_of_marked? hmark) hwalk
  have hnodup : (r.rings.map ringEdges).Nodup := by
    refine List.pairwise_map.2 (h.disjoint.imp_of_mem fun hlater _ hdisjoint heq => ?_)
    obtain ⟨a, -, -, -, ha⟩ := hself _ hlater
    exact Finset.disjoint_left.1 hdisjoint ha (heq ▸ ha)
  calc r.rings.length = (r.rings.map ringEdges).toFinset.card := by
        rw [List.toFinset_card_of_nodup hnodup, List.length_map]
    _ ≤ (s.freshRings checkpoint).card := Finset.card_le_card fun all hall => by
        rw [List.mem_toFinset] at hall
        obtain ⟨ring, hring, rfl⟩ := List.mem_map.1 hall
        obtain ⟨a, ha, hmark, heq, -⟩ := hself ring hring
        exact mem_freshRings.2 ⟨a, ha, hmark, heq⟩

section

variable [Orient3d]

/-- A rescue is tallied, whether it succeeds or not. -/
theorem Good.tallied_rescue (hs : s.Good) (vertex : Vertex) (color : UInt16) (checkpoint : Nat)
    (policy : Policy) : (s.rescue vertex color checkpoint policy).rescue.Tallied s.mesh
      (edgesOf (s.cavity.deleted.drop checkpoint)) := by
  have hidle := Rescue.tallied_idle hs (edgesOf (s.cavity.deleted.drop checkpoint))
  rcases s.rescue_cases vertex color checkpoint policy with heq | ⟨goal, -, heq⟩ <;> rw [heq]
  · exact hidle
  · exact hidle.run goal

/-- A rescue that succeeds has met every constrained edge whose tetrahedron it leaves deleted. -/
theorem Good.accounted_rescue (hs : s.Good) {vertex : Vertex} {color : UInt16} {policy : Policy}
    (hok : (s.rescue vertex color checkpoint policy).outcome = .ok ()) {a : Nat × Edge}
    (ha : a ∈ edgesOf (s.cavity.deleted.drop checkpoint))
    (hmark : s.mesh.marked? a.1 (.edge a.2) = some true) :
    (s.rescue vertex color checkpoint policy).rescue.Accounted a := by
  rcases s.rescue_report_cases vertex color checkpoint policy with
    ⟨-, hnot | hnil⟩ | ⟨goal, -, -, hrun⟩
  · exact absurd hok hnot
  · rw [hnil] at ha
    exact absurd ha List.not_mem_nil
  · rw [hrun] at hok ⊢
    exact Rescue.run_accounts (Rescue.tallied_idle hs []).orderly hok hmark ha

/-- With a survivor on every ring a rescue leaves the cavity as it is. -/
theorem Good.rescue_of_survivors (hs : s.Good) (vertex : Vertex) (color : UInt16)
    (policy : Policy)
    (h : ∀ ring ∈ s.freshRings checkpoint, ∃ a ∈ ring, s.mesh.deleted? a.1 = some false) :
    (s.rescue vertex color checkpoint policy).rescue.site.cavity = s.cavity ∧
      (s.rescue vertex color checkpoint policy).rescue.restored = [] := by
  have hsurvivors : ∀ a ∈ edgesOf (s.cavity.deleted.drop checkpoint),
      s.mesh.marked? a.1 (.edge a.2) = some true → s.mesh.HasSurvivor a.1 a.2 := by
    intro a ha hmark
    have hring := Mesh.ring_eq hs.sound.toClosed (hs.sound.lt_size_of_marked? hmark) a.2
    obtain ⟨b, hb, hsurvives⟩ := h _ (mem_freshRings.2 ⟨a, ha, hmark, rfl⟩)
    rw [Mesh.ringEdgesAt_eq hring] at hb
    obtain ⟨step, hstep, rfl⟩ := mem_ringEdges.1 hb
    exact ⟨_, hring, step, hstep, hsurvives⟩
  rcases s.rescue_cases vertex color checkpoint policy with heq | ⟨goal, -, heq⟩ <;> rw [heq]
  · exact ⟨rfl, rfl⟩
  · exact (Rescue.tallied_idle hs _).run_of_survivors goal hsurvivors

/-- The tally of a rescue, whether it succeeds or not. No two of the rings that it walks have an
edge in common, and each goes along a constrained edge of a tetrahedron deleted since the
checkpoint. If it succeeds, the deleted list is shorter by what was given back. That is not more
than there are rings that were walked, and these are not more than there are rings to walk, no two
of which have an edge in common. Each constrained edge of a tetrahedron deleted since the checkpoint
is on a ring that was walked, unless the tetrahedron was given back. If all rings have a survivor to
begin with, nothing is given back. -/
theorem rings_walked_once {edits : List MeshEdit} (hbuilt : s.mesh.Built edits) (hs : s.Checked)
    (vertex : Vertex) (color : UInt16) (checkpoint : Nat) (policy : Policy) :
    ((s.rescue vertex color checkpoint policy).rescue.rings.Pairwise fun later earlier =>
      Disjoint (ringEdges later) (ringEdges earlier)) ∧
    (∀ ring ∈ (s.rescue vertex color checkpoint policy).rescue.rings,
      ∃ tet ∈ s.cavity.deleted.drop checkpoint, ∃ edge,
        s.mesh.marked? tet (.edge edge) = some true ∧ s.mesh.ring tet edge = .ok ring ∧
        (tet, edge) ∈ ringEdges ring) ∧
    ((s.rescue vertex color checkpoint policy).outcome = .ok () →
      (s.rescue vertex color checkpoint policy).rescue.restored.length +
          (s.rescue vertex color checkpoint policy).rescue.site.cavity.deleted.length =
        s.cavity.deleted.length ∧
      (s.rescue vertex color checkpoint policy).rescue.restored.length ≤
        (s.rescue vertex color checkpoint policy).rescue.rings.length ∧
      (s.rescue vertex color checkpoint policy).rescue.rings.length ≤
        (s.freshRings checkpoint).card ∧
      (s.freshRings checkpoint : Set (Finset (Nat × Edge))).PairwiseDisjoint id ∧
      ∀ tet ∈ s.cavity.deleted.drop checkpoint, ∀ edge,
        s.mesh.marked? tet (.edge edge) = some true →
        tet ∈ (s.rescue vertex color checkpoint policy).rescue.restored ∨
          ∃ ring ∈ (s.rescue vertex color checkpoint policy).rescue.rings,
            (tet, edge) ∈ ringEdges ring) ∧
    ((∀ ring ∈ s.freshRings checkpoint, ∃ a ∈ ring, s.mesh.deleted? a.1 = some false) →
      (s.rescue vertex color checkpoint policy).rescue.restored = [] ∧
      (s.rescue vertex color checkpoint policy).rescue.site.cavity = s.cavity) := by
  have hm := hbuilt.sound
  have hgood : s.Good := ⟨hs.consistent hm.toLinked, hm⟩
  have hrepaired := hgood.consistent.rescue_repaired hm vertex color checkpoint policy
  have htallied := hgood.tallied_rescue vertex color checkpoint policy
  refine ⟨htallied.disjoint, fun ring hring => ?_, fun hok => ?_, fun hsurvivors =>
    (hgood.rescue_of_survivors vertex color policy hsurvivors).symm⟩
  · obtain ⟨a, ha, hmark, hwalk⟩ := htallied.rings ring hring
    exact ⟨a.1, mem_edgesOf.1 ha, a.2, hmark, hwalk,
      Mesh.mem_ringEdges_self hm.toClosed (hm.lt_size_of_marked? hmark) hwalk⟩
  · refine ⟨hrepaired.length_deleted, htallied.restored_le, length_rings_le hgood htallied,
      hgood.freshRings_disjoint checkpoint, ?_⟩
    intro tet htet edge hmark
    have haccounted := hgood.accounted_rescue (a := (tet, edge)) hok (mem_edgesOf.2 htet) hmark
    rw [or_iff_not_imp_left]
    intro hnot
    have hdeleted := (hgood.consistent.deleted_iff tet).2 (List.mem_of_mem_drop htet)
    exact (htallied.visited _).1 (haccounted ((hrepaired.deleted_iff hgood.consistent tet).2
      ⟨hdeleted, hnot⟩))

end

/-- Of the chain all that lies around two constrained edges is carved, and both rings are walked,
once each, although every member of a ring has the edge to start from. With two tetrahedra carved
that both rings go through, each ring has a survivor, and nothing is given back. -/
theorem rings_walked_once_chain : ∃ (s s' : Site) (edits edits' : List MeshEdit),
    s.mesh.Built edits ∧ s.Checked ∧ s'.mesh.Built edits' ∧ s'.Checked ∧
    (s.rescue 6 7 0 .strict).outcome = .ok () ∧ (s.rescue 6 7 0 .strict).rescue.restored = [2, 1] ∧
    (s.freshRings 0).card = 2 ∧ (s.rescue 6 7 0 .strict).rescue.rings.length = 2 ∧
    ((s.rescue 6 7 0 .strict).rescue.rings.Pairwise fun later earlier =>
      Disjoint (ringEdges later) (ringEdges earlier)) ∧
    s'.cavity.deleted = [0, 4] ∧ (s'.freshRings 0).card = 2 ∧
    (s'.rescue 6 7 0 .strict).rescue.restored = [] ∧
    (s'.rescue 6 7 0 .strict).rescue.site.cavity = s'.cavity := by
  obtain ⟨s, hs, hok, hrestored, hcard⟩ : ∃ s,
      prepare? chainCorners chainTets
        [.constrainEdge 1 2, .constrainEdge 0 2, .addVertex ⟨0.25, 0.25, 0.25⟩]
        [[0, 1, 2, 4, 7, 10]] = some s ∧
      (s.rescue 6 7 0 .strict).outcome = .ok () ∧
      (s.rescue 6 7 0 .strict).rescue.restored = [2, 1] ∧ (s.freshRings 0).card = 2 :=
    exists_of_any? (by decide +kernel)
  obtain ⟨s', hs', hlist, hcard', hsurvivors⟩ : ∃ s,
      prepare? chainCorners chainTets
        [.constrainEdge 1 2, .constrainEdge 0 2, .addVertex ⟨0.25, 0.25, 0.25⟩] [[0, 4]] = some s ∧
      s.cavity.deleted = [0, 4] ∧ (s.freshRings 0).card = 2 ∧
      ∀ ring ∈ s.freshRings 0, ∃ a ∈ ring, s.mesh.deleted? a.1 = some false :=
    exists_of_any? (by decide +kernel)
  obtain ⟨hchecked, more, hbuilt⟩ := prepare?_eq_some (by decide) hs
  obtain ⟨hchecked', more', hbuilt'⟩ := prepare?_eq_some (by decide) hs'
  obtain ⟨hdisjoint, -, htally, -⟩ := rings_walked_once hbuilt hchecked 6 7 0 .strict
  obtain ⟨-, -, -, hkept⟩ := rings_walked_once hbuilt' hchecked' 6 7 0 .strict
  obtain ⟨-, hle, hle', -⟩ := htally hok
  rw [hrestored] at hle
  rw [hcard] at hle'
  obtain ⟨hnone, hcavity⟩ := hkept hsurvivors
  exact ⟨s, s', _, _, hbuilt, hchecked, hbuilt', hchecked', hok, hrestored, hcard,
    Nat.le_antisymm hle' hle, hdisjoint, hlist, hcard', hnone, hcavity⟩

end Site

end CavityRepair
