import CavityRepair.Proofs.Mesh.Rings
import CavityRepair.Proofs.Cavity.Runs
/-!
# Survival of constrained edges

A rescue walks the rings of constrained edges and sees to it that each keeps a tetrahedron. The
edges noted as visited are its certificate: around each of them a tetrahedron survives
(`Rescue.Covered`), since rings of the same edge have the same members whichever of them they are
walked from. Later repairs only give more back, so what survives goes on to do so.

* `Rescue.sweep_covered`: a sweep that succeeds leaves a survivor around every edge it was given.
* `Site.edges_survive_rescue`: constrained edges survive a rescue and all repairs after it.
-/
namespace CavityRepair

namespace Mesh

/-- Around an edge of a tetrahedron another one, or this one, survives. -/
def HasSurvivor (m : Mesh) (tet : Nat) (edge : Edge) : Prop :=
  ∃ ring, m.ring tet edge = .ok ring ∧ ∃ step ∈ ring, m.deleted? step.tet = some false

variable {m m' : Mesh} {tet : Nat} {edge : Edge} {ring : List RingStep}

theorem SameForm.hasSurvivor (h : m.SameForm m') (hm : m.Sound)
    (hdeleted : ∀ u, m'.Deleted u → m.Deleted u) (hs : m.HasSurvivor tet edge) :
    m'.HasSurvivor tet edge := by
  obtain ⟨ring, hring, step, hstep, hsurvives⟩ := hs
  rw [hm.deleted?_eq_false_iff] at hsurvives
  refine ⟨ring, by rw [h.ring_eq, hring], step, hstep, ?_⟩
  rw [(h.sound hm).deleted?_eq_false_iff, h.size_eq]
  exact ⟨hsurvives.1, fun hd => hsurvives.2 (hdeleted _ hd)⟩

/-- A tetrahedron that survives does so around its own edges. -/
theorem hasSurvivor_self (hm : m.Sound) (htet : m.deleted? tet = some false) (edge : Edge) :
    m.HasSurvivor tet edge := by
  have hlt := (hm.deleted?_eq_false_iff.1 htet).1
  obtain ⟨step, hstep, heq, -⟩ :=
    exists_mem_ring_self hm.toClosed hlt (ring_eq hm.toClosed hlt edge)
  exact ⟨_, ring_eq hm.toClosed hlt edge, step, hstep, heq ▸ htet⟩

/-- A survivor on a ring is one around the ring's edge in each of its members. -/
theorem hasSurvivor_of_mem_ring (hm : m.Sound) (htet : tet < m.size)
    (hring : m.ring tet edge = .ok ring) {here there : RingStep} (hhere : here ∈ ring)
    (hthere : there ∈ ring) (hsurvives : m.deleted? there.tet = some false) :
    m.HasSurvivor here.tet here.edge := by
  have hlt := lt_size_of_mem_ring hring hhere
  have hring' := ring_eq hm.toClosed hlt here.edge
  obtain ⟨step, hstep, heq, -⟩ := exists_mem_ring hm.toClosed htet hring hhere hring' hthere
  exact ⟨_, hring', step, hstep, heq ▸ hsurvives⟩

/-- Visiting a ring notes its edges and tells whether a member survives. -/
theorem visitRing_eq_ok {policy : Policy} {visited visited' : List (Nat × Edge)} {swallowed : Bool}
    (h : m.visitRing policy visited ring = .ok (visited', swallowed)) :
    (∀ pair, pair ∈ visited' ↔ pair ∈ visited ∨ ∃ step ∈ ring, (step.tet, step.edge) = pair) ∧
      (swallowed = false → ∃ step ∈ ring, m.deleted? step.tet = some false) := by
  induction ring generalizing visited swallowed with
  | nil =>
    cases h
    simp
  | cons step rest ih =>
    rw [visitRing, require_bind_eq_ok_iff, found_bind_eq_ok_iff] at h
    obtain ⟨-, gone, hgone, h⟩ := h
    obtain ⟨⟨after, others⟩, hrest, h⟩ := bind_eq_ok_iff.1 h
    cases h
    obtain ⟨hmem, hfalse⟩ := ih hrest
    refine ⟨fun pair => ?_, fun hswallowed => ?_⟩
    · rw [hmem, List.mem_cons, List.exists_mem_cons_iff, eq_comm (a := pair)]
      tauto
    · cases gone with
      | false => exact ⟨step, List.mem_cons_self, hgone⟩
      | true =>
        obtain ⟨other, hother, hsurvives⟩ := hfalse hswallowed
        exact ⟨other, List.mem_cons_of_mem _ hother, hsurvives⟩

/-- The farthest tetrahedron is one of those to choose from. -/
theorem mem_of_farthestOf {best : Option (Float × Nat)} {entries : List (Float × Nat)}
    {entry : Float × Nat} (h : farthestOf best entries = some entry) :
    best = some entry ∨ entry ∈ entries := by
  induction entries generalizing best with
  | nil => exact .inl h
  | cons first rest ih =>
    cases best with
    | none =>
      rcases ih h with hfirst | hrest
      · exact .inr (Option.some.inj hfirst ▸ List.mem_cons_self)
      · exact .inr (List.mem_cons_of_mem _ hrest)
    | some old =>
      rcases ih h with hfirst | hrest
      · split at hfirst
        · exact .inr (Option.some.inj hfirst ▸ List.mem_cons_self)
        · exact .inl hfirst
      · exact .inr (List.mem_cons_of_mem _ hrest)

/-- The tetrahedron to give back is a member of the ring whose opposite edge has a midpoint, and not
the first one. -/
theorem mem_of_farthestMember? {start member : Nat} {p : Point}
    (h : m.farthestMember? ring start p = some member) :
    (∃ step ∈ ring, step.tet = member ∧ ∃ midpoint, m.oppositeMidpoint? step = some midpoint) ∧
      member ≠ start := by
  obtain ⟨entry, hentry, rfl⟩ := Option.map_eq_some_iff.1 h
  have hmem := (mem_of_farthestOf hentry).resolve_left (by simp)
  unfold candidates at hmem
  obtain ⟨step, hstep, hpair⟩ := List.mem_filterMap.1 hmem
  obtain ⟨midpoint, hmidpoint, rfl⟩ := Option.map_eq_some_iff.1 hpair
  rw [List.mem_filter, decide_eq_true_eq] at hstep
  exact ⟨⟨step, hstep.1, rfl, midpoint, hmidpoint⟩, hstep.2⟩

theorem farthestOf_eq_none_iff {best : Option (Float × Nat)} {entries : List (Float × Nat)} :
    farthestOf best entries = none ↔ best = none ∧ entries = [] := by
  induction entries generalizing best with
  | nil => simp [farthestOf]
  | cons first rest ih => cases best <;> simp [farthestOf, ih]

/-- There is nothing to give back when no member but the first tetrahedron has a midpoint. -/
theorem farthestMember?_eq_none_iff {start : Nat} {p : Point} :
    m.farthestMember? ring start p = none ↔
      ∀ step ∈ ring, step.tet ≠ start → m.oppositeMidpoint? step = none := by
  unfold farthestMember? candidates
  rw [Option.map_eq_none_iff, farthestOf_eq_none_iff, List.filterMap_eq_nil_iff]
  simp only [true_and, List.mem_filter, decide_eq_true_eq, Option.map_eq_none_iff, and_imp]

/-- Midpoints depend on the positions of the vertices only. -/
theorem oppositeMidpoint?_eq (h : m'.vertices = m.vertices) (step : RingStep) :
    m'.oppositeMidpoint? step = m.oppositeMidpoint? step := by
  unfold oppositeMidpoint? point?
  rw [h]

end Mesh

namespace Site

variable {s s' : Site} {restored : List Nat} {tet : Nat} {edge : Edge}

/-- What survives around an edge survives a repair. -/
theorem Repaired.hasSurvivor (h : s.Repaired s' restored) (hs : s.Good)
    (hsurvivor : s.mesh.HasSurvivor tet edge) : s'.mesh.HasSurvivor tet edge :=
  h.sameForm.hasSurvivor hs.sound
    (fun u hd => ((h.deleted_iff hs.consistent u).1 hd).1) hsurvivor

/-- What is given back survives. -/
theorem Repaired.survives (h : s.Repaired s' restored) (hs : s.Good) (htet : tet ∈ restored) :
    s'.mesh.deleted? tet = some false := by
  have hdeleted : s.mesh.Deleted tet := by
    rw [hs.consistent.deleted_iff, h.deleted.mem_iff]
    exact List.mem_append_left _ htet
  rw [(h.sound hs.sound).deleted?_eq_false_iff, h.sameForm.size_eq]
  exact ⟨hs.sound.lt_size_of_deleted hdeleted,
    fun hd => ((h.deleted_iff hs.consistent tet).1 hd).2 htet⟩

end Site

namespace Rescue

variable {r r' : Rescue} {tet : Nat} {edge : Edge}

/-- Around every visited edge a tetrahedron survives. -/
def Covered (r : Rescue) : Prop :=
  ∀ tet edge, (tet, edge) ∈ r.visited → r.site.mesh.HasSurvivor tet edge

theorem Advanced.good (h : r.Advanced r') (hr : r.site.Good) : r'.site.Good :=
  ⟨h.consistent, h.sound hr.sound⟩

theorem Advanced.hasSurvivor (h : r.Advanced r') (hr : r.site.Good)
    (hs : r.site.mesh.HasSurvivor tet edge) : r'.site.mesh.HasSurvivor tet edge := by
  obtain ⟨restored, -, hrep⟩ := h.repaired
  exact hrep.hasSurvivor hr hs

theorem isDue_eq_ok {ε : Type} {due : Bool} (h : (r.isDue tet edge : Attempt ε Bool) = .ok due) :
    ∃ gone marked, r.site.mesh.deleted? tet = some gone ∧
      r.site.mesh.marked? tet (.edge edge) = some marked ∧
      due = (gone && marked && decide ((tet, edge) ∉ r.visited)) := by
  obtain ⟨flags, hflags, h⟩ := found_bind_eq_ok_iff.1 h
  cases h
  refine ⟨flags.has .deleted, flags.has (.edge edge), ?_, ?_, rfl⟩
  · simp [Mesh.deleted?, Mesh.marked?, hflags]
  · simp [Mesh.marked?, hflags]

/-- What is due is a constrained edge of a deleted tetrahedron that was not visited. -/
theorem isDue_eq_true {ε : Type} (h : (r.isDue tet edge : Attempt ε Bool) = .ok true) :
    r.site.mesh.Deleted tet ∧ r.site.mesh.marked? tet (.edge edge) = some true ∧
      (tet, edge) ∉ r.visited := by
  obtain ⟨gone, marked, hgone, hmarked, hcond⟩ := isDue_eq_ok h
  simp only [Bool.true_eq, Bool.and_eq_true, decide_eq_true_eq] at hcond
  obtain ⟨⟨rfl, rfl⟩, hnew⟩ := hcond
  exact ⟨hgone, hmarked, hnew⟩

theorem giveBack_eq_ok {goal : RescueGoal} (hok : (r.giveBack goal tet).outcome = .ok ()) :
    ∃ site, r.giveBack goal tet =
      ⟨{ r with site := site, restored := tet :: r.restored }, .ok ()⟩ := by
  unfold giveBack at hok ⊢
  cases hcolor : (r.site.mesh.setColor tet goal.color : Attempt CavityError Mesh) with
  | error fault =>
    simp only [hcolor] at hok
    cases hok
  | ok mesh =>
    simp only [hcolor] at hok ⊢
    cases hrestore : Site.restore ⟨mesh, r.site.cavity⟩ tet goal.policy with
    | error fault =>
      simp only [hrestore] at hok
      cases hok
    | ok site => exact ⟨site, rfl⟩

/-- Giving a tetrahedron back notes it, unless it fails, and leaves the rings that were walked. -/
theorem giveBack_cases (r : Rescue) (goal : RescueGoal) (tet : Nat) :
    (r.giveBack goal tet).rescue.rings = r.rings ∧
      ((r.giveBack goal tet).rescue.restored = r.restored ∨
        (r.giveBack goal tet).rescue.restored = tet :: r.restored) := by
  unfold giveBack
  split
  · exact ⟨rfl, .inl rfl⟩
  · dsimp only
    split
    · exact ⟨rfl, .inl rfl⟩
    · exact ⟨rfl, .inr rfl⟩

/-- A tetrahedron that is given back survives. -/
theorem survives_of_giveBack (hr : r.site.Good) {goal : RescueGoal}
    (hok : (r.giveBack goal tet).outcome = .ok ()) :
    (r.giveBack goal tet).rescue.site.mesh.deleted? tet = some false := by
  obtain ⟨restored, heq, hrep⟩ := (giveBack_advanced goal hr.consistent hr.sound tet).repaired
  obtain ⟨site, hback⟩ := giveBack_eq_ok hok
  rw [hback, ← List.singleton_append, List.append_cancel_right_eq] at heq
  exact hrep.survives hr (heq ▸ List.mem_singleton_self tet)

/-- What a successful walk goes through. -/
theorem walk_eq_ok {goal : RescueGoal} (hok : (r.walk goal tet edge).outcome = .ok ()) :
    ∃ ring visited swallowed, r.site.mesh.ring tet edge = .ok ring ∧
      r.site.mesh.visitRing goal.policy r.visited ring = .ok (visited, swallowed) ∧
      ((swallowed = false ∧ (r.walk goal tet edge).rescue =
          { r with visited := visited, rings := ring :: r.rings }) ∨
        ∃ member, r.site.mesh.farthestMember? ring goal.start goal.point = some member ∧
          r.walk goal tet edge =
            giveBack { r with visited := visited, rings := ring :: r.rings } goal member) := by
  unfold walk at hok ⊢
  cases hring : r.site.mesh.ring tet edge with
  | error fault =>
    cases fault <;> simp only [hring, withCause, refuse] at hok <;> cases hok
  | ok ring =>
    simp only [hring, withCause] at hok ⊢
    cases hvisit : r.site.mesh.visitRing goal.policy r.visited ring with
    | error fault =>
      simp only [hvisit] at hok
      cases hok
    | ok answer =>
      obtain ⟨visited, swallowed⟩ := answer
      refine ⟨ring, visited, swallowed, rfl, hvisit, ?_⟩
      cases swallowed with
      | false => exact .inl ⟨rfl, rfl⟩
      | true =>
        simp only [hvisit, if_true] at hok ⊢
        cases hmember : r.site.mesh.farthestMember? ring goal.start goal.point with
        | none =>
          simp only [hmember] at hok
          cases hok
        | some member => exact .inr ⟨member, rfl, rfl⟩

/-- A walk does nothing, or it notes its ring and gives back at most the farthest member. -/
theorem walk_cases (r : Rescue) (goal : RescueGoal) (tet : Nat) (edge : Edge) :
    (r.walk goal tet edge).rescue = r ∨ ∃ ring, r.site.mesh.ring tet edge = .ok ring ∧
      (r.walk goal tet edge).rescue.rings = ring :: r.rings ∧
      ((r.walk goal tet edge).rescue.restored = r.restored ∨
        ∃ member, r.site.mesh.farthestMember? ring goal.start goal.point = some member ∧
          (r.walk goal tet edge).rescue.restored = member :: r.restored) := by
  unfold walk
  dsimp only
  split
  · exact .inl rfl
  · rename_i ring hring
    refine .inr ⟨ring, withCause_eq_ok_iff.1 hring, ?_⟩
    split
    · exact ⟨rfl, .inl rfl⟩
    · rename_i visited _ _
      split
      · split
        · exact ⟨rfl, .inl rfl⟩
        · rename_i member hmember
          obtain ⟨hrings, hrestored⟩ :=
            giveBack_cases ⟨r.site, visited, ring :: r.rings, r.restored⟩ goal member
          exact ⟨hrings, hrestored.imp_right fun heq => ⟨member, hmember, heq⟩⟩
      · exact ⟨rfl, .inl rfl⟩

/-- A walk that succeeds leaves a survivor around its edge, and around all that it visited. -/
theorem walk_covered (hr : r.site.Good) (hc : r.Covered) {goal : RescueGoal}
    (htet : tet < r.site.mesh.size)
    (hok : (r.walk goal tet edge).outcome = .ok ()) :
    (r.walk goal tet edge).rescue.Covered ∧
      (r.walk goal tet edge).rescue.site.mesh.HasSurvivor tet edge := by
  obtain ⟨ring, visited, swallowed, hring, hvisit, hcases⟩ := walk_eq_ok hok
  obtain ⟨hvisited, hswallowed⟩ := Mesh.visitRing_eq_ok hvisit
  have hadvanced := walk_advanced goal hr.consistent hr.sound tet edge
  have hgood := hadvanced.good hr
  obtain ⟨restored, -, hrep⟩ := hadvanced.repaired
  -- However it ended, some member of the ring survives now, and nothing else was visited.
  obtain ⟨hlist, there, hthere, hsurvives⟩ : (r.walk goal tet edge).rescue.visited = visited ∧
      ∃ there ∈ ring, (r.walk goal tet edge).rescue.site.mesh.deleted? there.tet = some false := by
    rcases hcases with ⟨rfl, hsame⟩ | ⟨member, hmember, hback⟩
    · rw [hsame]
      exact ⟨rfl, hswallowed rfl⟩
    · obtain ⟨⟨there, hthere, rfl, -⟩, -⟩ := Mesh.mem_of_farthestMember? hmember
      rw [hback] at hok ⊢
      obtain ⟨site, hsite⟩ := giveBack_eq_ok hok
      refine ⟨by rw [hsite], there, hthere, ?_⟩
      exact survives_of_giveBack
        (r := ⟨r.site, visited, ring :: r.rings, r.restored⟩) hr hok
  have hform := hrep.sameForm
  have hring' : (r.walk goal tet edge).rescue.site.mesh.ring tet edge = .ok ring := by
    rw [hform.ring_eq, hring]
  rw [← hform.size_eq] at htet
  refine ⟨fun u e hmem => ?_, ring, hring', there, hthere, hsurvives⟩
  rw [hlist, hvisited] at hmem
  rcases hmem with hold | ⟨here, hhere, heq⟩
  · exact hadvanced.hasSurvivor hr (hc u e hold)
  · cases heq
    exact Mesh.hasSurvivor_of_mem_ring hgood.sound htet hring' hhere hthere hsurvives

/-- A sweep that succeeds leaves a survivor around every constrained edge it was given, and
around all that it visited. An edge that was not due has one: its tetrahedron survives or it was
visited. -/
theorem sweep_covered (hr : r.site.Good) (hc : r.Covered) (goal : RescueGoal)
    {pairs : List (Nat × Edge)} (hok : (r.sweep goal pairs).outcome = .ok ()) :
    (r.sweep goal pairs).rescue.Covered ∧ ∀ tet edge, (tet, edge) ∈ pairs →
      r.site.mesh.marked? tet (.edge edge) = some true →
      (r.sweep goal pairs).rescue.site.mesh.HasSurvivor tet edge := by
  induction pairs generalizing r with
  | nil => exact ⟨hc, fun _ _ hmem => absurd hmem List.not_mem_nil⟩
  | cons pair rest ih =>
    obtain ⟨tet, edge⟩ := pair
    have hrest := sweep_advanced goal hr.consistent hr.sound rest
    unfold sweep at hok ⊢
    cases hdue : (r.isDue tet edge : Attempt CavityError Bool) with
    | error fault =>
      simp only [hdue] at hok
      cases hok
    | ok due =>
      obtain ⟨gone, marked, hgone, hmarked, hcond⟩ := isDue_eq_ok hdue
      cases due with
      | false =>
        simp only [hdue] at hok ⊢
        obtain ⟨hcovered, hsurvivors⟩ := ih hr hc hok
        refine ⟨hcovered, fun u e hmem hmark => ?_⟩
        rcases List.mem_cons.1 hmem with heq | hmem
        · cases heq
          obtain rfl : marked = true := Option.some.inj (hmarked.symm.trans hmark)
          refine hrest.hasSurvivor hr ?_
          cases gone with
          | false => exact Mesh.hasSurvivor_self hr.sound hgone edge
          | true => exact hc tet edge (by simpa using hcond)
        · exact hsurvivors u e hmem hmark
      | true =>
        simp only [hdue] at hok ⊢
        have hadvanced := walk_advanced goal hr.consistent hr.sound tet edge
        cases houtcome : (r.walk goal tet edge).outcome with
        | error fault =>
          simp only [houtcome] at hok
          cases hok
        | ok _ =>
          simp only [houtcome] at hok ⊢
          obtain ⟨hwalk, hself⟩ :=
            walk_covered hr hc (hr.sound.lt_size_of_marked? hmarked) houtcome
          have hgood := hadvanced.good hr
          obtain ⟨hcovered, hsurvivors⟩ := ih hgood hwalk hok
          refine ⟨hcovered, fun u e hmem hmark => ?_⟩
          rcases List.mem_cons.1 hmem with heq | hmem
          · cases heq
            exact (sweep_advanced goal hgood.consistent hgood.sound rest).hasSurvivor hgood hself
          · obtain ⟨restored, -, hrep⟩ := hadvanced.repaired
            exact hsurvivors u e hmem (by rwa [hrep.sameForm.marked? _ _ (by simp)])

/-- Painting what stays deleted takes no survivor away. -/
theorem run_hasSurvivor (hr : r.site.Good) (hc : r.Covered) (goal : RescueGoal) {fresh : List Nat}
    (hok : (r.run goal fresh).outcome = .ok ()) (htet : tet ∈ fresh)
    (hmark : r.site.mesh.marked? tet (.edge edge) = some true) :
    (r.run goal fresh).rescue.site.mesh.HasSurvivor tet edge := by
  have hsound := (sweep_advanced goal hr.consistent hr.sound (edgesOf fresh)).sound hr.sound
  unfold run at hok ⊢
  cases hsweep : (r.sweep goal (edgesOf fresh)).outcome with
  | error fault =>
    simp only [hsweep] at hok
    cases hok
  | ok _ =>
    have hsurvivor := (sweep_covered hr hc goal hsweep).2 tet edge (mem_edgesOf.2 htet) hmark
    simp only [hsweep] at hok ⊢
    cases hpaint : ((r.sweep goal (edgesOf fresh)).rescue.site.mesh.paintDeleted goal.color fresh :
        Attempt CavityError Mesh) with
    | error fault =>
      simp only [hpaint] at hok
      cases hok
    | ok mesh =>
      obtain ⟨hform, -, hdeleted⟩ := Mesh.paintDeleted_eq_ok hpaint
      exact hform.hasSurvivor hsound (fun u => (hdeleted u).1) hsurvivor

end Rescue

namespace Site

section

variable [Orient3d] {s : Site} {vertex : Vertex} {color : UInt16} {checkpoint : Nat}
  {policy : Policy}

/-- A rescue that succeeds leaves a survivor around every constrained edge of a tetrahedron that was
deleted since the checkpoint. -/
theorem Good.hasSurvivor_of_rescue (hs : s.Good)
    (hok : (s.rescue vertex color checkpoint policy).outcome = .ok ()) {tet : Nat}
    (htet : tet ∈ s.cavity.deleted.drop checkpoint) {edge : Edge}
    (hmark : s.mesh.marked? tet (.edge edge) = some true) :
    (s.rescue vertex color checkpoint policy).rescue.site.mesh.HasSurvivor tet edge := by
  unfold rescue at hok ⊢
  cases hcheck : s.checkRescue vertex checkpoint with
  | error fault =>
    simp only [hcheck] at hok
    cases hok
  | ok p =>
    simp only [hcheck] at hok ⊢
    cases hfresh : s.cavity.deleted.drop checkpoint with
    | nil =>
      rw [hfresh] at htet
      exact absurd htet List.not_mem_nil
    | cons start others =>
      simp only [hfresh] at hok ⊢
      cases hstart : s.checkStart vertex p start policy with
      | error fault =>
        simp only [hstart] at hok
        cases hok
      | ok _ =>
        simp only [hstart] at hok ⊢
        have hcovered : Rescue.Covered ⟨s, [], [], []⟩ := fun _ _ hmem =>
          absurd hmem List.not_mem_nil
        rw [hfresh] at htet
        exact Rescue.run_hasSurvivor (r := ⟨s, [], [], []⟩) hs hcovered _ hok htet hmark

/-- An edge that was constrained is in some tetrahedron whose edge it is, and around that edge all
tetrahedra have both its ends. -/
theorem exists_holder {m : Mesh} {edits : List MeshEdit} (hbuilt : m.Built edits) {a b : Vertex}
    (hedge : .constrainEdge a b ∈ edits) : ∃ tet edge, tet < m.size ∧
      m.marked? tet (.edge edge) = some true ∧ ∀ ring, m.ring tet edge = .ok ring →
        ∀ step ∈ ring, a ∈ (m.corners step.tet).toList ∧ b ∈ (m.corners step.tet).toList := by
  obtain ⟨hne, hmarked⟩ := hbuilt.marked_of_constrainEdge hedge
  obtain ⟨⟨tet, edge⟩, hholder⟩ := List.exists_mem_of_ne_nil _ hne
  obtain ⟨htet, nodes, hn, hbetween⟩ := Mesh.mem_edgeHolders.1 hholder
  refine ⟨tet, edge, List.mem_range.1 htet, hmarked tet edge hholder, ?_⟩
  intro ring hring step hstep
  exact Mesh.mem_corners_of_mem_ring hbuilt.sound.toClosed hn hbetween hring hstep

/-- Constrained edges survive a rescue and all repairs after it: around each edge that was
constrained in a tetrahedron deleted since the checkpoint a tetrahedron is left, and if the
checkpoint was the start, every pair of vertices whose edge was constrained is still in some
tetrahedron. -/
theorem edges_survive_rescue {edits : List MeshEdit} (hbuilt : s.mesh.Built edits) (hs : s.Checked)
    (hok : (s.rescue vertex color checkpoint policy).outcome = .ok ()) {later : List Call}
    (hlater : ∀ call ∈ later, call.givesBack = true) :
    (∀ tet ∈ s.cavity.deleted.drop checkpoint, ∀ edge,
      s.mesh.marked? tet (.edge edge) = some true →
      ∃ ring, s.mesh.ring tet edge = .ok ring ∧ ∃ step ∈ ring,
        ((s.rescue vertex color checkpoint policy).rescue.site.afterAll later).mesh.deleted?
          step.tet = some false) ∧
    (checkpoint = 0 → ∀ a b, .constrainEdge a b ∈ edits → ∃ tet nodes,
      ((s.rescue vertex color checkpoint policy).rescue.site.afterAll later).mesh.nodes[tet]? =
        some nodes ∧ a ∈ nodes.toList ∧ b ∈ nodes.toList ∧
      ((s.rescue vertex color checkpoint policy).rescue.site.afterAll later).mesh.deleted? tet =
        some false) := by
  have hm := hbuilt.sound
  have hgood : s.Good := ⟨hs.consistent hm.toLinked, hm⟩
  have hrescue := hgood.consistent.rescue_repaired hm vertex color checkpoint policy
  obtain ⟨restored, hafter⟩ := (hrescue.good hgood).repaired_afterAll hlater
  have hrepaired := hrescue.trans hafter
  have hsurvivor : ∀ tet edge,
      (s.rescue vertex color checkpoint policy).rescue.site.mesh.HasSurvivor tet edge →
      ∃ ring, s.mesh.ring tet edge = .ok ring ∧ ∃ step ∈ ring,
        ((s.rescue vertex color checkpoint policy).rescue.site.afterAll later).mesh.deleted?
          step.tet = some false := by
    intro tet edge h
    obtain ⟨ring, hring, hstep⟩ := hafter.hasSurvivor (hrescue.good hgood) h
    exact ⟨ring, by rw [← hring, hrepaired.sameForm.ring_eq], hstep⟩
  refine ⟨fun tet htet edge hmark => ?_, ?_⟩
  · exact hsurvivor tet edge (hgood.hasSurvivor_of_rescue hok htet hmark)
  · rintro rfl a b hedge
    obtain ⟨tet, edge, htet, hmark, hends⟩ := exists_holder hbuilt hedge
    have hleft : (s.rescue vertex color 0 policy).rescue.site.mesh.HasSurvivor tet edge := by
      by_cases hd : s.mesh.Deleted tet
      · exact hgood.hasSurvivor_of_rescue hok ((hgood.consistent.deleted_iff tet).1 hd) hmark
      · refine hrescue.hasSurvivor hgood (Mesh.hasSurvivor_self hm ?_ edge)
        exact hm.deleted?_eq_false_iff.2 ⟨htet, hd⟩
    obtain ⟨ring, hring, step, hstep, hsurvives⟩ := hsurvivor tet edge hleft
    obtain ⟨ha, hb⟩ := hends ring hring step hstep
    have hlt := ((hrepaired.sound hm).deleted?_eq_false_iff.1 hsurvives).1
    rw [hrepaired.sameForm.size_eq] at hlt
    refine ⟨step.tet, s.mesh.corners step.tet, ?_, ha, hb, hsurvives⟩
    rw [hrepaired.sameForm.nodes]
    exact Mesh.nodes_eq_corners hlt

end

/-- All that lies around two constrained edges of the chain is carved, and two of its tetrahedra are
rescued. -/
theorem edges_survive_rescue_chain : ∃ (s : Site) (edits : List MeshEdit),
    s.mesh.Built edits ∧ s.Checked ∧ s.cavity.deleted = [0, 1, 2, 4, 7, 10] ∧
    s.mesh.marked? 0 (.edge 2) = some true ∧ .constrainEdge 0 2 ∈ edits ∧
    (s.rescue 6 7 0 .strict).outcome = .ok () ∧ (s.rescue 6 7 0 .strict).rescue.restored = [2, 1] ∧
    (∀ call ∈ [Call.reshape 6 0 .strict, .restore 10 .fast, .rescue 6 8 0 .strict],
      call.givesBack = true) ∧
    (∃ ring, s.mesh.ring 0 2 = .ok ring ∧ ∃ step ∈ ring,
      ((s.rescue 6 7 0 .strict).rescue.site.afterAll
        [.reshape 6 0 .strict, .restore 10 .fast, .rescue 6 8 0 .strict]).mesh.deleted? step.tet =
        some false) ∧
    ∃ tet nodes, ((s.rescue 6 7 0 .strict).rescue.site.afterAll
        [.reshape 6 0 .strict, .restore 10 .fast, .rescue 6 8 0 .strict]).mesh.nodes[tet]? =
        some nodes ∧ 0 ∈ nodes.toList ∧ 2 ∈ nodes.toList ∧
      ((s.rescue 6 7 0 .strict).rescue.site.afterAll
        [.reshape 6 0 .strict, .restore 10 .fast, .rescue 6 8 0 .strict]).mesh.deleted? tet =
        some false := by
  obtain ⟨s, hs, hdeleted, hmark, hok, hrestored⟩ : ∃ s,
      prepare? chainCorners chainTets
        [.constrainEdge 1 2, .constrainEdge 0 2, .addVertex ⟨0.25, 0.25, 0.25⟩]
        [[0, 1, 2, 4, 7, 10]] = some s ∧
      s.cavity.deleted = [0, 1, 2, 4, 7, 10] ∧ s.mesh.marked? 0 (.edge 2) = some true ∧
      (s.rescue 6 7 0 .strict).outcome = .ok () ∧
      (s.rescue 6 7 0 .strict).rescue.restored = [2, 1] := exists_of_any? (by decide +kernel)
  obtain ⟨hchecked, more, hbuilt⟩ := prepare?_eq_some (by decide) hs
  have hedge : MeshEdit.constrainEdge 0 2 ∈
      more ++ [.constrainEdge 1 2, .constrainEdge 0 2, .addVertex ⟨0.25, 0.25, 0.25⟩].reverse := by
    simp
  have hlater : ∀ call ∈ [Call.reshape 6 0 .strict, .restore 10 .fast, .rescue 6 8 0 .strict],
      call.givesBack = true := by decide
  obtain ⟨hrings, hpairs⟩ := edges_survive_rescue hbuilt hchecked hok hlater
  have hfresh : 0 ∈ s.cavity.deleted.drop 0 := by rw [hdeleted]; decide
  exact ⟨s, _, hbuilt, hchecked, hdeleted, hmark, hedge, hok, hrestored, hlater,
    hrings 0 hfresh 2 hmark, hpairs rfl 0 2 hedge⟩

end Site

end CavityRepair
