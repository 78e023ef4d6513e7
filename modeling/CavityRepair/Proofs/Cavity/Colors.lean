import CavityRepair.Proofs.Cavity.PathIndependence
import CavityRepair.Proofs.Cavity.RescueOutcomes
/-!
# What a rescue touches

A rescue colors at two places: what it gives back, right then, and what is still deleted of the
tetrahedra since the checkpoint, at its end. So what it has colored at any time on its way is what
it has given back (`Rescue.ColoredFrom`), and at the end the tetrahedra since the checkpoint as
well. Nothing else of the mesh changes but deleted marks, and these are only cleared
(`Mesh.Recolored`).

* `Rescue.ColoredFrom.walk`: one walk keeps the account of colors.
* `Site.rescue_recolors`: what a rescue leaves of a mesh, whether it succeeds or not.
-/
namespace CavityRepair

namespace Mesh

/-- A mesh that differs from another in nothing but deleted marks and the color of some tetrahedra,
which is given. -/
structure Recolored (m m' : Mesh) (color : UInt16) (tets : List Nat) : Prop where
  vertices : m'.vertices = m.vertices
  nodes : m'.nodes = m.nodes
  twins : m'.twins = m.twins
  flags : m'.flags.map (·.erase .deleted) = m.flags.map (·.erase .deleted)
  colors : ∀ u : Nat, m'.colors[u]? =
    m.colors[u]?.map fun old => if u ∈ tets then color else old

variable {m m' m'' : Mesh} {color : UInt16} {tets tets' : List Nat}

theorem SameButDeleted.recolored (h : m.SameButDeleted m') (color : UInt16) :
    m.Recolored m' color [] where
  vertices := h.vertices
  nodes := h.nodes
  twins := h.twins
  flags := h.flags
  colors u := by simp [h.colors]

namespace Recolored

theorem trans (h : m.Recolored m' color tets) (h' : m'.Recolored m'' color tets') :
    m.Recolored m'' color (tets' ++ tets) where
  vertices := h'.vertices.trans h.vertices
  nodes := h'.nodes.trans h.nodes
  twins := h'.twins.trans h.twins
  flags := h'.flags.trans h.flags
  colors u := by
    rw [h'.colors, h.colors, Option.map_map]
    congr 1
    funext old
    by_cases hu : u ∈ tets' <;> simp [hu]

theorem congr (h : m.Recolored m' color tets) (hmem : ∀ u, u ∈ tets ↔ u ∈ tets') :
    m.Recolored m' color tets' :=
  { h with colors := fun u => by simp only [h.colors, hmem] }

end Recolored

theorem recolored_paint (m : Mesh) (tet : Nat) (color : UInt16) :
    m.Recolored (m.paint tet color) color [tet] where
  vertices := rfl
  nodes := rfl
  twins := rfl
  flags := rfl
  colors u := by
    rw [color_paint]
    by_cases htet : u = tet
    · subst htet
      by_cases hu : u < m.colors.size <;> simp [hu]
    · simp [htet, Ne.symm htet]

/-- Painting what is deleted of some tetrahedra colors just that. -/
theorem recolored_of_paintDeleted {ε : Type}
    (h : (m.paintDeleted color tets : Attempt ε Mesh) = .ok m') :
    m.Recolored m' color (tets.filter (m.Deleted ·)) := by
  induction tets generalizing m with
  | nil =>
    cases h
    exact (SameButDeleted.refl _).recolored color
  | cons tet rest ih =>
    rw [paintDeleted] at h
    obtain ⟨gone, hgone, h⟩ := found_bind_eq_ok_iff.1 h
    cases gone with
    | false =>
      have hnot : ¬m.Deleted tet := by simp [Deleted, hgone]
      rw [List.filter_cons_of_neg (by simpa using hnot)]
      exact ih h
    | true =>
      rw [if_pos rfl] at h
      obtain ⟨painted, hpainted, h⟩ := bind_eq_ok_iff.1 h
      obtain rfl := setColor_eq_ok hpainted
      have hdeleted : m.Deleted tet := hgone
      rw [List.filter_cons_of_pos (by simpa using hdeleted)]
      refine ((recolored_paint m tet color).trans (ih h)).congr fun u => ?_
      simp only [deleted_paint_iff]
      exact (List.perm_append_singleton tet _).mem_iff

/-- All tetrahedra of a ring that is found to be swallowed are deleted. -/
theorem deleted_of_visitRing {policy : Policy} {visited visited' : List (Nat × Edge)}
    {ring : List RingStep} (h : m.visitRing policy visited ring = .ok (visited', true)) :
    ∀ step ∈ ring, m.Deleted step.tet := by
  induction ring generalizing visited visited' with
  | nil => exact List.forall_mem_nil _
  | cons step rest ih =>
    rw [visitRing, require_bind_eq_ok_iff, found_bind_eq_ok_iff] at h
    obtain ⟨-, gone, hgone, h⟩ := h
    obtain ⟨⟨after, others⟩, hrest, h⟩ := bind_eq_ok_iff.1 h
    have hboth : (gone && others) = true := congrArg Prod.snd (Except.ok.inj h)
    rw [Bool.and_eq_true] at hboth
    rw [hboth.1] at hgone
    rw [hboth.2] at hrest
    exact List.forall_mem_cons.2 ⟨hgone, ih hrest⟩

end Mesh

/-! ## On the way -/

namespace Rescue

variable {r : Rescue} {goal : RescueGoal} {m : Mesh} {tet : Nat} {edge : Edge}

/-- On its way from a mesh, a rescue has colored what it has given back and nothing else. -/
structure ColoredFrom (m : Mesh) (color : UInt16) (r : Rescue) : Prop where
  good : r.site.Good
  recolored : m.Recolored r.site.mesh color r.restored

theorem ColoredFrom.giveBack (h : r.ColoredFrom m goal.color)
    (hdeleted : r.site.mesh.Deleted tet) :
    (r.giveBack goal tet).rescue.ColoredFrom m goal.color := by
  have hgood := (giveBack_advanced goal h.good.consistent h.good.sound tet).good h.good
  obtain ⟨site, heq, hmesh⟩ := giveBack_eq goal h.good hdeleted
  have hrecolored : r.site.mesh.Recolored site.mesh goal.color [tet] := by
    rw [hmesh]
    exact (Mesh.recolored_paint _ _ _).trans ((Mesh.sameButDeleted_unmark _ tet).recolored _)
  rw [heq] at hgood ⊢
  exact ⟨hgood, h.recolored.trans hrecolored⟩

/-- A walk colors nothing but the member of a swallowed ring that it gives back. -/
theorem ColoredFrom.walk (h : r.ColoredFrom m goal.color) :
    (r.walk goal tet edge).rescue.ColoredFrom m goal.color := by
  have hnoted : ∀ visited rings,
      ColoredFrom m goal.color ⟨r.site, visited, rings, r.restored⟩ := fun _ _ =>
    ⟨h.good, h.recolored⟩
  unfold Rescue.walk
  dsimp only
  split
  · exact h
  · split
    · exact hnoted _ _
    · rename_i visited swallowed hvisit
      split
      · rename_i hswallowed
        rw [hswallowed] at hvisit
        split
        · exact hnoted _ _
        · rename_i member hmember
          obtain ⟨⟨step, hstep, rfl, -⟩, -⟩ := Mesh.mem_of_farthestMember? hmember
          exact (hnoted _ _).giveBack (Mesh.deleted_of_visitRing hvisit step hstep)
      · exact hnoted _ _

theorem ColoredFrom.sweep (h : r.ColoredFrom m goal.color) (pairs : List (Nat × Edge)) :
    (r.sweep goal pairs).rescue.ColoredFrom m goal.color :=
  sweep_invariant (fun h _ => h.walk) h pairs

/-! ## At the end -/

/-- A run that is given up has colored what it has given back; one that succeeds has colored the
tetrahedra since the checkpoint as well. Those that were given back were colored then, and all
others are still deleted at the end. -/
theorem run_recolors {s : Site} (hs : s.Good) (goal : RescueGoal) {fresh : List Nat}
    (hfresh : ∀ tet ∈ fresh, s.mesh.Deleted tet) :
    ((run ⟨s, [], [], []⟩ goal fresh).outcome ≠ .ok () →
      s.mesh.Recolored (run ⟨s, [], [], []⟩ goal fresh).rescue.site.mesh goal.color
        (run ⟨s, [], [], []⟩ goal fresh).rescue.restored) ∧
    ((run ⟨s, [], [], []⟩ goal fresh).outcome = .ok () →
      s.mesh.Recolored (run ⟨s, [], [], []⟩ goal fresh).rescue.site.mesh goal.color
        (fresh ++ (run ⟨s, [], [], []⟩ goal fresh).rescue.restored)) := by
  have hstart : ColoredFrom s.mesh goal.color ⟨s, [], [], []⟩ :=
    ⟨hs, (Mesh.SameButDeleted.refl s.mesh).recolored goal.color⟩
  have hsweep := hstart.sweep (edgesOf fresh)
  obtain ⟨restored, hrestored, hrep⟩ :=
    (sweep_advanced (r := ⟨s, [], [], []⟩) goal hs.consistent hs.sound (edgesOf fresh)).repaired
  rw [List.append_nil] at hrestored
  rcases run_cases ⟨s, [], [], []⟩ goal fresh with ⟨hnot, heq⟩ | ⟨hok, mesh, hmesh, heq⟩
  · rw [heq]
    exact ⟨fun _ => hsweep.recolored, fun hok => absurd hok hnot⟩
  · rw [heq]
    refine ⟨fun hnot => absurd hok hnot, fun _ => ?_⟩
    refine (hsweep.recolored.trans (Mesh.recolored_of_paintDeleted hmesh)).congr fun u => ?_
    rw [List.mem_append, List.mem_append, List.mem_filter, decide_eq_true_eq,
      hrep.deleted_iff hs.consistent, hrestored]
    have := hfresh u
    tauto

end Rescue

namespace Site

variable {s : Site}

/-- A rescue leaves positions, corners, twins and all marks but the deleted ones as they are, clears
deleted marks only, and colors, if it succeeds, just the tetrahedra since the checkpoint and those
that it gave back; if it is given up, just those that it gave back. If there are none since the
checkpoint, nothing changes. -/
theorem rescue_recolors [Orient3d] {edits : List MeshEdit} (hbuilt : s.mesh.Built edits)
    (hs : s.Checked) (vertex : Vertex) (color : UInt16) (checkpoint : Nat) (policy : Policy) :
    let report := s.rescue vertex color checkpoint policy
    let mesh := report.rescue.site.mesh
    (∀ u, mesh.Deleted u → s.mesh.Deleted u) ∧
    (∀ u, u ∈ report.rescue.restored ↔ s.mesh.Deleted u ∧ ¬mesh.Deleted u) ∧
    (report.outcome = .ok () → s.mesh.Recolored mesh color
      (s.cavity.deleted.drop checkpoint ++ report.rescue.restored)) ∧
    (report.outcome ≠ .ok () → s.mesh.Recolored mesh color report.rescue.restored) ∧
    (s.cavity.deleted.drop checkpoint = [] → report.rescue.site = s) := by
  have h : s.Good := ⟨hs.consistent hbuilt.sound.toLinked, hbuilt.sound⟩
  have hrep := h.consistent.rescue_repaired h.sound vertex color checkpoint policy
  have hdeleted := hrep.deleted_iff h.consistent
  have hrestored : ∀ u ∈ (s.rescue vertex color checkpoint policy).rescue.restored,
      s.mesh.Deleted u := fun u hu =>
    (h.consistent.deleted_iff u).2 (hrep.deleted.mem_iff.2 (List.mem_append_left _ hu))
  have hfresh : ∀ u ∈ s.cavity.deleted.drop checkpoint, s.mesh.Deleted u := fun u hu =>
    (h.consistent.deleted_iff u).2 (List.mem_of_mem_drop hu)
  refine ⟨fun u hu => ((hdeleted u).1 hu).1, fun u => ?_, ?_⟩
  · rw [hdeleted]
    have := hrestored u
    tauto
  · rcases s.rescue_report_cases vertex color checkpoint policy with
      ⟨hidle, hcause⟩ | ⟨goal, rfl, hstart, hrun⟩
    · have hsame : s.mesh.Recolored s.mesh color [] :=
        (Mesh.SameButDeleted.refl s.mesh).recolored color
      rw [hidle]
      refine ⟨fun hok => ?_, fun _ => hsame, fun _ => rfl⟩
      rw [hcause.resolve_left (not_not.2 hok)]
      exact hsame
    · obtain ⟨hgivenUp, hok⟩ := Rescue.run_recolors h goal hfresh
      rw [hrun]
      refine ⟨hok, hgivenUp, fun hnil => ?_⟩
      rw [List.drop_eq_nil_iff, ← List.getElem?_eq_none_iff, hstart] at hnil
      cases hnil

/-- In the chain, carved in two portions, the rescue that begins with the last tetrahedron gives
back two of the first portion. They are in the color, and so is the last one, which stays deleted;
the others of the first portion are not. -/
theorem rescue_recolors_chain : ∃ (s : Site) (edits : List MeshEdit),
    prepare? chainCorners chainTets
      [.constrainEdge 1 2, .constrainEdge 0 2, .addVertex ⟨0.25, 0.25, 0.25⟩]
      [[1, 2, 4, 7, 10], [0]] = some s ∧
    s.mesh.Built edits ∧ s.Checked ∧ s.cavity.deleted.drop 5 = [0] ∧
    (s.rescue 6 7 5 .strict).rescue.restored = [2, 1] ∧
    s.mesh.Recolored (s.rescue 6 7 5 .strict).rescue.site.mesh 7 [0, 2, 1] := by
  obtain ⟨s, hs, hdrop, hok, hrestored⟩ : ∃ s,
      prepare? chainCorners chainTets
        [.constrainEdge 1 2, .constrainEdge 0 2, .addVertex ⟨0.25, 0.25, 0.25⟩]
        [[1, 2, 4, 7, 10], [0]] = some s ∧
      s.cavity.deleted.drop 5 = [0] ∧ (s.rescue 6 7 5 .strict).outcome = .ok () ∧
      (s.rescue 6 7 5 .strict).rescue.restored = [2, 1] := exists_of_any? (by decide +kernel)
  obtain ⟨hchecked, more, hbuilt⟩ := prepare?_eq_some (by decide) hs
  obtain ⟨-, -, hrecolored, -⟩ := rescue_recolors hbuilt hchecked 6 7 5 .strict
  have hcolored := hrecolored hok
  rw [hdrop, hrestored] at hcolored
  exact ⟨s, _, hs, hbuilt, hchecked, hdrop, hrestored, hcolored⟩

end Site

end CavityRepair
