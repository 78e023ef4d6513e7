import CavityRepair.Cavity.Rescue
import CavityRepair.Cavity.Reshape
import CavityRepair.Proofs.Cavity.Restoring
/-!
# Repairing a consistent cavity

Reshaping and rescuing do nothing to a cavity but give tetrahedra back and paint. `Site.Repaired`
says so and names the tetrahedra; it holds of what they leave behind, whether they succeed or are
given up on the way.

* `Site.Consistent.reshape_repaired`, `Site.Consistent.rescue_repaired`: the repair operations
  repair.
* `Site.Repaired.deleted_iff`: what is deleted afterwards.
-/
namespace CavityRepair

/-- A consistent cavity that some tetrahedra were taken out of, in a mesh of the same form. -/
structure Site.Repaired (s s' : Site) (restored : List Nat) : Prop where
  sameForm : s.mesh.SameForm s'.mesh
  vertices : s'.mesh.vertices = s.mesh.vertices
  deleted : s.cavity.deleted.Perm (restored ++ s'.cavity.deleted)
  consistent : s'.Consistent

namespace Mesh

variable {m m' : Mesh}

theorem paintDeleted_eq_ok {ε : Type} {color : UInt16} {tets : List Nat}
    (h : (m.paintDeleted color tets : Attempt ε Mesh) = .ok m') :
    m.SameForm m' ∧ m'.vertices = m.vertices ∧ ∀ u, m'.Deleted u ↔ m.Deleted u := by
  induction tets generalizing m with
  | nil =>
    cases h
    exact ⟨.refl _, rfl, fun _ => .rfl⟩
  | cons tet rest ih =>
    rw [paintDeleted] at h
    obtain ⟨gone, -, h⟩ := found_bind_eq_ok_iff.1 h
    cases gone with
    | false => exact ih h
    | true =>
      rw [if_pos rfl] at h
      obtain ⟨painted, hpainted, h⟩ := bind_eq_ok_iff.1 h
      obtain rfl := setColor_eq_ok hpainted
      obtain ⟨hform, hvertices, hdeleted⟩ := ih h
      exact ⟨(sameForm_paint m tet color).trans hform, hvertices, hdeleted⟩

end Mesh

namespace Site

variable {s s' s'' : Site} {restored restored' : List Nat} {policy : Policy}

/-- Consistency depends on nothing but the form of the mesh and what is deleted in it. -/
theorem Consistent.of_sameForm (h : s.Consistent) {m' : Mesh} (hform : s.mesh.SameForm m')
    (hdeleted : ∀ u, m'.Deleted u ↔ s.mesh.Deleted u) : Site.Consistent ⟨m', s.cavity⟩ where
  nodup := h.nodup
  deleted_iff u := (hdeleted u).trans (h.deleted_iff u)
  outers_nodup := h.outers_nodup
  mem_outers outer := by
    rw [h.mem_outers]
    simp only [hform.twin?_eq, hform.constrained_iff, hdeleted]
  fresh face hf := (hform.ballFace?_eq _).trans (h.fresh face hf)

namespace Repaired

theorem refl (h : s.Consistent) : s.Repaired s [] := ⟨.refl s.mesh, rfl, .refl _, h⟩

theorem trans (h : s.Repaired s' restored) (h' : s'.Repaired s'' restored') :
    s.Repaired s'' (restored' ++ restored) where
  sameForm := h.sameForm.trans h'.sameForm
  vertices := h'.vertices.trans h.vertices
  deleted := by
    have hmore := h.deleted.trans (h'.deleted.append_left restored)
    rw [← List.append_assoc] at hmore
    exact hmore.trans (List.perm_append_comm.append_right _)
  consistent := h'.consistent

theorem sound (h : s.Repaired s' restored) (hm : s.mesh.Sound) : s'.mesh.Sound :=
  h.sameForm.sound hm

/-- What is deleted afterwards is what was deleted and not given back. -/
theorem deleted_iff (h : s.Repaired s' restored) (hs : s.Consistent) (u : Nat) :
    s'.mesh.Deleted u ↔ s.mesh.Deleted u ∧ u ∉ restored := by
  have hnodup := h.deleted.nodup_iff.1 hs.nodup
  rw [hs.deleted_iff, h.consistent.deleted_iff, h.deleted.mem_iff, List.mem_append]
  constructor
  · intro hu
    exact ⟨.inr hu, fun hr => List.disjoint_of_nodup_append hnodup hr hu⟩
  · rintro ⟨hr | hu, hnot⟩
    · exact absurd hr hnot
    · exact hu

theorem length_deleted (h : s.Repaired s' restored) :
    restored.length + s'.cavity.deleted.length = s.cavity.deleted.length := by
  rw [h.deleted.length_eq, List.length_append]

theorem point?_eq (h : s.Repaired s' restored) (v : Vertex) :
    s'.mesh.point? v = s.mesh.point? v := by
  unfold Mesh.point?
  rw [h.vertices]

/-- A mesh of the same form with the same deleted tetrahedra may be put into the place of the one
that a repair left. -/
theorem of_sameForm (h : s.Repaired s' restored) {m' : Mesh} (hform : s'.mesh.SameForm m')
    (hvertices : m'.vertices = s'.mesh.vertices)
    (hdeleted : ∀ u, m'.Deleted u ↔ s'.mesh.Deleted u) :
    s.Repaired ⟨m', s'.cavity⟩ restored :=
  ⟨h.sameForm.trans hform, hvertices.trans h.vertices, h.deleted,
    h.consistent.of_sameForm hform hdeleted⟩

end Repaired

namespace Consistent

/-- Giving a tetrahedron back is a repair. -/
theorem restore_repaired (h : s.Consistent) (hm : s.mesh.Sound) {tet : Nat}
    (hr : s.restore tet policy = .ok s') : s.Repaired s' [tet] := by
  obtain ⟨ht, g⟩ := h.restore_eq_ok hm.toLinked hr
  exact ⟨g.sameForm, by rw [g.mesh]; rfl, g.deleted, h.of_givenBack hm.carvable ht g⟩

variable [Orient3d]

theorem repair?_repaired (h : s.Consistent) (hm : s.mesh.Sound) {p : Point} {tet : Nat}
    (hr : s.repair? p policy = some (.ok (tet, s'))) : s.Repaired s' [tet] := by
  obtain ⟨place, -, hr⟩ := Option.map_eq_some_iff.1 hr
  obtain ⟨tet', -, hr⟩ := bind_eq_ok_iff.1 hr
  obtain ⟨site, hsite, hr⟩ := bind_eq_ok_iff.1 hr
  cases hr
  exact h.restore_repaired hm hsite

/-! ## Reshaping -/

theorem shrink_repaired (h : s.Consistent) (hm : s.mesh.Sound) (p : Point) (policy : Policy) :
    s.Repaired (s.shrink p policy).site (s.shrink p policy).restored.reverse := by
  fun_induction Site.shrink s p policy with
  | case1 s hr => exact .refl h
  | case2 s fault hr => exact .refl h
  | case3 s tet next hr later ih =>
    have hstep := h.repair?_repaired hm hr
    rw [List.reverse_cons]
    exact hstep.trans (ih hstep.consistent (hstep.sound hm))

/-- Reshaping repairs. -/
theorem reshape_repaired (h : s.Consistent) (hm : s.mesh.Sound) (vertex : Vertex) (checkpoint : Nat)
    (policy : Policy) : s.Repaired (s.reshape vertex checkpoint policy).site
      (s.reshape vertex checkpoint policy).restored.reverse := by
  unfold reshape
  split
  · exact .refl h
  · exact h.shrink_repaired hm _ policy

end Consistent

end Site

/-! ## Rescuing -/

theorem mem_edgesOf {tets : List Nat} {a : Nat × Edge} : a ∈ edgesOf tets ↔ a.1 ∈ tets := by
  unfold edgesOf
  rw [List.mem_flatMap]
  constructor
  · rintro ⟨tet, htet, ha⟩
    obtain ⟨edge, -, rfl⟩ := List.mem_map.1 ha
    exact htet
  · exact fun ha => ⟨a.1, ha, List.mem_map.2 ⟨a.2, mem_edges a.2, rfl⟩⟩

/-- What a rescue did between two of its states. -/
structure Rescue.Advanced (r r' : Rescue) : Prop where
  repaired : ∃ restored, r'.restored = restored ++ r.restored ∧ r.site.Repaired r'.site restored

namespace Rescue

variable {r r' r'' : Rescue}

namespace Advanced

theorem refl (h : r.site.Consistent) : r.Advanced r := ⟨[], rfl, .refl h⟩

theorem trans (h : r.Advanced r') (h' : r'.Advanced r'') : r.Advanced r'' := by
  obtain ⟨restored, heq, hrep⟩ := h.repaired
  obtain ⟨restored', heq', hrep'⟩ := h'.repaired
  exact ⟨restored' ++ restored, by rw [heq', heq, List.append_assoc], hrep.trans hrep'⟩

theorem consistent (h : r.Advanced r') : r'.site.Consistent := h.repaired.choose_spec.2.consistent

theorem sound (h : r.Advanced r') (hm : r.site.mesh.Sound) : r'.site.mesh.Sound :=
  h.repaired.choose_spec.2.sound hm

end Advanced

theorem giveBack_advanced (goal : RescueGoal) (h : r.site.Consistent) (hm : r.site.mesh.Sound)
    (tet : Nat) : r.Advanced (r.giveBack goal tet).rescue := by
  unfold giveBack
  split
  · exact .refl h
  · rename_i mesh hmesh
    obtain rfl := Mesh.setColor_eq_ok hmesh
    have hpainted : r.site.Repaired ⟨r.site.mesh.paint tet goal.color, r.site.cavity⟩ [] :=
      (Site.Repaired.refl h).of_sameForm (Mesh.sameForm_paint _ _ _) rfl fun _ => .rfl
    dsimp only
    split
    · exact ⟨[], rfl, hpainted⟩
    · rename_i site hsite
      have hrestored := hpainted.consistent.restore_repaired (hpainted.sound hm) hsite
      exact ⟨[tet], rfl, hpainted.trans hrestored⟩

/-- A walk notes what it met, and may then give a tetrahedron back. -/
theorem walk_eq (r : Rescue) (goal : RescueGoal) (tet : Nat) (edge : Edge) :
    ∃ visited rings, (r.walk goal tet edge).rescue =
        { r with visited := visited, rings := rings } ∨
      ∃ member, r.walk goal tet edge =
        giveBack { r with visited := visited, rings := rings } goal member := by
  unfold walk
  dsimp only
  split
  · exact ⟨r.visited, r.rings, .inl rfl⟩
  · split
    · exact ⟨_, _, .inl rfl⟩
    · split
      · split
        · exact ⟨_, _, .inl rfl⟩
        · exact ⟨_, _, .inr ⟨_, rfl⟩⟩
      · exact ⟨_, _, .inl rfl⟩

theorem walk_advanced (goal : RescueGoal) (h : r.site.Consistent) (hm : r.site.mesh.Sound)
    (tet : Nat) (edge : Edge) : r.Advanced (r.walk goal tet edge).rescue := by
  obtain ⟨visited, rings, hcases⟩ := r.walk_eq goal tet edge
  have hsame : r.Advanced { r with visited := visited, rings := rings } := ⟨[], rfl, .refl h⟩
  rcases hcases with heq | ⟨member, heq⟩ <;> rw [heq]
  · exact hsame
  · exact hsame.trans
      (giveBack_advanced (r := ⟨r.site, visited, rings, r.restored⟩) goal h hm member)

/-! ### What walks keep -/

section

variable {P : Rescue → Prop} {goal : RescueGoal}

/-- What every walk around an edge that is due keeps, the sweep keeps, also when it is given up. -/
theorem sweep_invariant_of_mem {pairs : List (Nat × Edge)}
    (hwalk : ∀ {r : Rescue} {tet edge}, (tet, edge) ∈ pairs → P r →
      (r.isDue tet edge : Attempt CavityError Bool) = .ok true → P (r.walk goal tet edge).rescue)
    (h : P r) : P (r.sweep goal pairs).rescue := by
  induction pairs generalizing r with
  | nil => exact h
  | cons pair rest ih =>
    obtain ⟨tet, edge⟩ := pair
    have hrest : ∀ {r}, P r → P (r.sweep goal rest).rescue := fun hr =>
      ih (fun hmem => hwalk (List.mem_cons_of_mem _ hmem)) hr
    unfold sweep
    split
    · exact h
    · exact hrest h
    · rename_i hdue
      dsimp only
      split
      · exact hwalk List.mem_cons_self h hdue
      · exact hrest (hwalk List.mem_cons_self h hdue)

theorem sweep_invariant
    (hwalk : ∀ {r : Rescue} {tet edge}, P r →
      (r.isDue tet edge : Attempt CavityError Bool) = .ok true → P (r.walk goal tet edge).rescue)
    (h : P r) (pairs : List (Nat × Edge)) : P (r.sweep goal pairs).rescue :=
  sweep_invariant_of_mem (fun _ => hwalk) h

/-- A run ends where its sweep is given up, or goes on to paint. -/
theorem run_cases (r : Rescue) (goal : RescueGoal) (fresh : List Nat) :
    (r.run goal fresh).outcome ≠ .ok () ∧
        (r.run goal fresh).rescue = (r.sweep goal (edgesOf fresh)).rescue ∨
      (r.run goal fresh).outcome = .ok () ∧ ∃ mesh,
        ((r.sweep goal (edgesOf fresh)).rescue.site.mesh.paintDeleted goal.color fresh :
          Attempt CavityError Mesh) = .ok mesh ∧
        (r.run goal fresh).rescue = { (r.sweep goal (edgesOf fresh)).rescue with
          site := ⟨mesh, (r.sweep goal (edgesOf fresh)).rescue.site.cavity⟩ } := by
  unfold run
  dsimp only
  split
  · rename_i fault hfault
    exact .inl ⟨by rw [hfault]; exact nofun, rfl⟩
  · rename_i hok
    split
    · exact .inl ⟨nofun, rfl⟩
    · rename_i mesh hmesh
      exact .inr ⟨hok, mesh, hmesh, rfl⟩

/-- What besides painting keeps, the run keeps. -/
theorem run_invariant
    (hwalk : ∀ {r : Rescue} {tet edge}, P r →
      (r.isDue tet edge : Attempt CavityError Bool) = .ok true → P (r.walk goal tet edge).rescue)
    (hpaint : ∀ {r : Rescue} {mesh tets}, P r →
      (r.site.mesh.paintDeleted goal.color tets : Attempt CavityError Mesh) = .ok mesh →
      P { r with site := ⟨mesh, r.site.cavity⟩ })
    (h : P r) (fresh : List Nat) : P (r.run goal fresh).rescue := by
  have hsweep := sweep_invariant hwalk h (edgesOf fresh)
  rcases r.run_cases goal fresh with ⟨-, heq⟩ | ⟨-, mesh, hmesh, heq⟩ <;> rw [heq]
  · exact hsweep
  · exact hpaint hsweep hmesh

end

theorem sweep_advanced (goal : RescueGoal) (h : r.site.Consistent) (hm : r.site.mesh.Sound)
    (pairs : List (Nat × Edge)) : r.Advanced (r.sweep goal pairs).rescue :=
  sweep_invariant
    (fun hr _ => hr.trans (walk_advanced goal hr.consistent (hr.sound hm) _ _)) (.refl h) pairs

theorem Advanced.paint (h : r.Advanced r') {color : UInt16} {tets : List Nat} {mesh : Mesh}
    (hmesh : (r'.site.mesh.paintDeleted color tets : Attempt CavityError Mesh) = .ok mesh) :
    r.Advanced { r' with site := ⟨mesh, r'.site.cavity⟩ } := by
  obtain ⟨hform, hvertices, hdeleted⟩ := Mesh.paintDeleted_eq_ok hmesh
  obtain ⟨restored, heq, hrep⟩ := h.repaired
  exact ⟨restored, heq, hrep.of_sameForm hform hvertices hdeleted⟩

theorem run_advanced (goal : RescueGoal) (h : r.site.Consistent) (hm : r.site.mesh.Sound)
    (fresh : List Nat) : r.Advanced (r.run goal fresh).rescue :=
  run_invariant (fun hr _ => hr.trans (walk_advanced goal hr.consistent (hr.sound hm) _ _))
    (fun hr hmesh => hr.paint hmesh) (.refl h) fresh

end Rescue

variable [Orient3d]

/-- A rescue refuses to start, has nothing to do, or runs from the first tetrahedron since the
checkpoint. -/
theorem Site.rescue_report_cases (s : Site) (vertex : Vertex) (color : UInt16) (checkpoint : Nat)
    (policy : Policy) :
    (s.rescue vertex color checkpoint policy).rescue = ⟨s, [], [], []⟩ ∧
        ((s.rescue vertex color checkpoint policy).outcome ≠ .ok () ∨
          s.cavity.deleted.drop checkpoint = []) ∨
      ∃ goal, goal.color = color ∧ s.cavity.deleted[checkpoint]? = some goal.start ∧
        s.rescue vertex color checkpoint policy =
          Rescue.run ⟨s, [], [], []⟩ goal (s.cavity.deleted.drop checkpoint) := by
  have hget : s.cavity.deleted[checkpoint]? = (s.cavity.deleted.drop checkpoint)[0]? := by
    rw [List.getElem?_drop, Nat.add_zero]
  rw [hget]
  unfold rescue
  dsimp only
  split
  · exact .inl ⟨rfl, .inl nofun⟩
  · rename_i p _
    split
    · rename_i hnil
      exact .inl ⟨rfl, .inr hnil⟩
    · rename_i start others hdrop
      split
      · exact .inl ⟨rfl, .inl nofun⟩
      · exact .inr ⟨⟨p, start, color, policy⟩, rfl, by rw [hdrop]; rfl, by rw [hdrop]⟩

/-- A rescue does nothing or runs from the first tetrahedron since the checkpoint. -/
theorem Site.rescue_cases (s : Site) (vertex : Vertex) (color : UInt16) (checkpoint : Nat)
    (policy : Policy) : (s.rescue vertex color checkpoint policy).rescue = ⟨s, [], [], []⟩ ∨
      ∃ goal, s.cavity.deleted[checkpoint]? = some goal.start ∧
        (s.rescue vertex color checkpoint policy).rescue =
          (Rescue.run ⟨s, [], [], []⟩ goal (s.cavity.deleted.drop checkpoint)).rescue := by
  rcases s.rescue_report_cases vertex color checkpoint policy with
    ⟨hidle, -⟩ | ⟨goal, -, hstart, hrun⟩
  · exact .inl hidle
  · exact .inr ⟨goal, hstart, by rw [hrun]⟩

/-- Rescuing repairs. -/
theorem Site.Consistent.rescue_repaired {s : Site} (h : s.Consistent) (hm : s.mesh.Sound)
    (vertex : Vertex) (color : UInt16) (checkpoint : Nat) (policy : Policy) :
    s.Repaired (s.rescue vertex color checkpoint policy).rescue.site
      (s.rescue vertex color checkpoint policy).rescue.restored := by
  rcases s.rescue_cases vertex color checkpoint policy with heq | ⟨goal, -, heq⟩
  · rw [heq]
    exact .refl h
  · obtain ⟨restored, hrestored, hrep⟩ :=
      (Rescue.run_advanced (r := ⟨s, [], [], []⟩) goal h hm _).repaired
    rw [heq, hrestored, List.append_nil]
    exact hrep

end CavityRepair
