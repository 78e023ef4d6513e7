import Mathlib.Data.List.Perm.Subperm
import CavityRepair.Proofs.Cavity.StarShaped
/-!
# Rescuing, then reshaping

To insert a vertex its cavity is carved, constrained edges are rescued and the cavity is reshaped,
both with the checkpoint of the carving. A rescue may give back tetrahedra that were carved before
the checkpoint, and then the deleted list may end before it.

* `Site.reshape_after_rescue`: reshaping accepts the checkpoint exactly when no more was rescued
  than was carved since.
* `Site.reshape_refused_chain`: it may refuse it.
-/
namespace CavityRepair

namespace Site

section

variable [Orient3d] {s : Site} {vertex : Vertex} {color : UInt16} {checkpoint : Nat}
  {policy : Policy}

/-- A rescue that succeeds knows the position of its vertex, and its checkpoint was within the
list. -/
theorem checkRescue_of_rescue (hok : (s.rescue vertex color checkpoint policy).outcome = .ok ()) :
    (∃ p, s.mesh.point? vertex = some p) ∧ checkpoint ≤ s.cavity.deleted.length := by
  unfold rescue at hok
  cases hcheck : s.checkRescue vertex checkpoint with
  | error fault =>
    simp only [hcheck] at hok
    cases hok
  | ok p =>
    unfold checkRescue at hcheck
    obtain ⟨q, hposition, hcheck⟩ := bind_eq_ok_iff.1 hcheck
    obtain ⟨hle, -⟩ := require_bind_eq_ok_iff.1 hcheck
    unfold position at hposition
    split at hposition
    · rename_i q' hq
      exact ⟨⟨q', hq⟩, hle⟩
    · cases hposition

/-- A checkpoint beyond the end of the list is refused, and nothing is done. -/
theorem reshape_of_lt {p : Point} (hp : s.mesh.point? vertex = some p)
    (hlt : s.cavity.deleted.length < checkpoint) :
    s.reshape vertex checkpoint policy =
      ⟨s, [], 0, refuse (.invalidCheckpoint checkpoint s.cavity.deleted.length)⟩ := by
  have hcheck : s.checkReshape vertex checkpoint policy =
      refuse (.invalidCheckpoint checkpoint s.cavity.deleted.length) := by
    unfold checkReshape position Cavity.checkCheckpoint require
    rw [hp, if_neg (Nat.not_le_of_lt hlt)]
    rfl
  unfold reshape
  rw [hcheck]
  rfl

/-- After a rescue that succeeds, reshaping with the same checkpoint does so too exactly when no
more was rescued than was carved since the checkpoint, as when all of it was carved since. Otherwise
the checkpoint is refused, and nothing is done. -/
theorem reshape_after_rescue {edits : List MeshEdit} (hbuilt : s.mesh.Built edits) (hs : s.Checked)
    (hok : (s.rescue vertex color checkpoint policy).outcome = .ok ()) :
    (((s.rescue vertex color checkpoint policy).rescue.site.reshape vertex checkpoint
        policy).outcome = .ok () ↔
      checkpoint + (s.rescue vertex color checkpoint policy).rescue.restored.length ≤
        s.cavity.deleted.length) ∧
    (s.cavity.deleted.length <
        checkpoint + (s.rescue vertex color checkpoint policy).rescue.restored.length →
      (s.rescue vertex color checkpoint policy).rescue.site.reshape vertex checkpoint policy =
        ⟨(s.rescue vertex color checkpoint policy).rescue.site, [], 0,
          refuse (.invalidCheckpoint checkpoint (s.cavity.deleted.length -
            (s.rescue vertex color checkpoint policy).rescue.restored.length))⟩) ∧
    ((∀ tet ∈ (s.rescue vertex color checkpoint policy).rescue.restored,
        tet ∈ s.cavity.deleted.drop checkpoint) →
      ((s.rescue vertex color checkpoint policy).rescue.site.reshape vertex checkpoint
        policy).outcome = .ok ()) := by
  have hm := hbuilt.sound
  have h := hs.consistent hm.toLinked
  have hrescue := h.rescue_repaired hm vertex color checkpoint policy
  obtain ⟨⟨p, hp⟩, hle⟩ := checkRescue_of_rescue hok
  generalize (s.rescue vertex color checkpoint policy).rescue.site = s' at *
  generalize (s.rescue vertex color checkpoint policy).rescue.restored = restored at *
  have hp' : s'.mesh.point? vertex = some p := by rw [hrescue.point?_eq, hp]
  have hlength := hrescue.length_deleted
  have hrest : s'.cavity.deleted.length = s.cavity.deleted.length - restored.length := by omega
  have hfits : checkpoint + restored.length ≤ s.cavity.deleted.length →
      (s'.reshape vertex checkpoint policy).outcome = .ok () := by
    intro hfit
    rw [hrescue.consistent.reshape_eq (hrescue.sound hm).toLinked hp' (by omega)]
    exact (hrescue.consistent.shrink_spec (hrescue.sound hm) p policy).1
  have hrefused : s.cavity.deleted.length < checkpoint + restored.length →
      s'.reshape vertex checkpoint policy = ⟨s', [], 0,
        refuse (.invalidCheckpoint checkpoint (s.cavity.deleted.length - restored.length))⟩ := by
    intro hlt
    rw [reshape_of_lt hp' (by omega), hrest]
  refine ⟨⟨fun hout => Nat.le_of_not_lt fun hlt => ?_, hfits⟩, hrefused, fun hsince => hfits ?_⟩
  · rw [hrefused hlt] at hout
    cases hout
  · -- What was rescued is part of what was carved since the checkpoint.
    have hnodup : restored.Nodup := (hrescue.deleted.nodup_iff.1 h.nodup).of_append_left
    have hsub := (hnodup.subperm hsince).length_le
    rw [List.length_drop] at hsub
    omega

end

/-- With everything carved at once, two tetrahedra are rescued and the rest can be reshaped. -/
theorem reshape_after_rescue_chain : ∃ (s : Site) (edits : List MeshEdit),
    prepare? chainCorners chainTets
      [.constrainEdge 1 2, .constrainEdge 0 2, .addVertex ⟨0.25, 0.25, 0.25⟩]
      [[0, 1, 2, 4, 7, 10]] = some s ∧
    s.mesh.Built edits ∧ s.Checked ∧ (s.rescue 6 7 0 .strict).outcome = .ok () ∧
    (s.rescue 6 7 0 .strict).rescue.restored = [2, 1] ∧
    ((s.rescue 6 7 0 .strict).rescue.site.reshape 6 0 .strict).outcome = .ok () := by
  obtain ⟨s, hs, hdeleted, hok, hrestored⟩ : ∃ s,
      prepare? chainCorners chainTets
        [.constrainEdge 1 2, .constrainEdge 0 2, .addVertex ⟨0.25, 0.25, 0.25⟩]
        [[0, 1, 2, 4, 7, 10]] = some s ∧
      s.cavity.deleted = [0, 1, 2, 4, 7, 10] ∧ (s.rescue 6 7 0 .strict).outcome = .ok () ∧
      (s.rescue 6 7 0 .strict).rescue.restored = [2, 1] := exists_of_any? (by decide +kernel)
  obtain ⟨hchecked, more, hbuilt⟩ := prepare?_eq_some (by decide) hs
  obtain ⟨-, -, hsince⟩ := reshape_after_rescue hbuilt hchecked hok
  refine ⟨s, _, hs, hbuilt, hchecked, hok, hrestored, hsince ?_⟩
  rw [hrestored, hdeleted]
  decide

/-- With one tetrahedron carved after the others, both rescued ones are from before the checkpoint,
and the list ends before it. -/
theorem reshape_refused_chain : ∃ (s : Site) (edits : List MeshEdit),
    prepare? chainCorners chainTets
      [.constrainEdge 1 2, .constrainEdge 0 2, .addVertex ⟨0.25, 0.25, 0.25⟩]
      [[1, 2, 4, 7, 10], [0]] = some s ∧
    s.mesh.Built edits ∧ s.Checked ∧ s.mesh.point? 6 = some ⟨0.25, 0.25, 0.25⟩ ∧
    5 ≤ s.cavity.deleted.length ∧ (s.rescue 6 7 5 .strict).outcome = .ok () ∧
    ((s.rescue 6 7 5 .strict).rescue.site.reshape 6 5 .strict).outcome =
      refuse (.invalidCheckpoint 5 4) := by
  obtain ⟨s, hs, hrun⟩ : ∃ s,
      prepare? chainCorners chainTets
        [.constrainEdge 1 2, .constrainEdge 0 2, .addVertex ⟨0.25, 0.25, 0.25⟩]
        [[1, 2, 4, 7, 10], [0]] = some s ∧
      s.mesh.point? 6 = some ⟨0.25, 0.25, 0.25⟩ ∧ 5 ≤ s.cavity.deleted.length ∧
      (s.rescue 6 7 5 .strict).outcome = .ok () ∧
      ((s.rescue 6 7 5 .strict).rescue.site.reshape 6 5 .strict).outcome =
        refuse (.invalidCheckpoint 5 4) := exists_of_any? (by decide +kernel)
  obtain ⟨hchecked, more, hbuilt⟩ := prepare?_eq_some (by decide) hs
  exact ⟨s, _, hs, hbuilt, hchecked, hrun⟩

end Site

end CavityRepair
