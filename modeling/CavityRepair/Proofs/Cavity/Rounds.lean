import CavityRepair.Proofs.Cavity.Holder
import CavityRepair.Proofs.Cavity.Removal
/-!
# Rounds of reshaping

In a site that is merely in range, giving a tetrahedron back may go wrong in any round, and the ball
may grow by four faces in each. What every successful round does is to take one entry out of the
deleted list, so there are no more rounds than entries, whatever the ball looks like.

* `Site.Rounds.deleted_perm`: the entries that rounds take.
* `Site.rounds_shrink`: a reshaping is rounds up to one that finds no blind face or fails.
* `Site.reshape_rounds`: how many there are and what they leave behind.
-/
namespace CavityRepair

theorem swapErase?_perm {α : Type} [DecidableEq α] {items rest : List α} {a : α}
    (h : swapErase? items a = some rest) : items.Perm (a :: rest) := by
  obtain ⟨place, hget, -, hrest, -⟩ := swapErase?_eq_some h
  obtain ⟨hlt, rfl⟩ := List.getElem?_eq_some_iff.1 hget
  exact (List.getElem_cons_eraseIdx_perm hlt).symm.trans (hrest.symm.cons _)

/-- A face that is not blind has a corner whose position is not known, or the point lies on its
inner side, or in its plane if that is no matter. -/
theorem BallFace.isBlind_eq_false_iff [Orient3d] {face : BallFace} {m : Mesh} {p : Point}
    {policy : Policy} :
    face.isBlind m p policy = false ↔ face.isGhost = false →
      ∀ t, m.trianglePoints? face.corners = some t → orientation p t.c0 t.c1 t.c2 ≠ .positive ∧
        (policy.flatIsBlind = true → orientation p t.c0 t.c1 t.c2 ≠ .degenerate) := by
  unfold isBlind
  cases face.isGhost with
  | true => simp
  | false =>
    cases m.trianglePoints? face.corners with
    | none => simp
    | some t => cases horient : orientation p t.c0 t.c1 t.c2 <;> simp [horient]

namespace Site

variable {s s' : Site} {p : Point} {policy : Policy} {tet : Nat} {restored : List Nat}

/-- One entry leaves the deleted list with a tetrahedron that is given back. -/
theorem deleted_perm_of_restore (h : s.restore tet policy = .ok s') :
    s.cavity.deleted.Perm (tet :: s'.cavity.deleted) := by
  obtain ⟨-, -, -, -, -, -, -, herase⟩ := lists_of_restore h
  exact swapErase?_perm herase

section

variable [Orient3d]

theorem deleted_perm_of_repair? (h : s.repair? p policy = some (.ok (tet, s'))) :
    s.cavity.deleted.Perm (tet :: s'.cavity.deleted) := by
  obtain ⟨place, -, h⟩ := Option.map_eq_some_iff.1 h
  obtain ⟨tet', -, h⟩ := bind_eq_ok_iff.1 h
  obtain ⟨site, hsite, h⟩ := bind_eq_ok_iff.1 h
  cases h
  exact deleted_perm_of_restore hsite

/-- Some successful rounds one after the other, the tetrahedra given back in them, and the site
afterwards. -/
inductive Rounds (p : Point) (policy : Policy) : Site → List Nat → Site → Prop where
  | stop (s : Site) : Rounds p policy s [] s
  | round {s next s' : Site} {tet : Nat} {restored : List Nat}
      (hrepair : s.repair? p policy = some (.ok (tet, next)))
      (hlater : Rounds p policy next restored s') : Rounds p policy s (tet :: restored) s'

namespace Rounds

/-- Rounds take what they give back from the deleted list and nothing else. -/
theorem deleted_perm (h : Rounds p policy s restored s') :
    s.cavity.deleted.Perm (restored ++ s'.cavity.deleted) := by
  induction h with
  | stop s => exact .refl _
  | round hrepair _ ih => exact (deleted_perm_of_repair? hrepair).trans (ih.cons _)

theorem length_deleted (h : Rounds p policy s restored s') :
    s'.cavity.deleted.length + restored.length = s.cavity.deleted.length := by
  rw [h.deleted_perm.length_eq, List.length_append, Nat.add_comm]

theorem length_le (h : Rounds p policy s restored s') :
    restored.length ≤ s.cavity.deleted.length := by
  have := h.length_deleted
  omega

end Rounds

/-- Shrinking does rounds until one finds no blind face or cannot give the tetrahedron behind it
back. Every round looks the ball over once, the last one included. -/
theorem rounds_shrink (s : Site) (p : Point) (policy : Policy) :
    Rounds p policy s (s.shrink p policy).restored (s.shrink p policy).site ∧
    (s.shrink p policy).scans = (s.shrink p policy).restored.length + 1 ∧
    ((s.shrink p policy).outcome = .ok () ∧ (s.shrink p policy).site.blindFace? p policy = none ∨
      ∃ fault, (s.shrink p policy).outcome = .error fault ∧
        (s.shrink p policy).site.repair? p policy = some (.error fault)) := by
  fun_induction Site.shrink s p policy with
  | case1 s hr => exact ⟨.stop s, rfl, .inl ⟨rfl, Option.map_eq_none_iff.1 hr⟩⟩
  | case2 s fault hr => exact ⟨.stop s, rfl, .inr ⟨fault, rfl, hr⟩⟩
  | case3 s tet next hr later ih =>
    obtain ⟨hrounds, hscans, hend⟩ := ih
    exact ⟨.round hr hrounds, congrArg (· + 1) hscans, hend⟩

/-- With a position for the vertex, a reshaping that is not refused beforehand shrinks. -/
theorem reshape_cases {vertex : Vertex} (hp : s.mesh.point? vertex = some p) (checkpoint : Nat)
    (policy : Policy) :
    s.reshape vertex checkpoint policy = s.shrink p policy ∨
      ∃ fault, s.reshape vertex checkpoint policy = ⟨s, [], 0, .error fault⟩ := by
  unfold reshape
  split
  · exact .inr ⟨_, rfl⟩
  · rename_i q hq
    obtain rfl := Option.some_inj.1 (hp.symm.trans (point?_of_checkReshape hq))
    exact .inl rfl

/-- Reshaping for a vertex that has a position ends at any site in range, consistent or not. Every
round but the last takes one entry out of the deleted list, which leaves no more rounds than there
are entries and one for the last; no index is followed out of range. When it succeeds, no face with
three known corners is blind any more. -/
theorem reshape_rounds (h : s.InRange) {vertex : Vertex} (hp : s.mesh.point? vertex = some p)
    (checkpoint : Nat) (policy : Policy) :
    (∀ restored s', Rounds p policy s restored s' →
      s'.cavity.deleted.length + restored.length = s.cavity.deleted.length) ∧
    Rounds p policy s (s.reshape vertex checkpoint policy).restored
      (s.reshape vertex checkpoint policy).site ∧
    (s.reshape vertex checkpoint policy).scans ≤ s.cavity.deleted.length + 1 ∧
    (s.reshape vertex checkpoint policy).outcome ≠ .error .outOfRange ∧
    ((s.reshape vertex checkpoint policy).outcome = .ok () →
      (s.reshape vertex checkpoint policy).site.cavity.deleted.length +
        (s.reshape vertex checkpoint policy).restored.length = s.cavity.deleted.length ∧
      (s.reshape vertex checkpoint policy).scans =
        (s.reshape vertex checkpoint policy).restored.length + 1 ∧
      ∀ face ∈ (s.reshape vertex checkpoint policy).site.cavity.ball, face.isGhost = false →
        ∀ t, (s.reshape vertex checkpoint policy).site.mesh.trianglePoints? face.corners = some t →
          orientation p t.c0 t.c1 t.c2 ≠ .positive ∧
          (policy.flatIsBlind = true → orientation p t.c0 t.c1 t.c2 ≠ .degenerate)) ∧
    ∀ fault, (s.reshape vertex checkpoint policy).outcome = .error fault →
      s.cavity.deleted.Perm ((s.reshape vertex checkpoint policy).restored ++
        (s.reshape vertex checkpoint policy).site.cavity.deleted) := by
  have hin := (h.reshape vertex checkpoint policy).1
  refine ⟨fun restored s' hrounds => hrounds.length_deleted, ?_⟩
  obtain heq | ⟨fault, heq⟩ := reshape_cases hp checkpoint policy <;> rw [heq] at hin ⊢
  · obtain ⟨hrounds, hscans, hend⟩ := s.rounds_shrink p policy
    have hlength := hrounds.length_le
    refine ⟨hrounds, by omega, hin, fun hok => ⟨hrounds.length_deleted, hscans, ?_⟩,
      fun _ _ => hrounds.deleted_perm⟩
    obtain ⟨-, hnone⟩ | ⟨fault, herror, -⟩ := hend
    · intro face hface
      exact BallFace.isBlind_eq_false_iff.1 (blindFace?_eq_none_iff.1 hnone face hface)
    · rw [hok] at herror
      cases herror
  · exact ⟨.stop s, Nat.zero_le _, hin, nofun, fun _ _ => .refl _⟩

end

/-- A site with a tetrahedron listed once more and all faces kept several times. -/
def overfull (s : Site) (tet copies : Nat) : Site :=
  ⟨s.mesh, ⟨tet :: s.cavity.deleted, (List.replicate copies s.cavity.ball).flatten⟩⟩

theorem Consistent.overfull_inRange (h : s.Consistent) (hm : s.mesh.Linked)
    (ht : s.mesh.Deleted tet) (copies : Nat) : (s.overfull tet copies).InRange where
  mesh := hm.toInRange
  listed_lt := by
    refine List.forall_mem_cons.2 ⟨hm.lt_size_of_deleted ht, fun u hu => ?_⟩
    exact hm.lt_size_of_deleted ((h.deleted_iff u).2 hu)
  outer_lt := by
    intro outer houter
    obtain ⟨face, hface, rfl⟩ := List.mem_map.1 houter
    obtain ⟨ball, hball, hface⟩ := List.mem_flatten.1 hface
    rw [List.eq_of_mem_replicate hball] at hface
    exact h.lt_size_of_mem_ball hm hface

/-- With a tetrahedron of the chain listed twice, reshaping takes one of the two entries. With every
face kept three times it does so as well, and then fails, since the faces that are left stand before
a tetrahedron that is not deleted. -/
theorem reshape_rounds_chain : ∃ s : Site,
    (s.overfull 2 1).InRange ∧ (s.overfull 2 3).InRange ∧ s.mesh.point? 6 = some ⟨2, 2, 0⟩ ∧
    ((s.overfull 2 1).reshape 6 2 ⟨false, true⟩).outcome = .ok () ∧
    ((s.overfull 2 1).reshape 6 2 ⟨false, true⟩).restored = [2] ∧
    ((s.overfull 2 1).reshape 6 2 ⟨false, true⟩).scans = 2 ∧
    ((s.overfull 2 3).reshape 6 2 ⟨false, true⟩).outcome = refuse (.notDeleted 2) ∧
    (s.overfull 2 3).cavity.deleted.Perm
      (2 :: ((s.overfull 2 3).reshape 6 2 ⟨false, true⟩).site.cavity.deleted) := by
  obtain ⟨s, hs, hp, hdeleted, hok, hrestored, herror, hrestored'⟩ : ∃ s,
      prepare? chainCorners chainTets [.addVertex ⟨2, 2, 0⟩] [[1, 7], [0, 2, 4]] = some s ∧
      s.mesh.point? 6 = some ⟨2, 2, 0⟩ ∧ s.mesh.deleted? 2 = some true ∧
      ((s.overfull 2 1).reshape 6 2 ⟨false, true⟩).outcome = .ok () ∧
      ((s.overfull 2 1).reshape 6 2 ⟨false, true⟩).restored = [2] ∧
      ((s.overfull 2 3).reshape 6 2 ⟨false, true⟩).outcome = refuse (.notDeleted 2) ∧
      ((s.overfull 2 3).reshape 6 2 ⟨false, true⟩).restored = [2] :=
    exists_of_any? (by decide +kernel)
  obtain ⟨hchecked, more, hbuilt⟩ := prepare?_eq_some (by decide) hs
  have hm := hbuilt.sound.toLinked
  have hrange := (hchecked.consistent hm).overfull_inRange hm hdeleted
  obtain ⟨-, -, -, -, hends, -⟩ := reshape_rounds (hrange 1) hp 2 ⟨false, true⟩
  obtain ⟨-, -, -, -, -, hperm⟩ := reshape_rounds (hrange 3) hp 2 ⟨false, true⟩
  have hscans := (hends hok).2.1
  rw [hrestored] at hscans
  have hleft := hperm _ herror
  rw [hrestored'] at hleft
  exact ⟨s, hrange 1, hrange 3, hp, hok, hrestored, hscans, herror, hleft⟩

end Site

end CavityRepair
