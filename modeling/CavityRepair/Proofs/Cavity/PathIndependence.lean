import Mathlib.Logic.Relation
import CavityRepair.Proofs.Cavity.StarShaped
/-!
# The order of carving and restoring

A site is known from the mesh that it started with and the set of tetrahedra that are deleted in it.
Carving and restoring change nothing in the mesh but deleted marks (`Mesh.SameButDeleted`), and a
consistent ball has the faces that the mesh gives it. So of two ways to the same deleted set
(`Site.Move`, one step after the other) both lead to the same mesh, and to lists that differ in
their order only.

* `Site.SameUpToOrder.of_tets`: two good sites over one mesh with the same deleted set.
* `Site.moves_agree`: runs of carvings and restorations, carving in portions or in another order,
  and giving back what was carved.
-/
namespace CavityRepair

namespace TetFlags

theorem erase_insert (flags : TetFlags) (mark : TetMark) :
    (flags.insert mark).erase mark = flags.erase mark := by
  unfold insert erase
  congr 1
  ext i hi
  by_cases hbit : i = mark.bit <;> simp [hbit]

theorem erase_erase (flags : TetFlags) (mark : TetMark) :
    (flags.erase mark).erase mark = flags.erase mark := by
  unfold erase
  congr 1
  ext i hi
  by_cases hbit : i = mark.bit <;> simp [hbit]

/-- A word is known from one of its marks and the rest. -/
theorem eq_of_erase {flags flags' : TetFlags} {mark : TetMark}
    (hrest : flags.erase mark = flags'.erase mark) (hmark : flags.has mark = flags'.has mark) :
    flags = flags' := by
  obtain ⟨bits⟩ := flags
  obtain ⟨bits'⟩ := flags'
  congr 1
  ext i hi
  by_cases hbit : i = mark.bit
  · subst hbit
    exact hmark
  · have hrest := congrArg (fun flags : TetFlags => flags.bits.getLsbD i) hrest
    simpa [erase, hbit, eq_comm, hi] using hrest

end TetFlags

namespace Mesh

/-- Two meshes that differ in nothing but which tetrahedra are marked deleted. -/
structure SameButDeleted (m m' : Mesh) : Prop where
  vertices : m'.vertices = m.vertices
  nodes : m'.nodes = m.nodes
  twins : m'.twins = m.twins
  colors : m'.colors = m.colors
  flags : m'.flags.map (·.erase .deleted) = m.flags.map (·.erase .deleted)

variable {m m' m'' : Mesh}

namespace SameButDeleted

theorem refl (m : Mesh) : m.SameButDeleted m := ⟨rfl, rfl, rfl, rfl, rfl⟩

theorem trans (h : m.SameButDeleted m') (h' : m'.SameButDeleted m'') : m.SameButDeleted m'' :=
  ⟨h'.vertices.trans h.vertices, h'.nodes.trans h.nodes, h'.twins.trans h.twins,
    h'.colors.trans h.colors, h'.flags.trans h.flags⟩

/-- With the same tetrahedra deleted, nothing is left in which two such meshes could differ. -/
theorem eq_of_deleted (h : m.SameButDeleted m') (h' : m.SameButDeleted m'')
    (hdeleted : ∀ tet, m'.Deleted tet ↔ m''.Deleted tet) : m' = m'' := by
  have hrest : m'.flags.map (·.erase .deleted) = m''.flags.map (·.erase .deleted) :=
    h.flags.trans h'.flags.symm
  have hsize : m'.flags.size = m''.flags.size := by simpa using congrArg Array.size hrest
  have hflags : m'.flags = m''.flags := by
    refine Array.ext hsize fun i hi hi' => ?_
    have herase : m'.flags[i].erase .deleted = m''.flags[i].erase .deleted := by
      simpa [hi, hi'] using congrArg (·[i]?) hrest
    refine TetFlags.eq_of_erase herase (Bool.eq_iff_iff.2 ?_)
    simpa [Deleted, deleted?, marked?, hi, hi'] using hdeleted i
  have hvertices := h.vertices.trans h'.vertices.symm
  have hnodes := h.nodes.trans h'.nodes.symm
  have htwins := h.twins.trans h'.twins.symm
  have hcolors := h.colors.trans h'.colors.symm
  cases m'
  cases m''
  rw [Mesh.mk.injEq]
  exact ⟨hvertices, hnodes, htwins, hflags, hcolors⟩

end SameButDeleted

theorem sameButDeleted_mark (m : Mesh) (tet : Nat) : m.SameButDeleted (m.mark tet .deleted) := by
  refine ⟨rfl, rfl, rfl, rfl, Array.ext_getElem? fun i => ?_⟩
  by_cases hi : tet = i <;> cases hf : m.flags[i]? <;>
    simp [mark, Array.getElem?_modify, hi, hf, TetFlags.erase_insert]

theorem sameButDeleted_unmark (m : Mesh) (tet : Nat) :
    m.SameButDeleted (m.unmark tet .deleted) := by
  refine ⟨rfl, rfl, rfl, rfl, Array.ext_getElem? fun i => ?_⟩
  by_cases hi : tet = i <;> cases hf : m.flags[i]? <;>
    simp [unmark, Array.getElem?_modify, hi, hf, TetFlags.erase_erase]

theorem sameButDeleted_foldl_mark (m : Mesh) (tets : List Nat) :
    m.SameButDeleted (tets.foldl (fun m tet => m.mark tet .deleted) m) := by
  induction tets generalizing m with
  | nil => exact .refl m
  | cons tet rest ih => exact (sameButDeleted_mark m tet).trans (ih _)

end Mesh

namespace Site

variable {s s' a b : Site} {tets : List Nat} {checkpoint : Nat}

/-! ## Sites up to the order of their lists -/

/-- Two sites with the same mesh, whose lists differ in their order only. -/
structure SameUpToOrder (a b : Site) : Prop where
  mesh : a.mesh = b.mesh
  deleted : a.cavity.deleted.Perm b.cavity.deleted
  ball : a.cavity.ball.Perm b.cavity.ball

/-- A consistent ball has the faces that the mesh gives its half-faces. -/
theorem Consistent.mem_ball_iff (h : s.Consistent) {face : BallFace} :
    face ∈ s.cavity.ball ↔
      face.outer ∈ s.cavity.outers ∧ s.mesh.ballFace? face.outer = some face := by
  constructor
  · intro hface
    exact ⟨mem_outers_of_mem_ball hface, h.fresh face hface⟩
  · intro ⟨houter, hface⟩
    obtain ⟨other, hother, hsame⟩ := List.mem_map.1 houter
    have hfresh := h.fresh other hother
    rw [hsame, hface] at hfresh
    cases hfresh
    exact hother

/-- The faces of a consistent ball are known from what is deleted in which mesh. -/
theorem Consistent.ball_perm (ha : a.Consistent) (hb : b.Consistent) (hmesh : a.mesh = b.mesh) :
    a.cavity.ball.Perm b.cavity.ball := by
  have hnodup : ∀ {s : Site}, s.Consistent → s.cavity.ball.Nodup := fun h =>
    List.Nodup.of_map _ h.outers_nodup
  apply (List.perm_ext_iff_of_nodup (hnodup ha) (hnodup hb)).2
  intro face
  rw [ha.mem_ball_iff, hb.mem_ball_iff, ha.mem_outers, hb.mem_outers, hmesh]

/-- Over one mesh, a good site is known from its deleted tetrahedra. -/
theorem SameUpToOrder.of_tets {m : Mesh} (ha : a.Good) (hb : b.Good)
    (hma : m.SameButDeleted a.mesh) (hmb : m.SameButDeleted b.mesh)
    (htets : a.cavity.tets = b.cavity.tets) : a.SameUpToOrder b := by
  have hmem : ∀ tet, tet ∈ a.cavity.deleted ↔ tet ∈ b.cavity.deleted := fun tet =>
    Set.ext_iff.1 htets tet
  have hmesh : a.mesh = b.mesh := by
    apply hma.eq_of_deleted hmb
    intro tet
    rw [ha.consistent.deleted_iff, hb.consistent.deleted_iff, hmem]
  exact ⟨hmesh, (List.perm_ext_iff_of_nodup ha.consistent.nodup hb.consistent.nodup).2 hmem,
    ha.consistent.ball_perm hb.consistent hmesh⟩

/-! ## Moves -/

/-- A carving or a restoration that succeeds. -/
inductive Move (s : Site) : Site → Prop where
  | carve {tets : List Nat} {checkpoint : Nat} {s' : Site}
      (done : s.carve tets = .ok (s', checkpoint)) : s.Move s'
  | restore {tet : Nat} {policy : Policy} {s' : Site} (done : s.restore tet policy = .ok s') :
      s.Move s'

/-- Moves one after the other. -/
def Moves (s s' : Site) : Prop := Relation.ReflTransGen Move s s'

/-- Gives tetrahedra back one after the other, each under a policy of its own. -/
def restoreAll (s : Site) : List (Nat × Policy) → Attempt CavityError Site
  | [] => .ok s
  | (tet, policy) :: rest => do (← s.restore tet policy).restoreAll rest

theorem Move.good (h : s.Good) (hmove : s.Move s') :
    s'.Good ∧ s.mesh.SameButDeleted s'.mesh := by
  have hm := h.sound.toLinked
  cases hmove with
  | carve done =>
    obtain ⟨-, g⟩ := h.consistent.carve_eq_ok hm done
    refine ⟨⟨h.consistent.of_carved h.sound.carvable g, g.sameForm.sound h.sound⟩, ?_⟩
    rw [g.mesh]
    exact Mesh.sameButDeleted_foldl_mark s.mesh _
  | restore done =>
    obtain ⟨hdeleted, g⟩ := h.consistent.restore_eq_ok hm done
    refine ⟨⟨h.consistent.of_givenBack h.sound.carvable hdeleted g, g.sameForm.sound h.sound⟩, ?_⟩
    rw [g.mesh]
    exact Mesh.sameButDeleted_unmark s.mesh _

/-- Moves keep a site good, and change nothing in its mesh but deleted marks. -/
theorem Moves.good (h : s.Good) (hmoves : s.Moves s') :
    s'.Good ∧ s.mesh.SameButDeleted s'.mesh := by
  induction hmoves with
  | refl => exact ⟨h, .refl s.mesh⟩
  | tail _ hlast ih =>
    obtain ⟨hgood, hsame⟩ := ih
    obtain ⟨hgood', hsame'⟩ := hlast.good hgood
    exact ⟨hgood', hsame.trans hsame'⟩

/-- Moves that lead to the same deleted set lead to the same site, up to the order of its lists. -/
theorem Moves.sameUpToOrder (h : s.Good) (ha : s.Moves a) (hb : s.Moves b)
    (htets : a.cavity.tets = b.cavity.tets) : a.SameUpToOrder b := by
  obtain ⟨hgood, hsame⟩ := ha.good h
  obtain ⟨hgood', hsame'⟩ := hb.good h
  exact .of_tets hgood hgood' hsame hsame' htets

theorem moves_of_carve (hc : s.carve tets = .ok (s', checkpoint)) : s.Moves s' :=
  .single (.carve hc)

theorem deleted_of_carve (h : s.Good) (hc : s.carve tets = .ok (s', checkpoint)) :
    s'.cavity.deleted = s.cavity.deleted ++ tets :=
  (h.consistent.carve_eq_ok h.sound.toLinked hc).2.deleted

/-- Tetrahedra can be carved when they exist, survive and are named once. -/
theorem exists_carve_iff (h : s.Good) :
    (∃ s' checkpoint, s.carve tets = .ok (s', checkpoint)) ↔
      (∀ tet ∈ tets, tet < s.mesh.size ∧ ¬s.mesh.Deleted tet) ∧ tets.Nodup := by
  have hm := h.sound.toLinked
  constructor
  · intro ⟨s', checkpoint, hc⟩
    obtain ⟨-, g⟩ := h.consistent.carve_eq_ok hm hc
    exact ⟨fun tet ht => ⟨g.lt_size tet ht, g.survived tet ht⟩, g.nodup⟩
  · intro ⟨hall, hnodup⟩
    have hcheck : s.mesh.checkCarve [] tets = .ok () := by
      apply (Mesh.checkCarve_eq_ok_iff hm.toInRange).2
      exact ⟨fun tet ht => ⟨hall tet ht, List.not_mem_nil⟩, hnodup⟩
    obtain ⟨s', hc, -⟩ := h.consistent.exists_carve hm hcheck
    exact ⟨s', _, hc⟩

/-- A carving can be made in two portions when it can be made at once. -/
theorem exists_carve_append_iff (h : s.Good) {front back : List Nat} :
    (∃ s' checkpoint, s.carve (front ++ back) = .ok (s', checkpoint)) ↔
      ∃ between first after second, s.carve front = .ok (between, first) ∧
        between.carve back = .ok (after, second) := by
  -- The portion that comes second has to survive the first.
  have hstep : ∀ {between : Site} {first : Nat}, s.carve front = .ok (between, first) →
      between.Good ∧ between.mesh.size = s.mesh.size ∧
        ∀ tet, between.mesh.Deleted tet ↔ s.mesh.Deleted tet ∨ tet ∈ front := by
    intro between first hfront
    obtain ⟨-, g⟩ := h.consistent.carve_eq_ok h.sound.toLinked hfront
    exact ⟨(Move.carve hfront).good h |>.1, g.sameForm.size_eq, g.deleted_iff⟩
  rw [exists_carve_iff h]
  constructor
  · intro ⟨hall, hnodup⟩
    rw [List.forall_mem_append] at hall
    rw [List.nodup_append'] at hnodup
    obtain ⟨between, first, hfront⟩ := (exists_carve_iff h).2 ⟨hall.1, hnodup.1⟩
    obtain ⟨hgood, hsize, hdeleted⟩ := hstep hfront
    have hback : (∀ tet ∈ back, tet < between.mesh.size ∧ ¬between.mesh.Deleted tet) ∧
        back.Nodup := by
      refine ⟨fun tet ht => ⟨hsize ▸ (hall.2 tet ht).1, fun hd => ?_⟩, hnodup.2.1⟩
      rcases (hdeleted tet).1 hd with hd | hfront
      · exact (hall.2 tet ht).2 hd
      · exact hnodup.2.2 hfront ht
    obtain ⟨after, second, hback⟩ := (exists_carve_iff hgood).2 hback
    exact ⟨between, first, after, second, hfront, hback⟩
  · intro ⟨between, first, after, second, hfront, hback⟩
    obtain ⟨hgood, hsize, hdeleted⟩ := hstep hfront
    obtain ⟨hall, hnodup⟩ := (exists_carve_iff h).1 ⟨between, first, hfront⟩
    obtain ⟨hall', hnodup'⟩ := (exists_carve_iff hgood).1 ⟨after, second, hback⟩
    rw [List.forall_mem_append, List.nodup_append']
    refine ⟨⟨hall, fun tet ht => ?_⟩, hnodup, hnodup', fun tet hfront hback => ?_⟩
    · obtain ⟨hlt, hsurvives⟩ := hall' tet ht
      exact ⟨hsize ▸ hlt, fun hd => hsurvives ((hdeleted tet).2 (.inl hd))⟩
    · exact (hall' tet hback).2 ((hdeleted tet).2 (.inr hfront))

/-- Deleted tetrahedra can be given back in any order, under any policies. -/
theorem exists_restoreAll (h : s.Good) {back : List (Nat × Policy)}
    (hnodup : (back.map (·.1)).Nodup) (hdeleted : ∀ tet ∈ back.map (·.1), s.mesh.Deleted tet) :
    ∃ s', s.restoreAll back = .ok s' ∧ s.Moves s' ∧
      s.cavity.deleted.Perm (back.map (·.1) ++ s'.cavity.deleted) := by
  induction back generalizing s with
  | nil => exact ⟨s, rfl, .refl, .refl _⟩
  | cons entry rest ih =>
    obtain ⟨tet, policy⟩ := entry
    rw [List.map_cons, List.nodup_cons] at hnodup
    rw [List.map_cons, List.forall_mem_cons] at hdeleted
    obtain ⟨next, hnext, g⟩ := h.consistent.exists_restore h.sound.toLinked hdeleted.1 policy
    have hmove : s.Move next := .restore hnext
    have hrest : ∀ u ∈ rest.map (·.1), next.mesh.Deleted u := by
      intro u hu
      apply (g.deleted_iff u).2
      exact ⟨hdeleted.2 u hu, fun heq => hnodup.1 (heq ▸ hu)⟩
    obtain ⟨s', hall, hmoves, hperm⟩ := ih (hmove.good h).1 hnodup.2 hrest
    refine ⟨s', ?_, .head hmove hmoves, g.deleted.trans (hperm.cons tet)⟩
    rw [restoreAll, hnext]
    exact hall

/-- What was carved can be given back in any order, and then all is as before. -/
theorem exists_restoreAll_of_carve (h : s.Good) (hc : s.carve tets = .ok (s', checkpoint))
    {back : List (Nat × Policy)} (hback : (back.map (·.1)).Perm tets) :
    ∃ after, s'.restoreAll back = .ok after ∧ after.SameUpToOrder s := by
  obtain ⟨-, g⟩ := h.consistent.carve_eq_ok h.sound.toLinked hc
  have hcarve : s.Moves s' := moves_of_carve hc
  have hdeleted : ∀ tet ∈ back.map (·.1), s'.mesh.Deleted tet := fun tet ht =>
    (g.deleted_iff tet).2 (.inr (hback.mem_iff.1 ht))
  obtain ⟨after, hall, hmoves, hperm⟩ :=
    exists_restoreAll (hcarve.good h).1 (hback.nodup_iff.2 g.nodup) hdeleted
  have hleft : s.cavity.deleted.Perm after.cavity.deleted := by
    rw [g.deleted] at hperm
    have hsame := hperm.trans (hback.append_right _)
    exact (List.perm_append_left_iff tets).1 (List.perm_append_comm.trans hsame)
  refine ⟨after, hall, ?_⟩
  apply Moves.sameUpToOrder h (hcarve.trans hmoves) .refl
  exact Set.ext fun tet => hleft.mem_iff.symm

/-- What carvings and restorations lead to depends on nothing but the deleted set at the end. So a
carving may be made in two portions or name its tetrahedra in another order, with the same outcome,
and giving back what was carved, in any order, leads back. -/
theorem moves_agree [Orient3d] {edits : List MeshEdit} (hbuilt : s.mesh.Built edits)
    (hs : s.Checked) :
    (∀ a b, s.Moves a → s.Moves b → a.cavity.tets = b.cavity.tets → a.SameUpToOrder b) ∧
    (∀ front back,
      ((∃ s' checkpoint, s.carve (front ++ back) = .ok (s', checkpoint)) ↔
        ∃ between first after second, s.carve front = .ok (between, first) ∧
          between.carve back = .ok (after, second)) ∧
      ∀ s' checkpoint between first after second,
        s.carve (front ++ back) = .ok (s', checkpoint) → s.carve front = .ok (between, first) →
        between.carve back = .ok (after, second) →
        s'.SameUpToOrder after ∧ s'.cavity.deleted = after.cavity.deleted) ∧
    (∀ tets tets', tets.Perm tets' →
      ((∃ s' checkpoint, s.carve tets = .ok (s', checkpoint)) ↔
        ∃ s' checkpoint, s.carve tets' = .ok (s', checkpoint)) ∧
      ∀ a b first second, s.carve tets = .ok (a, first) → s.carve tets' = .ok (b, second) →
        a.SameUpToOrder b) ∧
    ∀ tets s' checkpoint, s.carve tets = .ok (s', checkpoint) →
      ∀ back : List (Nat × Policy), (back.map (·.1)).Perm tets →
        ∃ after, s'.restoreAll back = .ok after ∧ after.SameUpToOrder s := by
  have hm := hbuilt.sound
  have h : s.Good := ⟨hs.consistent hm.toLinked, hm⟩
  refine ⟨fun a b => Moves.sameUpToOrder h, fun front back => ⟨exists_carve_append_iff h, ?_⟩,
    fun tets tets' hperm => ⟨?_, ?_⟩, fun tets s' checkpoint hc back => ?_⟩
  · intro s' checkpoint between first after second hall hfront hback
    have hgood := ((moves_of_carve hfront).good h).1
    have hlist : s'.cavity.deleted = after.cavity.deleted := by
      rw [deleted_of_carve h hall, deleted_of_carve hgood hback, deleted_of_carve h hfront,
        List.append_assoc]
    refine ⟨Moves.sameUpToOrder h (moves_of_carve hall)
      ((moves_of_carve hfront).trans (moves_of_carve hback)) ?_, hlist⟩
    unfold Cavity.tets
    rw [hlist]
  · rw [exists_carve_iff h, exists_carve_iff h, hperm.nodup_iff]
    simp only [hperm.mem_iff]
  · intro a b first second ha hb
    apply Moves.sameUpToOrder h (moves_of_carve ha) (moves_of_carve hb)
    unfold Cavity.tets
    rw [deleted_of_carve h ha, deleted_of_carve h hb]
    exact Set.ext fun tet => (hperm.append_left _).mem_iff
  · exact exists_restoreAll_of_carve h hc

/-- Beside the constrained facet of the chain, two runs carve different tetrahedra on the way and
give them back. In the end the same two are deleted, and the balls have the same faces in different
order. -/
theorem moves_agree_chain : ∃ (s a b : Site) (edits : List MeshEdit),
    prepare? chainCorners chainTets [.constrainFacet 1 2 3] [[0]] = some s ∧
    s.mesh.Built edits ∧ s.Checked ∧ s.Moves a ∧ s.Moves b ∧ a.cavity.tets = b.cavity.tets ∧
    a.cavity.ball ≠ b.cavity.ball ∧ a.SameUpToOrder b := by
  obtain ⟨⟨s, a, b⟩, hruns, hlists, hballs⟩ : ∃ runs : Site × Site × Site,
      (do
        let s ← prepare? chainCorners chainTets [.constrainFacet 1 2 3] [[0]]
        let (wide, _) ← (s.carve [1, 7]).toOption
        let a ← (wide.restore 7 .fast).toOption
        let (other, _) ← (s.carve [3, 1]).toOption
        let b ← (other.restore 3 .strict).toOption
        return (s, a, b)) = some runs ∧
      runs.2.1.cavity.deleted = runs.2.2.cavity.deleted ∧
      runs.2.1.cavity.ball ≠ runs.2.2.cavity.ball := exists_of_any? (by decide +kernel)
  simp only [Option.bind_eq_bind, Option.bind_eq_some_iff, Option.pure_def, Option.some_inj,
    Prod.mk.injEq, toOption_eq_some_iff] at hruns
  obtain ⟨_, hs, ⟨wide, _⟩, hwide, _, ha, ⟨other, _⟩, hother, _, hb, rfl, rfl, rfl⟩ := hruns
  obtain ⟨hchecked, more, hbuilt⟩ := prepare?_eq_some (by decide) hs
  have hmoves := (moves_of_carve hwide).tail (.restore ha)
  have hmoves' := (moves_of_carve hother).tail (.restore hb)
  have htets := congrArg (fun deleted : List Nat => {tet | tet ∈ deleted}) hlists
  obtain ⟨hagree, -⟩ := moves_agree hbuilt hchecked
  exact ⟨_, _, _, _, hs, hbuilt, hchecked, hmoves, hmoves', htets, hballs,
    hagree _ _ hmoves hmoves' htets⟩

end Site

end CavityRepair
