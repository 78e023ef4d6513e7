import CavityRepair.Proofs.Mesh.Edits
import CavityRepair.Proofs.Cavity.Carving
import CavityRepair.Proofs.Cavity.Repairing
/-!
# Runs

A run is a list of calls on a site. A call may be refused or given up on the way; the next one
starts from what it leaves behind (`Site.after`).

* `Site.consistent_afterAll`: from a mesh that was just built, every run that sets its constraints
  before it carves keeps the cavity consistent, and the check accepts it at every checkpoint.
* `Site.Good.repaired_afterAll`: a run of calls that give tetrahedra back is a repair.
-/
namespace CavityRepair

/-- A call on a site. -/
inductive Call where
  | addVertex (p : Point)
  | setColor (tet : Nat) (color : UInt16)
  | constrainEdge (a b : Vertex)
  | constrainFacet (a b c : Vertex)
  | carve (tets : List Nat)
  | restore (tet : Nat) (policy : Policy)
  | reshape (vertex : Vertex) (checkpoint : Nat) (policy : Policy)
  | rescue (vertex : Vertex) (color : UInt16) (checkpoint : Nat) (policy : Policy)
  deriving DecidableEq, Repr

namespace Call

/-- Whether a call sets constraints. -/
def constrains : Call → Bool
  | constrainEdge .. | constrainFacet .. => true
  | _ => false

/-- Whether a call carves. -/
def carves : Call → Bool
  | carve _ => true
  | _ => false

/-- Whether a call gives tetrahedra back. -/
def givesBack : Call → Bool
  | restore .. | reshape .. | rescue .. => true
  | _ => false

end Call

namespace Site

/-- The site after an edit of its mesh. -/
def edit (s : Site) (edit : MeshEdit) : Site :=
  match s.mesh.edit edit with
  | .ok mesh => ⟨mesh, s.cavity⟩
  | .error _ => s

/-- What a call leaves behind, whether it succeeds or not. -/
def after [Orient3d] (s : Site) : Call → Site
  | .addVertex p => s.edit (.addVertex p)
  | .setColor tet color => s.edit (.setColor tet color)
  | .constrainEdge a b => s.edit (.constrainEdge a b)
  | .constrainFacet a b c => s.edit (.constrainFacet a b c)
  | .carve tets =>
    match s.carve tets with
    | .ok (site, _) => site
    | .error _ => s
  | .restore tet policy =>
    match s.restore tet policy with
    | .ok site => site
    | .error _ => s
  | .reshape vertex checkpoint policy => (s.reshape vertex checkpoint policy).site
  | .rescue vertex color checkpoint policy =>
    (s.rescue vertex color checkpoint policy).rescue.site

/-- What a run leaves behind. -/
def afterAll [Orient3d] (s : Site) (calls : List Call) : Site := calls.foldl after s

variable {s s' : Site}

/-! ## What a call keeps -/

/-- A consistent cavity in a sound mesh. -/
structure Good (s : Site) : Prop where
  consistent : s.Consistent
  sound : s.mesh.Sound

/-- A site whose mesh may still be constrained: nothing was carved. -/
structure Untouched (s : Site) : Prop where
  sound : s.mesh.Sound
  survived : ∀ tet, ¬s.mesh.Deleted tet
  empty : s.cavity = .empty

theorem Repaired.good {restored : List Nat} (h : s.Repaired s' restored) (hs : s.Good) : s'.Good :=
  ⟨h.consistent, h.sound hs.sound⟩

/-- Where nothing was carved all is well. -/
theorem Untouched.good (h : s.Untouched) : s.Good := by
  obtain ⟨mesh, cavity⟩ := s
  obtain ⟨hsound, hsurvived, rfl⟩ := h
  exact ⟨.of_survived hsurvived, hsound⟩

theorem Good.edit (h : s.Good) {edit : MeshEdit} (hconstrains : edit.constrains = false)
    (hdeletes : edit.deletes = false) : (s.edit edit).Good := by
  unfold Site.edit
  split
  · rename_i mesh hedit
    have hform := Mesh.sameForm_of_edit hconstrains hedit
    have hdeleted := Mesh.deleted_iff_of_edit h.sound.toLinked hdeletes hedit
    exact ⟨h.consistent.of_sameForm hform hdeleted, hform.sound h.sound⟩
  · exact h

theorem Untouched.of_edit (h : s.Untouched) {edit : MeshEdit} (hdeletes : edit.deletes = false)
    {mesh : Mesh} (hedit : s.mesh.edit edit = .ok mesh) : Untouched ⟨mesh, s.cavity⟩ := by
  refine ⟨Mesh.sound_of_edit h.sound hedit, fun tet hd => ?_, h.empty⟩
  exact h.survived tet ((Mesh.deleted_iff_of_edit h.sound.toLinked hdeletes hedit tet).1 hd)

theorem Untouched.edit (h : s.Untouched) {edit : MeshEdit} (hdeletes : edit.deletes = false) :
    (s.edit edit).Untouched := by
  unfold Site.edit
  split
  · exact h.of_edit hdeletes (by assumption)
  · exact h

theorem Untouched.editAll (h : s.Untouched) {edits : List MeshEdit}
    (hdeletes : ∀ edit ∈ edits, edit.deletes = false) {mesh : Mesh}
    (hedits : s.mesh.editAll edits = .ok mesh) : Untouched ⟨mesh, s.cavity⟩ := by
  induction edits generalizing s with
  | nil =>
    cases hedits
    exact h
  | cons edit rest ih =>
    rw [List.forall_mem_cons] at hdeletes
    obtain ⟨edited, hedit, hrest⟩ := bind_eq_ok_iff.1 hedits
    exact ih (s := ⟨edited, s.cavity⟩) (h.of_edit hdeletes.1 hedit) hdeletes.2 hrest

/-- A repair of a cavity without tetrahedra leaves it without tetrahedra. -/
theorem Untouched.of_repaired (h : s.Untouched) {restored : List Nat}
    (hr : s.Repaired s' restored) :
    s'.Untouched := by
  have hsurvived : ∀ tet, ¬s'.mesh.Deleted tet := fun tet hd =>
    h.survived tet ((hr.deleted_iff h.good.consistent tet).1 hd).1
  refine ⟨hr.sound h.sound, hsurvived, ?_⟩
  have hlisted : s'.cavity.deleted = [] := List.eq_nil_iff_forall_not_mem.2 fun tet ht =>
    hsurvived tet ((hr.consistent.deleted_iff tet).2 ht)
  have hball : s'.cavity.ball = [] := List.eq_nil_iff_forall_not_mem.2 fun face hf => by
    obtain ⟨inner, hd, -⟩ := (hr.consistent.mem_outers _).1 (mem_outers_of_mem_ball hf)
    exact hsurvived _ hd
  cases hc : s'.cavity
  simp_all [Cavity.empty]

section

variable [Orient3d]

/-- A call that gives tetrahedra back repairs. -/
theorem Good.repaired_after (h : s.Good) {call : Call} (hcall : call.givesBack = true) :
    ∃ restored, s.Repaired (s.after call) restored := by
  cases call with
  | restore tet policy =>
    unfold after
    dsimp only
    split
    · rename_i site hsite
      exact ⟨_, h.consistent.restore_repaired h.sound hsite⟩
    · exact ⟨[], .refl h.consistent⟩
  | reshape vertex checkpoint policy =>
    exact ⟨_, h.consistent.reshape_repaired h.sound vertex checkpoint policy⟩
  | rescue vertex color checkpoint policy =>
    exact ⟨_, h.consistent.rescue_repaired h.sound vertex color checkpoint policy⟩
  | addVertex p => cases hcall
  | setColor tet color => cases hcall
  | constrainEdge a b => cases hcall
  | constrainFacet a b c => cases hcall
  | carve tets => cases hcall

/-- A call that sets no constraints keeps the cavity consistent. -/
theorem Good.after (h : s.Good) {call : Call} (hcall : call.constrains = false) :
    (s.after call).Good := by
  have hrepaired : call.givesBack = true → (s.after call).Good := fun hback => by
    obtain ⟨restored, hr⟩ := h.repaired_after hback
    exact hr.good h
  cases call with
  | addVertex p => exact h.edit rfl rfl
  | setColor tet color => exact h.edit rfl rfl
  | constrainEdge a b => cases hcall
  | constrainFacet a b c => cases hcall
  | carve tets =>
    unfold Site.after
    dsimp only
    split
    · rename_i site checkpoint hcarve
      obtain ⟨-, g⟩ := h.consistent.carve_eq_ok h.sound.toLinked hcarve
      exact ⟨h.consistent.of_carved h.sound.carvable g, g.sameForm.sound h.sound⟩
    · exact h
  | restore tet policy => exact hrepaired rfl
  | reshape vertex checkpoint policy => exact hrepaired rfl
  | rescue vertex color checkpoint policy => exact hrepaired rfl

/-- A call that does not carve leaves a site without a cavity so, whatever it constrains. -/
theorem Untouched.after (h : s.Untouched) {call : Call} (hcall : call.carves = false) :
    (s.after call).Untouched := by
  have hrepaired : call.givesBack = true → (s.after call).Untouched := fun hback => by
    obtain ⟨restored, hr⟩ := h.good.repaired_after hback
    exact h.of_repaired hr
  cases call with
  | addVertex p => exact h.edit rfl
  | setColor tet color => exact h.edit rfl
  | constrainEdge a b => exact h.edit rfl
  | constrainFacet a b c => exact h.edit rfl
  | carve tets => cases hcall
  | restore tet policy => exact hrepaired rfl
  | reshape vertex checkpoint policy => exact hrepaired rfl
  | rescue vertex color checkpoint policy => exact hrepaired rfl

/-! ## What a run keeps -/

theorem Untouched.afterAll (h : s.Untouched) {calls : List Call}
    (hcalls : ∀ call ∈ calls, call.carves = false) : (s.afterAll calls).Untouched := by
  induction calls generalizing s with
  | nil => exact h
  | cons call rest ih =>
    rw [List.forall_mem_cons] at hcalls
    exact ih (h.after hcalls.1) hcalls.2

theorem Good.afterAll (h : s.Good) {calls : List Call}
    (hcalls : ∀ call ∈ calls, call.constrains = false) : (s.afterAll calls).Good := by
  induction calls generalizing s with
  | nil => exact h
  | cons call rest ih =>
    rw [List.forall_mem_cons] at hcalls
    exact ih (h.after hcalls.1) hcalls.2

/-- A run of calls that give tetrahedra back is a repair. -/
theorem Good.repaired_afterAll (h : s.Good) {calls : List Call}
    (hcalls : ∀ call ∈ calls, call.givesBack = true) :
    ∃ restored, s.Repaired (s.afterAll calls) restored := by
  induction calls generalizing s with
  | nil => exact ⟨[], .refl h.consistent⟩
  | cons call rest ih =>
    rw [List.forall_mem_cons] at hcalls
    obtain ⟨restored, hr⟩ := h.repaired_after hcalls.1
    obtain ⟨restored', hr'⟩ := ih (hr.good h) hcalls.2
    exact ⟨restored' ++ restored, hr.trans hr'⟩

/-- A mesh that was just built, with nothing carved. -/
theorem untouched_of_ofTetrahedra {vertices : Array Point} {tets : List (Quad Vertex)} {m : Mesh}
    (h : Mesh.ofTetrahedra vertices tets = .ok m) : Untouched ⟨m, .empty⟩ :=
  ⟨(Mesh.Built.closed h).sound, fun tet => Mesh.marked?_of_ofTetrahedra h tet .deleted, rfl⟩

/-! ## Prepared sites -/

/-- The site after carving some portions one after the other. -/
def carveAll? (s : Site) : List (List Nat) → Option Site
  | [] => some s
  | tets :: rest => do (← (s.carve tets).toOption).1.carveAll? rest

/-- A mesh that is built and edited, and then carved in portions. -/
def prepare? (vertices : Array Point) (tets : List (Quad Vertex)) (edits : List MeshEdit)
    (portions : List (List Nat)) : Option Site := do
  let built ← (Mesh.ofTetrahedra vertices tets).toOption
  let edited ← (built.editAll edits).toOption
  carveAll? ⟨edited, .empty⟩ portions

theorem carveAll?_eq_some (h : s.Good) {edits : List MeshEdit} (hbuilt : s.mesh.Built edits)
    {portions : List (List Nat)} (hs : s.carveAll? portions = some s') :
    s'.Good ∧ ∃ more, (∀ edit ∈ more, edit.constrains = false) ∧
      s'.mesh.Built (more ++ edits) := by
  induction portions generalizing s edits with
  | nil =>
    cases hs
    exact ⟨h, [], List.forall_mem_nil _, hbuilt⟩
  | cons tets rest ih =>
    obtain ⟨⟨next, checkpoint⟩, hcarve, hrest⟩ := Option.bind_eq_some_iff.1 hs
    obtain ⟨-, g⟩ := h.consistent.carve_eq_ok h.sound.toLinked (toOption_eq_some_iff.1 hcarve)
    have hnext : next.Good :=
      ⟨h.consistent.of_carved h.sound.carvable g, g.sameForm.sound h.sound⟩
    have hmarked := hbuilt.foldl_mark g.lt_size
    rw [← g.mesh] at hmarked
    obtain ⟨hgood, more, hmore, hbuilt'⟩ := ih hnext hmarked hrest
    rw [← List.append_assoc] at hbuilt'
    refine ⟨hgood, _, fun edit hedit => ?_, hbuilt'⟩
    rcases List.mem_append.1 hedit with hold | hnew
    · exact hmore edit hold
    · obtain ⟨tet, -, rfl⟩ := List.mem_map.1 (List.mem_reverse.1 hnew)
      rfl

/-- A prepared site is checked, and no constraint was set after its edits. -/
theorem prepare?_constrains {vertices : Array Point} {tets : List (Quad Vertex)}
    {edits : List MeshEdit} {portions : List (List Nat)}
    (hedits : ∀ edit ∈ edits, edit.deletes = false)
    (hs : prepare? vertices tets edits portions = some s) :
    s.Checked ∧ ∃ more, (∀ edit ∈ more, edit.constrains = false) ∧
      s.mesh.Built (more ++ edits.reverse) := by
  obtain ⟨built, hbuilt, hs⟩ := Option.bind_eq_some_iff.1 hs
  obtain ⟨edited, hedited, hs⟩ := Option.bind_eq_some_iff.1 hs
  rw [toOption_eq_some_iff] at hbuilt hedited
  have huntouched := (untouched_of_ofTetrahedra hbuilt).editAll hedits hedited
  have hmesh := (Mesh.Built.closed hbuilt).editAll hedited
  rw [List.append_nil] at hmesh
  obtain ⟨hgood, hmore⟩ := carveAll?_eq_some huntouched.good hmesh hs
  exact ⟨hgood.consistent.checked hgood.sound.toLinked, hmore⟩

/-- A prepared site is checked. -/
theorem prepare?_eq_some {vertices : Array Point} {tets : List (Quad Vertex)}
    {edits : List MeshEdit} {portions : List (List Nat)}
    (hedits : ∀ edit ∈ edits, edit.deletes = false)
    (hs : prepare? vertices tets edits portions = some s) :
    s.Checked ∧ ∃ more, s.mesh.Built (more ++ edits.reverse) := by
  obtain ⟨hchecked, more, -, hbuilt⟩ := prepare?_constrains hedits hs
  exact ⟨hchecked, more, hbuilt⟩

/-- The corners of three tetrahedra, the first of which shares a facet with each of the others. -/
def chainCorners : Array Point :=
  #[⟨0, 0, 0⟩, ⟨1, 0, 0⟩, ⟨0, 1, 0⟩, ⟨0, 0, 1⟩, ⟨1, 1, 1⟩, ⟨-1, 0, 0⟩]

/-- The three tetrahedra. -/
def chainTets : List (Quad Vertex) := [⟨0, 1, 2, 3⟩, ⟨1, 2, 3, 4⟩, ⟨0, 2, 3, 5⟩]

/-! ## Consistency of runs -/

/-- From a mesh that was just built, a run that sets its constraints before it carves keeps the
cavity consistent, whatever its calls are given and however they end. -/
theorem consistent_afterAll {vertices : Array Point} {tets : List (Quad Vertex)} {m : Mesh}
    (hm : Mesh.ofTetrahedra vertices tets = .ok m) {setup calls : List Call}
    (hsetup : ∀ call ∈ setup, call.carves = false)
    (hcalls : ∀ call ∈ calls, call.constrains = false) :
    (afterAll ⟨m, .empty⟩ (setup ++ calls)).Consistent ∧
      ∀ checkpoint ≤ (afterAll ⟨m, .empty⟩ (setup ++ calls)).cavity.deleted.length,
        (afterAll ⟨m, .empty⟩ (setup ++ calls)).checkBoundary checkpoint = .ok () := by
  have hrun : (afterAll ⟨m, .empty⟩ (setup ++ calls)).Good := by
    unfold afterAll
    rw [List.foldl_append]
    exact ((untouched_of_ofTetrahedra hm).afterAll hsetup).good.afterAll hcalls
  exact ⟨hrun.consistent, fun _ hle => hrun.consistent.checkBoundary hrun.sound.toLinked hle⟩

end

/-- The corners of a tetrahedron along the axes. -/
def unitCorners : Array Point := #[⟨0, 0, 0⟩, ⟨1, 0, 0⟩, ⟨0, 1, 0⟩, ⟨0, 0, 1⟩]

/-- A run in a single tetrahedron and its four ghosts. The second carving is refused, and the rescue
and the reshaping find nothing to do. -/
def unitRun : List Call :=
  [.addVertex ⟨0.25, 0.25, 0.25⟩, .carve [0, 1], .carve [9], .restore 1 .strict,
    .rescue 4 7 0 .strict, .carve [1, 2], .reshape 4 0 .strict]

theorem consistent_afterAll_unitRun : ∃ m, Mesh.ofTetrahedra unitCorners [⟨0, 1, 2, 3⟩] = .ok m ∧
    (∀ call ∈ [Call.constrainEdge 0 1, .constrainFacet 0 1 2], call.carves = false) ∧
    (∀ call ∈ unitRun, call.constrains = false) ∧
    (afterAll ⟨m, .empty⟩ ([.constrainEdge 0 1, .constrainFacet 0 1 2] ++ unitRun)).cavity.deleted =
      [0, 1, 2] ∧
    (afterAll ⟨m, .empty⟩ ([.constrainEdge 0 1, .constrainFacet 0 1 2] ++ unitRun)).Consistent ∧
    (afterAll ⟨m, .empty⟩
      ([.constrainEdge 0 1, .constrainFacet 0 1 2] ++ unitRun)).checkBoundary 3 = .ok () := by
  obtain ⟨m, hm, hdeleted⟩ : ∃ m, Mesh.ofTetrahedra unitCorners [⟨0, 1, 2, 3⟩] = .ok m ∧
      (afterAll ⟨m, .empty⟩
        ([.constrainEdge 0 1, .constrainFacet 0 1 2] ++ unitRun)).cavity.deleted =
        [0, 1, 2] := exists_of_any (by decide +kernel)
  have hsetup : ∀ call ∈ [Call.constrainEdge 0 1, .constrainFacet 0 1 2], call.carves = false := by
    decide
  have hcalls : ∀ call ∈ unitRun, call.constrains = false := by decide
  obtain ⟨hconsistent, hcheck⟩ := consistent_afterAll hm hsetup hcalls
  exact ⟨m, hm, hsetup, hcalls, hdeleted, hconsistent, hcheck 3 (by rw [hdeleted]; decide)⟩

end Site

end CavityRepair
