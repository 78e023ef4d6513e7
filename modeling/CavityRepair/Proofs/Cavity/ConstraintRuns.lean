import CavityRepair.Proofs.Cavity.Refusals
import CavityRepair.Proofs.Mesh.Constraints
/-!
# The constraints of a run

A run may set constraints between its other calls as it likes. Which constraints the mesh has in the
end can be told from the calls: those of the pairs and triples of vertices that a call constrained
with success (`Site.constrainedPairs`, `Site.constrainedTriples`). A call of another kind leaves the
constraints alone (`Site.sameForm_after`), also one that is given up halfway.

A facet that is constrained inside a cavity has no faces in the ball. So nothing is supposed here of
the states on the way, except that the mesh was built.

* `Site.refines_after`: what a call adds.
* `Site.constraints_of_run`: what a run adds up to, on the mesh and on its boundary faces.
-/
namespace CavityRepair

/-! ## Calls that set no constraints -/

theorem Mesh.sameForm_foldl_mark (m : Mesh) (tets : List Nat) :
    m.SameForm (tets.foldl (fun m tet => m.mark tet .deleted) m) := by
  induction tets generalizing m with
  | nil => exact .refl m
  | cons tet rest ih => exact (m.sameForm_mark_deleted tet).trans (ih _)

namespace Site

variable {s s' : Site} {policy : Policy}

theorem sameForm_edit {edit : MeshEdit} (hedit : edit.constrains = false) :
    s.mesh.SameForm (s.edit edit).mesh := by
  unfold Site.edit
  split
  · exact Mesh.sameForm_of_edit hedit (by assumption)
  · exact .refl _

theorem sameForm_carve {tets : List Nat} {checkpoint : Nat}
    (h : s.carve tets = .ok (s', checkpoint)) : s.mesh.SameForm s'.mesh := by
  obtain ⟨_, -, h⟩ := bind_eq_ok_iff.1 h
  obtain ⟨outers, -, h⟩ := bind_eq_ok_iff.1 h
  obtain ⟨added, -, h⟩ := bind_eq_ok_iff.1 h
  cases h
  exact Mesh.sameForm_foldl_mark s.mesh tets

theorem sameForm_restore {tet : Nat} (h : s.restore tet policy = .ok s') :
    s.mesh.SameForm s'.mesh := by
  obtain ⟨places, -, h⟩ := bind_eq_ok_iff.1 h
  obtain ⟨deleted, -, h⟩ := bind_eq_ok_iff.1 h
  obtain ⟨⟨removed, ball⟩, -, h⟩ := bind_eq_ok_iff.1 h
  obtain ⟨exposed, -, h⟩ := bind_eq_ok_iff.1 h
  obtain ⟨added, -, h⟩ := bind_eq_ok_iff.1 h
  cases h
  exact Mesh.sameForm_unmark_deleted s.mesh tet

theorem sameForm_shrink [Orient3d] (s : Site) (p : Point) (policy : Policy) :
    s.mesh.SameForm (s.shrink p policy).site.mesh := by
  fun_induction Site.shrink s p policy with
  | case1 s hr => exact .refl _
  | case2 s fault hr => exact .refl _
  | case3 s tet next hr later ih =>
    obtain ⟨place, -, hr⟩ := Option.map_eq_some_iff.1 hr
    obtain ⟨tet', -, hr⟩ := bind_eq_ok_iff.1 hr
    obtain ⟨site, hsite, hr⟩ := bind_eq_ok_iff.1 hr
    cases hr
    exact (sameForm_restore hsite).trans ih

theorem sameForm_reshape [Orient3d] (s : Site) (vertex : Vertex) (checkpoint : Nat)
    (policy : Policy) :
    s.mesh.SameForm (s.reshape vertex checkpoint policy).site.mesh := by
  unfold reshape
  split
  · exact .refl _
  · exact s.sameForm_shrink _ policy

theorem sameForm_giveBack (r : Rescue) (goal : RescueGoal) (tet : Nat) :
    r.site.mesh.SameForm (r.giveBack goal tet).rescue.site.mesh := by
  unfold Rescue.giveBack
  split
  · exact .refl _
  · rename_i mesh hmesh
    obtain rfl := Mesh.setColor_eq_ok hmesh
    have hpaint := r.site.mesh.sameForm_paint tet goal.color
    dsimp only
    split
    · exact hpaint
    · exact hpaint.trans (sameForm_restore (s := ⟨_, r.site.cavity⟩) (by assumption))

theorem sameForm_walk (r : Rescue) (goal : RescueGoal) (tet : Nat) (edge : Edge) :
    r.site.mesh.SameForm (r.walk goal tet edge).rescue.site.mesh := by
  obtain ⟨visited, rings, heq | ⟨member, heq⟩⟩ := r.walk_eq goal tet edge <;> rw [heq]
  · exact .refl _
  · exact sameForm_giveBack ⟨r.site, visited, rings, r.restored⟩ goal member

theorem sameForm_rescue [Orient3d] (s : Site) (vertex : Vertex) (color : UInt16) (checkpoint : Nat)
    (policy : Policy) :
    s.mesh.SameForm (s.rescue vertex color checkpoint policy).rescue.site.mesh := by
  rcases s.rescue_cases vertex color checkpoint policy with heq | ⟨goal, -, heq⟩ <;> rw [heq]
  · exact .refl _
  · exact Rescue.run_invariant (P := fun r => s.mesh.SameForm r.site.mesh)
      (fun h _ => h.trans (sameForm_walk _ goal _ _))
      (fun h hmesh => h.trans (Mesh.paintDeleted_eq_ok hmesh).1) (.refl _) _

/-- A call that sets no constraints leaves the form of the mesh alone, however it ends. -/
theorem sameForm_after [Orient3d] (s : Site) {call : Call} (hcall : call.constrains = false) :
    s.mesh.SameForm (s.after call).mesh := by
  cases call with
  | addVertex p => exact sameForm_edit rfl
  | setColor tet color => exact sameForm_edit rfl
  | constrainEdge a b => cases hcall
  | constrainFacet a b c => cases hcall
  | carve tets =>
    unfold after
    dsimp only
    split
    · exact sameForm_carve (by assumption)
    · exact .refl _
  | restore tet policy =>
    unfold after
    dsimp only
    split
    · exact sameForm_restore (by assumption)
    · exact .refl _
  | reshape vertex checkpoint policy => exact s.sameForm_reshape vertex checkpoint policy
  | rescue vertex color checkpoint policy => exact s.sameForm_rescue vertex color checkpoint policy

end Site

/-! ## What a run constrains -/

/-- The ends of the edge that a call constrains. -/
def Call.pair? : Call → Option (Sym2 Vertex)
  | .constrainEdge a b => some s(a, b)
  | _ => none

/-- The corners of the facet that a call constrains. -/
def Call.triple? : Call → Option (Multiset Vertex)
  | .constrainFacet a b c => some {a, b, c}
  | _ => none

namespace Site

section

variable [Orient3d]

/-- The run makes a call, and it succeeds. -/
def Accepts (s : Site) (calls : List Call) (call : Call) : Prop :=
  ∃ before later, calls = before ++ call :: later ∧ (s.afterAll before).outcome call = .ok ()

/-- The pairs of vertices whose edge a run constrains. -/
def constrainedPairs (s : Site) (calls : List Call) : Set (Sym2 Vertex) :=
  {z | ∃ call, s.Accepts calls call ∧ call.pair? = some z}

/-- The triples of vertices whose facet a run constrains. -/
def constrainedTriples (s : Site) (calls : List Call) : Set (Multiset Vertex) :=
  {z | ∃ call, s.Accepts calls call ∧ call.triple? = some z}

variable {s : Site} {calls : List Call} {call last : Call}

theorem afterAll_append_singleton (s : Site) (calls : List Call) (last : Call) :
    s.afterAll (calls ++ [last]) = (s.afterAll calls).after last := by
  unfold afterAll
  rw [List.foldl_append]
  rfl

theorem not_accepts_nil : ¬s.Accepts [] call := by
  rintro ⟨before, later, heq, -⟩
  exact List.append_ne_nil_of_right_ne_nil before (List.cons_ne_nil call later) heq.symm

/-- A run with one more call accepts what it accepted before, and that call if it succeeds. -/
theorem accepts_append_iff : s.Accepts (calls ++ [last]) call ↔
    s.Accepts calls call ∨ (s.afterAll calls).outcome last = .ok () ∧ last = call := by
  constructor
  · intro ⟨before, later, heq, hok⟩
    rcases later.eq_nil_or_concat with rfl | ⟨later, x, rfl⟩
    · obtain ⟨rfl, hlast⟩ := List.append_inj' heq rfl
      obtain rfl : last = call := (List.cons.inj hlast).1
      exact .inr ⟨hok, rfl⟩
    · rw [List.concat_eq_append, ← List.cons_append, ← List.append_assoc] at heq
      exact .inl ⟨before, later, (List.append_inj' heq rfl).1, hok⟩
  · rintro (⟨before, later, rfl, hok⟩ | ⟨hok, rfl⟩)
    · exact ⟨before, later ++ [last], List.append_assoc _ _ _, hok⟩
    · exact ⟨calls, [], rfl, hok⟩

/-- What the accepted calls of a run name, of which the last call may be one. -/
theorem accepted_append {α : Type} (name? : Call → Option α) :
    {z | ∃ call, s.Accepts (calls ++ [last]) call ∧ name? call = some z} =
      {z | ∃ call, s.Accepts calls call ∧ name? call = some z} ∪
        {z | (s.afterAll calls).outcome last = .ok () ∧ name? last = some z} := by
  ext z
  simp only [Set.mem_ofPred_eq, Set.mem_union, accepts_append_iff]
  constructor
  · rintro ⟨call, hold | ⟨hok, rfl⟩, hz⟩
    · exact .inl ⟨call, hold, hz⟩
    · exact .inr ⟨hok, hz⟩
  · rintro (⟨call, hold, hz⟩ | ⟨hok, hz⟩)
    · exact ⟨call, .inl hold, hz⟩
    · exact ⟨last, .inr ⟨hok, rfl⟩, hz⟩

variable {pairs : Set (Sym2 Vertex)} {triples : Set (Multiset Vertex)}

omit [Orient3d] in
/-- The names together with the one, if any, that a call has. -/
theorem union_named {α : Type} (names : Set α) (name? : Option α) :
    names ∪ {z | name? = some z} = name?.elim names (insert · names) := by
  ext z
  cases name? <;> simp

omit [Orient3d] in
/-- An edit is made or leaves everything as it is. -/
theorem edit_cases (s : Site) (edit : MeshEdit) :
    (∃ mesh, s.mesh.edit edit = .ok mesh ∧ s.edit edit = ⟨mesh, s.cavity⟩) ∨
      ∃ fault, s.mesh.edit edit = .error fault ∧ s.edit edit = s := by
  unfold Site.edit
  cases s.mesh.edit edit with
  | ok mesh => exact .inl ⟨mesh, rfl, rfl⟩
  | error fault => exact .inr ⟨fault, rfl, rfl⟩

/-- A call that is an edit of the mesh adds what it names if the edit is made, and else nothing. -/
theorem refines_after_edit (hr : s.mesh.Refines pairs triples) {edit : MeshEdit}
    (houtcome : s.outcome call = ending .inl (s.mesh.edit edit))
    (hafter : s.after call = s.edit edit)
    (hmade : ∀ mesh, s.mesh.edit edit = .ok mesh →
      mesh.Refines (call.pair?.elim pairs (insert · pairs))
        (call.triple?.elim triples (insert · triples))) :
    (s.after call).mesh.Refines (pairs ∪ {z | s.outcome call = .ok () ∧ call.pair? = some z})
      (triples ∪ {z | s.outcome call = .ok () ∧ call.triple? = some z}) := by
  rcases s.edit_cases edit with ⟨mesh, hedit, heq⟩ | ⟨fault, hfault, heq⟩ <;> rw [hafter, heq]
  · have hok : s.outcome call = .ok () := houtcome.trans (ending_eq_ok_iff.2 ⟨mesh, hedit⟩)
    simp only [hok, true_and, union_named]
    exact hmade mesh hedit
  · have hnot : s.outcome call ≠ .ok () := by
      rw [houtcome, Ne, ending_eq_ok_iff, hfault]
      exact fun h => nomatch h
    simpa only [hnot, false_and, Set.ofPred_false, Set.union_empty] using hr

/-- A call that sets no constraints names none. -/
theorem refines_after_other (hr : s.mesh.Refines pairs triples) (hcall : call.constrains = false) :
    (s.after call).mesh.Refines (pairs ∪ {z | s.outcome call = .ok () ∧ call.pair? = some z})
      (triples ∪ {z | s.outcome call = .ok () ∧ call.triple? = some z}) := by
  have hnone : call.pair? = none ∧ call.triple? = none := by
    cases call <;> simp_all [Call.constrains, Call.pair?, Call.triple?]
  simpa [hnone] using (s.sameForm_after hcall).refines hr

/-- What a call adds to the constraints: if it succeeds, what it names. -/
theorem refines_after (hr : s.mesh.Refines pairs triples) (hm : s.mesh.TwoSided) (call : Call) :
    (s.after call).mesh.Refines (pairs ∪ {z | s.outcome call = .ok () ∧ call.pair? = some z})
      (triples ∪ {z | s.outcome call = .ok () ∧ call.triple? = some z}) := by
  cases call with
  | constrainEdge a b =>
    exact refines_after_edit hr rfl rfl fun mesh hedit => hr.constrainEdge hm.toClosed hedit
  | constrainFacet a b c =>
    exact refines_after_edit hr rfl rfl fun mesh hedit => hr.constrainFacet hm hedit
  | addVertex p => exact refines_after_other hr rfl
  | setColor tet color => exact refines_after_other hr rfl
  | carve tets => exact refines_after_other hr rfl
  | restore tet policy => exact refines_after_other hr rfl
  | reshape vertex checkpoint policy => exact refines_after_other hr rfl
  | rescue vertex color checkpoint policy => exact refines_after_other hr rfl

theorem sameShape_after (hm : s.mesh.InRange) (call : Call) :
    s.mesh.SameShape (s.after call).mesh := by
  have hedit : ∀ edit, s.mesh.SameShape (s.edit edit).mesh := by
    intro edit
    rcases s.edit_cases edit with ⟨mesh, hedit, hafter⟩ | ⟨fault, -, hafter⟩ <;> rw [hafter]
    · exact Mesh.sameShape_of_edit hm hedit
    · exact (Mesh.SameForm.refl _).toSameShape
  cases hcall : call.constrains with
  | false => exact (s.sameForm_after hcall).toSameShape
  | true => cases call <;> first | exact hedit _ | cases hcall

/-- What a run adds up to. -/
theorem refines_afterAll {vertices : Array Point} {tets : List (Quad Vertex)}
    (hm : Mesh.ofTetrahedra vertices tets = .ok s.mesh) (calls : List Call) :
    (s.afterAll calls).mesh.TwoSided ∧ (s.afterAll calls).mesh.Refines
      (s.constrainedPairs calls) (s.constrainedTriples calls) := by
  induction calls using List.reverseRecOn with
  | nil =>
    refine ⟨Mesh.twoSided_of_ofTetrahedra hm, ?_⟩
    simp only [constrainedPairs, constrainedTriples, not_accepts_nil, false_and, exists_false,
      Set.ofPred_false]
    exact Mesh.refines_of_ofTetrahedra hm
  | append_singleton calls last ih =>
    obtain ⟨hsides, hrefines⟩ := ih
    rw [afterAll_append_singleton]
    refine ⟨(sameShape_after hsides.toInRange last).twoSided hsides, ?_⟩
    rw [constrainedPairs, constrainedTriples, accepted_append, accepted_append]
    exact refines_after hrefines hsides last

/-- Constraints stand for the pairs and triples of vertices that a run named with success, whatever
else it did in between: on every tetrahedron, and on the boundary faces of both sides of every
facet. A constraint that is refused was looked for in vain, and changes nothing. -/
theorem constraints_of_run {vertices : Array Point} {tets : List (Quad Vertex)}
    (hm : Mesh.ofTetrahedra vertices tets = .ok s.mesh) (calls : List Call) :
    (s.afterAll calls).mesh.Refines (s.constrainedPairs calls) (s.constrainedTriples calls) ∧
    (∀ k : HalfFace, k.tet < (s.afterAll calls).mesh.size → ∃ across here there,
      (s.afterAll calls).mesh.twin? k = some across ∧
      (s.afterAll calls).mesh.ballFace? k = some here ∧
      (s.afterAll calls).mesh.ballFace? across = some there ∧
      here.Refines (s.constrainedPairs calls) (s.constrainedTriples calls) ∧
      there.Refines (s.constrainedPairs calls) (s.constrainedTriples calls) ∧
      here.corners.toList.Perm there.corners.toList ∧
      there.constrainedSides = here.constrainedSides ∧
      there.constraints.has .face = here.constraints.has .face) ∧
    (∀ a b, (s.afterAll calls).outcome (.constrainEdge a b) ≠ .ok () →
      (s.afterAll calls).outcome (.constrainEdge a b) = refuse (.inl (.edgeNotFound a b)) ∧
      (s.afterAll calls).mesh.edgeHolders a b (s.afterAll calls).mesh.tets = [] ∧
      s.afterAll (calls ++ [.constrainEdge a b]) = s.afterAll calls) ∧
    ∀ a b c, (s.afterAll calls).outcome (.constrainFacet a b c) ≠ .ok () →
      (s.afterAll calls).outcome (.constrainFacet a b c) = refuse (.inl (.facetNotFound a b c)) ∧
      (s.afterAll calls).mesh.facetHolder? ⟨a, b, c⟩ = none ∧
      s.afterAll (calls ++ [.constrainFacet a b c]) = s.afterAll calls := by
  obtain ⟨hsides, hrefines⟩ := refines_afterAll hm calls
  refine ⟨hrefines, fun k hk => hrefines.exists_ballFaces hsides.toClosed hk, ?_, ?_⟩
  · intro a b hnot
    rw [afterAll_append_singleton]
    rcases (s.afterAll calls).edit_cases (.constrainEdge a b) with
      ⟨mesh, hedit, -⟩ | ⟨fault, hfault, hafter⟩
    · exact absurd (ending_eq_ok_iff.2 ⟨mesh, hedit⟩) hnot
    · obtain ⟨rfl, hnone⟩ := Mesh.constrainEdge_eq_error hsides.toLinked hfault
      exact ⟨by rw [outcome, hfault]; rfl, hnone, hafter⟩
  · intro a b c hnot
    rw [afterAll_append_singleton]
    rcases (s.afterAll calls).edit_cases (.constrainFacet a b c) with
      ⟨mesh, hedit, -⟩ | ⟨fault, hfault, hafter⟩
    · exact absurd (ending_eq_ok_iff.2 ⟨mesh, hedit⟩) hnot
    · obtain ⟨rfl, hnone⟩ := Mesh.constrainFacet_eq_error hsides.toLinked hfault
      exact ⟨by rw [outcome, hfault]; rfl, hnone, hafter⟩

end

/-- A run in the pyramid that sets constraints before and after it carves. The edge and the facet
with the vertices 0 and 4 do not exist. -/
def mixedRun : List Call :=
  [.constrainEdge 2 1, .constrainEdge 0 4, .carve [0, 1], .constrainFacet 3 1 2,
    .addVertex ⟨0.25, 0.25, 0.25⟩, .restore 1 .fast, .constrainFacet 0 1 4, .setColor 0 9,
    .reshape 5 0 .fast, .rescue 5 7 0 .fast]

theorem constraints_of_run_pyramid : ∃ m,
    Mesh.ofTetrahedra Mesh.pyramidCorners Mesh.pyramidTets = .ok m ∧
    (afterAll ⟨m, .empty⟩ mixedRun).cavity.deleted = [0] ∧
    (afterAll ⟨m, .empty⟩ mixedRun).mesh.Refines
      (constrainedPairs ⟨m, .empty⟩ mixedRun) (constrainedTriples ⟨m, .empty⟩ mixedRun) ∧
    {2, 1, 3} ∈ constrainedTriples ⟨m, .empty⟩ mixedRun ∧
    {0, 2, 3} ∉ constrainedTriples ⟨m, .empty⟩ mixedRun ∧
    s(2, 1) ∈ constrainedPairs ⟨m, .empty⟩ mixedRun ∧
    (afterAll ⟨m, .empty⟩ mixedRun).outcome (.constrainEdge 0 4) =
      refuse (.inl (.edgeNotFound 0 4)) := by
  obtain ⟨m, hm, hdeleted, hn, hmark, hsides, hlost⟩ : ∃ m,
      Mesh.ofTetrahedra Mesh.pyramidCorners Mesh.pyramidTets = .ok m ∧
      (afterAll ⟨m, .empty⟩ mixedRun).cavity.deleted = [0] ∧
      (afterAll ⟨m, .empty⟩ mixedRun).mesh.nodes[0]? = some ⟨0, 1, 2, 3⟩ ∧
      (afterAll ⟨m, .empty⟩ mixedRun).mesh.marked? 0 (.edge 2) = some true ∧
      ((afterAll ⟨m, .empty⟩ mixedRun).mesh.Constrained ⟨0, 0⟩ ∧
        ¬(afterAll ⟨m, .empty⟩ mixedRun).mesh.Constrained ⟨0, 1⟩) ∧
      (afterAll ⟨m, .empty⟩ mixedRun).outcome (.constrainEdge 0 4) ≠ .ok () :=
    exists_of_any (by decide +kernel)
  obtain ⟨hrefines, -, hedge, -⟩ := constraints_of_run (s := ⟨m, .empty⟩) hm mixedRun
  have hfacet : ∀ f, (afterAll ⟨m, .empty⟩ mixedRun).mesh.triangle? ⟨0, f⟩ =
      some (Quad.triangle ⟨0, 1, 2, 3⟩ f) := fun f => Mesh.triangle?_eq hn
  refine ⟨m, hm, hdeleted, hrefines, (hrefines.facet (hfacet 0)).1 hsides.1,
    fun hin => hsides.2 ((hrefines.facet (hfacet 1)).2 hin), ?_, (hedge 0 4 hlost).1⟩
  rw [Sym2.eq_swap]
  exact (hrefines.edge hn 2).1 hmark

end Site

end CavityRepair
