import CavityRepair.Proofs.Mesh.Edits
import CavityRepair.Proofs.Mesh.Rings
import CavityRepair.Proofs.Mesh.Validation
/-!
# Staying inside the arrays of a mesh

A mesh may be anything that its arrays can hold: their sizes need not agree, half-faces may name
tetrahedra that do not exist, and corners may be repeated. `Mesh.validate` itself follows no index
that names no entry, on any mesh (`Mesh.validate_inBounds`), and a mesh that it accepts is linked
(`Mesh.linked_of_validate`). Of a linked mesh nothing more is known: corners may still be repeated
and vertices have no position. What follows needs no more than that every twin exists.

* `Mesh.ring_inBounds`: a walk around an edge ends, with a ring or a refusal.
* `Mesh.length_traceRing_le`: it notes at most one step more than the mesh has tetrahedra, also when
  it is given up (`Mesh.traceRing`, `Mesh.ring_eq_answer`).
* `Mesh.edit_inBounds`: edits of tetrahedra that exist.
-/
namespace CavityRepair

/-! ## Attempts -/

/-- An attempt that follows no index that names no entry. -/
def InBounds {ε α : Type} (x : Attempt ε α) : Prop := x ≠ .error .outOfRange

section

variable {ε δ α β : Type} {x : Attempt ε α}

/-- It ends with an answer or a refusal. -/
theorem inBounds_iff : InBounds x ↔ (∃ a, x = .ok a) ∨ ∃ cause, x = refuse cause := by
  unfold InBounds refuse
  match x with
  | .ok a => simp
  | .error (.refused cause) => simp
  | .error .outOfRange => simp

theorem inBounds_ok (a : α) : InBounds (.ok a : Attempt ε α) := fun h => by cases h

theorem inBounds_refuse (cause : ε) : InBounds (refuse cause : Attempt ε α) := fun h => by cases h

theorem inBounds_require {p : Prop} [Decidable p] {cause : ε} :
    InBounds (require p cause : Attempt ε Unit) := by
  unfold require
  split
  · exact inBounds_ok ()
  · exact inBounds_refuse cause

theorem InBounds.bind {f : α → Attempt ε β} (hx : InBounds x)
    (hf : ∀ a, x = .ok a → InBounds (f a)) : InBounds (x >>= f) := by
  intro h
  rcases bind_eq_error_iff.1 h with herror | ⟨a, ha, hout⟩
  · exact hx herror
  · exact hf a ha hout

/-- To end with the fault of another attempt. -/
theorem InBounds.fault {fault : Fault ε} (hx : InBounds x) (h : x = .error fault) :
    InBounds (.error fault : Attempt ε β) := fun hout =>
  hx (h.trans (by rw [Except.error.inj hout]))

/-- After a condition only what meets it counts. -/
theorem inBounds_require_bind {p : Prop} [Decidable p] {cause : ε} {f : Unit → Attempt ε α}
    (hf : p → InBounds (f ())) : InBounds (require p cause >>= f) :=
  inBounds_require.bind fun _ h => hf (require_eq_ok_iff.1 h)

/-- A look-up that finds an entry. -/
theorem inBounds_found_bind {o : Option β} {f : β → Attempt ε α} {b : β} (ho : o = some b)
    (hf : InBounds (f b)) : InBounds (found o >>= f) := by
  rwa [ho, found_some, ok_bind]

theorem inBounds_withCause_iff {f : ε → δ} : InBounds (withCause f x) ↔ InBounds x := by
  unfold InBounds withCause refuse
  match x with
  | .ok a => simp
  | .error (.refused cause) => simp
  | .error .outOfRange => simp

end

namespace Mesh

variable {m m' : Mesh}

/-! ## Validation -/

/-- Links of half-faces that exist are checked without following one that leads nowhere. -/
theorem checkLink_inBounds [Orient3d] (hsize : m.twins.size = m.size) {here : HalfFace}
    (hhere : here.tet < m.size) : InBounds (m.checkLink here) := by
  rcases checkLink_cases hsize hhere with ⟨-, hok⟩ | ⟨cause, -, hcause⟩
  · exact hok ▸ inBounds_ok ()
  · exact hcause ▸ inBounds_refuse cause

/-- Any mesh whatever can be checked. -/
theorem validate_inBounds [Orient3d] (m : Mesh) : InBounds m.validate := by
  refine inBounds_require_bind fun hsizes hlinks => ?_
  obtain ⟨here, hhere, hfault⟩ := exists_of_checkLinks hlinks
  exact checkLink_inBounds hsizes.1 (mem_halfFaces.1 hhere) hfault

/-- What is accepted is linked. -/
theorem linked_of_validate [Orient3d] (h : m.validate = .ok ()) : m.Linked := by
  obtain ⟨hsizes, hlinks⟩ := validate_eq_ok_iff.1 h
  obtain ⟨htwins, hflags, hcolors⟩ := require_eq_ok_iff.1 hsizes
  have hlinked : ∀ h : HalfFace, h.tet < m.size → m.LinkedAt h := fun h hh =>
    (checkLink_eq_ok_iff htwins hh).1 (hlinks h hh)
  have hout : ∀ h : HalfFace, ¬h.tet < m.size → m.twin h = h :=
    fun h hh => twin_eq_self (htwins ▸ Nat.le_of_not_lt hh)
  refine ⟨⟨htwins, hflags, hcolors, fun hh => (hlinked _ hh).twin_lt⟩, fun h => ?_, fun h => ?_⟩ <;>
    by_cases hh : h.tet < m.size
  · exact (hlinked h hh).twin_twin
  · rw [hout h hh, hout h hh]
  · exact (hlinked h hh).sorted_twin
  · rw [hout h hh]

/-! ## Rings -/

/-- A walk around an edge never takes a step from a tetrahedron that does not exist. -/
theorem walkRing_inBounds (hm : m.InRange) (start : Nat) (edge : Edge) (remaining : Nat) {tet : Nat}
    (htet : tet < m.size) (entry exit : Facet) :
    InBounds (m.walkRing start edge remaining tet entry exit) := by
  induction remaining generalizing tet entry exit with
  | zero =>
    obtain ⟨nodes, hn⟩ := exists_nodes htet
    exact inBounds_found_bind hn (inBounds_require_bind fun _ => inBounds_refuse _)
  | succ remaining ih =>
    obtain ⟨nodes, hn⟩ := exists_nodes htet
    refine inBounds_found_bind hn ?_
    split
    · exact inBounds_refuse _
    · refine inBounds_found_bind (hm.twin?_eq (h := ⟨tet, exit⟩) htet) ?_
      split
      · exact inBounds_ok _
      · have hnext : (m.twin ⟨tet, exit⟩).tet < m.size := hm.twin_lt htet
        obtain ⟨next, hn'⟩ := exists_nodes hnext
        refine inBounds_found_bind hn' ?_
        split
        · exact inBounds_refuse _
        · exact (ih hnext _ _).bind fun _ _ => inBounds_ok _

theorem ring_inBounds (hm : m.InRange) {tet : Nat} (htet : tet < m.size) (edge : Edge) :
    InBounds (m.ring tet edge) :=
  walkRing_inBounds hm _ _ _ htet _ _

end Mesh

/-- A walk around an edge, with the steps that it noted also when it was given up. -/
structure RingWalk where
  steps : List RingStep
  outcome : Attempt RingError Unit

/-- What is known of a walk afterwards. -/
def RingWalk.answer (walk : RingWalk) : Attempt RingError (List RingStep) :=
  walk.outcome.map fun _ => walk.steps

namespace Mesh

variable {m m' : Mesh}

/-- The walk that `Mesh.walkRing` makes. A step is noted before it is taken. -/
def traceWalk (m : Mesh) (start : Nat) (edge : Edge) (remaining tet : Nat) (entry exit : Facet) :
    RingWalk :=
  match m.nodes[tet]? with
  | none => ⟨[], .error .outOfRange⟩
  | some nodes =>
    match Edge.ofFacets? entry exit with
    | none => ⟨[], refuse (.broken tet (nodes.get entry))⟩
    | some here =>
      let step := ⟨tet, here, (nodes.get entry, nodes.get exit)⟩
      match remaining with
      | 0 => ⟨[step], refuse (.notClosed start edge (m.size + 1))⟩
      | remaining + 1 =>
        match m.twin? ⟨tet, exit⟩ with
        | none => ⟨[step], .error .outOfRange⟩
        | some across =>
          if across.tet = start then ⟨[step], .ok ()⟩
          else
            match m.nodes[across.tet]? with
            | none => ⟨[step], .error .outOfRange⟩
            | some next =>
              match next.slotOf? (nodes.get entry) with
              | none => ⟨[step], refuse (.broken across.tet (nodes.get entry))⟩
              | some out =>
                let later := m.traceWalk start edge remaining across.tet across.facet out
                ⟨step :: later.steps, later.outcome⟩

/-- The walk around an edge of a tetrahedron. -/
def traceRing (m : Mesh) (tet : Nat) (edge : Edge) : RingWalk :=
  m.traceWalk tet edge m.size tet edge.facets.1 edge.facets.2

/-- The walk is the one that is made: it ends in the same way, with the steps it noted if it comes
back. -/
theorem walkRing_eq_answer (m : Mesh) (start : Nat) (edge : Edge) (remaining tet : Nat)
    (entry exit : Facet) : m.walkRing start edge remaining tet entry exit =
      (m.traceWalk start edge remaining tet entry exit).answer := by
  induction remaining generalizing tet entry exit with
  | zero =>
    unfold walkRing traceWalk
    cases m.nodes[tet]? with
    | none => rfl
    | some nodes =>
      cases hhere : Edge.ofFacets? entry exit with
      | none =>
        have heq : entry = exit := (Edge.ofFacets?_eq_none_iff _ _).1 hhere
        simp [require, heq, RingWalk.answer, refuse, bind, Except.bind, Except.map]
      | some here =>
        have hne : entry ≠ exit := fun heq => by
          simp [(Edge.ofFacets?_eq_none_iff _ _).2 heq] at hhere
        simp [require, hne, RingWalk.answer, refuse, Except.map]
  | succ remaining ih =>
    unfold walkRing traceWalk
    cases m.nodes[tet]? with
    | none => rfl
    | some nodes =>
      cases Edge.ofFacets? entry exit with
      | none => rfl
      | some here =>
        cases m.twin? ⟨tet, exit⟩ with
        | none => rfl
        | some across =>
          by_cases hback : across.tet = start
          · simp only [found_some, ok_bind, hback, if_true]
            rfl
          · simp only [found_some, ok_bind, hback, if_false]
            cases m.nodes[across.tet]? with
            | none => rfl
            | some next =>
              simp only [found_some, ok_bind]
              cases next.slotOf? (nodes.get entry) with
              | none => rfl
              | some out =>
                simp only [ih, RingWalk.answer]
                cases (m.traceWalk start edge remaining across.tet across.facet out).outcome <;> rfl

/-- The ring is what the walk around the edge ends with. -/
theorem ring_eq_answer (m : Mesh) (tet : Nat) (edge : Edge) :
    m.ring tet edge = (m.traceRing tet edge).answer :=
  m.walkRing_eq_answer tet edge m.size tet _ _

theorem length_traceWalk_le (m : Mesh) (start : Nat) (edge : Edge) (remaining tet : Nat)
    (entry exit : Facet) :
    (m.traceWalk start edge remaining tet entry exit).steps.length ≤ remaining + 1 := by
  fun_induction traceWalk m start edge remaining tet entry exit
  case case8 later ih => exact Nat.succ_le_succ ih
  all_goals simp

/-- A walk notes at most one step more than there are tetrahedra. -/
theorem length_traceRing_le (m : Mesh) (tet : Nat) (edge : Edge) :
    (m.traceRing tet edge).steps.length ≤ m.size + 1 :=
  m.length_traceWalk_le tet edge m.size tet _ _

theorem length_traceWalk_of_notClosed {start : Nat} {edge : Edge} {remaining tet : Nat}
    {entry exit : Facet} {tet' : Nat} {edge' : Edge} {steps : Nat}
    (h : (m.traceWalk start edge remaining tet entry exit).outcome =
      refuse (.notClosed tet' edge' steps)) :
    (m.traceWalk start edge remaining tet entry exit).steps.length = remaining + 1 ∧
      steps = m.size + 1 := by
  fun_induction traceWalk m start edge remaining tet entry exit
  case case8 later ih =>
    obtain ⟨hlength, hsteps⟩ := ih h
    exact ⟨congrArg (· + 1) hlength, hsteps⟩
  all_goals simp_all [refuse]

/-- A walk that does not come back notes as many steps as it is refused for. -/
theorem length_of_notClosed {tet tet' : Nat} {edge edge' : Edge} {steps : Nat}
    (h : m.ring tet edge = refuse (.notClosed tet' edge' steps)) :
    (m.traceRing tet edge).steps.length = steps ∧ steps = m.size + 1 := by
  rw [ring_eq_answer] at h
  have houtcome : (m.traceRing tet edge).outcome = refuse (.notClosed tet' edge' steps) := by
    unfold RingWalk.answer at h
    cases hend : (m.traceRing tet edge).outcome with
    | ok _ =>
      rw [hend] at h
      cases h
    | error fault =>
      rw [hend] at h
      cases h
      rfl
  obtain ⟨hlength, hsteps⟩ := length_traceWalk_of_notClosed houtcome
  exact ⟨hlength.trans hsteps.symm, hsteps⟩

end Mesh

/-! ## Edits -/

/-- Whether an edit names tetrahedra by their indices, all below some size. -/
def MeshEdit.InRange (size : Nat) : MeshEdit → Prop
  | .delete tet | .undelete tet | .setColor tet _ => tet < size
  | .addVertex _ | .constrainEdge .. | .constrainFacet .. => True

namespace Mesh

variable {m : Mesh}

theorem addVertex_inBounds (m : Mesh) (p : Point) : InBounds (m.edit (.addVertex p)) := by
  refine InBounds.bind (fun h => ?_) fun _ _ => inBounds_ok _
  obtain ⟨cause, -, h⟩ := mapError_eq_error_iff.1 h
  cases h

theorem markAll_inBounds {ε : Type} (hm : m.InRange) {marks : List (Nat × TetMark)}
    (hlt : ∀ entry ∈ marks, entry.1 < m.size) : InBounds (m.markAll marks : Attempt ε Mesh) :=
  markAll_ne_error (hm.flags_size ▸ hlt) _

theorem constrainEdge_inBounds (hm : m.InRange) (a b : Vertex) :
    InBounds (m.constrainEdge a b) := by
  refine (markAll_inBounds hm fun entry hentry => ?_).bind fun marked _ =>
    inBounds_require_bind fun _ => inBounds_ok _
  obtain ⟨⟨tet, edge⟩, hholder, rfl⟩ := List.mem_map.1 hentry
  exact List.mem_range.1 (mem_edgeHolders.1 hholder).1

theorem constrainFacet_inBounds (hm : m.InRange) (a b c : Vertex) :
    InBounds (m.constrainFacet a b c) := by
  unfold constrainFacet
  split
  · exact inBounds_refuse _
  · rename_i here hfound
    have hhere := (facetHolder?_eq_some hfound).1
    refine inBounds_found_bind (hm.twin?_eq hhere) (markAll_inBounds hm ?_)
    simpa using ⟨hhere, hm.twin_lt hhere⟩

/-- Edits are made or refused. -/
theorem edit_inBounds (hm : m.InRange) {edit : MeshEdit} (hedit : edit.InRange m.size) :
    InBounds (m.edit edit) := by
  have hflags : ∀ tet < m.size, ∃ flags, m.flags[tet]? = some flags := fun tet htet =>
    ⟨_, Array.getElem?_eq_getElem (hm.flags_size ▸ htet)⟩
  cases edit with
  | addVertex p => exact m.addVertex_inBounds p
  | constrainEdge a b => exact (constrainEdge_inBounds hm a b).bind fun _ _ => inBounds_ok _
  | constrainFacet a b c => exact constrainFacet_inBounds hm a b c
  | delete tet =>
    obtain ⟨flags, hget⟩ := hflags tet hedit
    exact inBounds_found_bind hget (inBounds_ok _)
  | undelete tet =>
    obtain ⟨flags, hget⟩ := hflags tet hedit
    exact inBounds_found_bind hget (inBounds_ok _)
  | setColor tet color =>
    exact inBounds_found_bind (Array.getElem?_eq_getElem (hm.colors_size ▸ hedit)) (inBounds_ok _)

end Mesh

end CavityRepair
