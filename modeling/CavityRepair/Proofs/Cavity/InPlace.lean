import CavityRepair.Proofs.Cavity.InBounds
/-!
# Carving and giving back in place

A site that is held in one place is changed step by step, and an operation that fails halfway leaves
it halfway changed. Carving and giving back are written out here as such steps (`InPlace`). They
look before they write: at a site whose lists and links name tetrahedra that exist, consistent or
not, nothing can fail any more once the first step has been written, so a refusal leaves the site as
it was.

* `Site.exec_carveInPlace`, `Site.exec_restoreInPlace`: the steps end as carving and giving back
  answer.
* `Mesh.checkCarve_eq_refuse_iff`: a request is refused for its first tetrahedron that cannot be
  carved.
* `Site.refusals_leave_no_trace`: when both operations refuse, for what, and what they leave.
-/
namespace CavityRepair

/-! ## Steps -/

/-- Steps on a site. If one fails, what was written until then stands. -/
abbrev InPlace (α : Type) := ExceptT (Fault CavityError) (StateM Site) α

namespace InPlace

variable {α β : Type} {s s' : Site}

/-- Takes the steps from a site. -/
def exec (x : InPlace α) (s : Site) : Attempt CavityError α × Site := StateT.run (ExceptT.run x) s

/-- Looks something up at the site. -/
def read (look : Site → Attempt CavityError α) : InPlace α := fun s => (look s, s)

/-- Changes the site. -/
def write (change : Site → Site) : InPlace Unit := fun s => (.ok (), change s)

theorem exec_bind_of_ok {x : InPlace α} {a : α} (h : x.exec s = (.ok a, s')) (f : α → InPlace β) :
    (x >>= f).exec s = (f a).exec s' := by
  unfold exec at h ⊢
  rw [ExceptT.run_bind, StateT.run_bind, h]
  rfl

theorem exec_bind_of_error {x : InPlace α} {fault : Fault CavityError}
    (h : x.exec s = (.error fault, s')) (f : α → InPlace β) :
    (x >>= f).exec s = (.error fault, s') := by
  unfold exec at h ⊢
  rw [ExceptT.run_bind, StateT.run_bind, h]
  rfl

theorem exec_write_bind (change : Site → Site) (f : Unit → InPlace β) :
    (write change >>= f).exec s = (f ()).exec (change s) := exec_bind_of_ok rfl f

theorem exec_read_bind {look : Site → Attempt CavityError α} {a : α} (h : look s = .ok a)
    (f : α → InPlace β) : (read look >>= f).exec s = (f a).exec s :=
  exec_bind_of_ok (congrArg (·, s) h) f

theorem exec_read_bind_of_error {look : Site → Attempt CavityError α} {fault : Fault CavityError}
    (h : look s = .error fault) (f : α → InPlace β) :
    (read look >>= f).exec s = (.error fault, s) :=
  exec_bind_of_error (congrArg (·, s) h) f

end InPlace

namespace Site

open InPlace

/-- The site with another mesh. -/
def withMesh (s : Site) (m : Mesh) : Site := ⟨m, s.cavity⟩

/-- The site with another deleted list. -/
def withDeleted (s : Site) (deleted : List Nat) : Site := ⟨s.mesh, ⟨deleted, s.cavity.ball⟩⟩

/-- The site with another ball. -/
def withBall (s : Site) (ball : List BallFace) : Site := ⟨s.mesh, ⟨s.cavity.deleted, ball⟩⟩

/-- Marks tetrahedra deleted and lists them, one after the other. -/
def deleteInPlace : List Nat → InPlace Unit
  | [] => pure ()
  | tet :: rest => do
    let mesh ← read (·.mesh.delete tet)
    write (·.withMesh mesh)
    write fun s => s.withDeleted (s.cavity.deleted ++ [tet])
    deleteInPlace rest

/-- Adds the face of a half-face to the ball. -/
def addFace (outer : HalfFace) : InPlace Unit := do
  let face ← read fun s => found (s.mesh.ballFace? outer)
  write fun s => s.withBall (s.cavity.ball ++ [face])

/-- Adds a face for each half-face that bounds the cavity. -/
def addBoundary : List HalfFace → InPlace Unit
  | [] => pure ()
  | inner :: rest => do
    match ← read (·.mesh.outerSide inner) with
    | some outer => addFace outer
    | none => pure ()
    addBoundary rest

/-- Deletes tetrahedra and moves the boundary outward, step by step. -/
def carveInPlace (tets : List Nat) : InPlace Nat := do
  read (·.mesh.checkCarve [] tets)
  let checkpoint ← read fun s => .ok s.cavity.deleted.length
  deleteInPlace tets
  write fun s => s.withBall (s.cavity.ball.filter (·.staysAfter s.mesh tets))
  addBoundary (tets.flatMap HalfFace.ofTet)
  return checkpoint

/-- Removes the faces at some places, one after the other. The answer has their half-faces. -/
def removeFaces : List Nat → InPlace (List HalfFace)
  | [] => pure []
  | place :: rest => do
    let (face, ball) ← read fun s => found (swapRemove? s.cavity.ball place)
    write (·.withBall ball)
    let others ← removeFaces rest
    return face.outer :: others

/-- Adds the faces of those half-faces whose twins were not removed. -/
def exposeFaces (removed : List HalfFace) : List HalfFace → InPlace Unit
  | [] => pure ()
  | inner :: rest => do
    let outer ← read fun s => found (s.mesh.twin? inner)
    if outer ∈ removed then exposeFaces removed rest
    else do
      addFace inner
      exposeFaces removed rest

/-- Gives a deleted tetrahedron back, step by step. -/
def restoreInPlace (tet : Nat) (policy : Policy) : InPlace Unit := do
  let places ← read (·.facesToRemove tet policy)
  let deleted ← read fun s => found (swapErase? s.cavity.deleted tet)
  write (·.withDeleted deleted)
  let mesh ← read (·.mesh.undelete tet)
  write (·.withMesh mesh)
  let removed ← removeFaces places
  exposeFaces removed (HalfFace.ofTet tet)

variable {s s' : Site} {tet : Nat} {tets : List Nat} {policy : Policy}

/-! ## What the steps write -/

theorem exec_deleteInPlace (hlt : ∀ tet ∈ tets, tet < s.mesh.flags.size) :
    (deleteInPlace tets).exec s =
      (.ok (), ⟨tets.foldl (fun m tet => m.mark tet .deleted) s.mesh,
        ⟨s.cavity.deleted ++ tets, s.cavity.ball⟩⟩) := by
  induction tets generalizing s with
  | nil =>
    rw [List.append_nil]
    rfl
  | cons tet rest ih =>
    rw [List.forall_mem_cons] at hlt
    have hmark : s.mesh.delete (ε := CavityError) tet = .ok (s.mesh.mark tet .deleted) := by
      rw [Mesh.delete, Array.getElem?_eq_getElem hlt.1]
      rfl
    have hrest : ∀ u ∈ rest, u < (s.mesh.mark tet .deleted).flags.size := by
      simpa [Mesh.mark] using hlt.2
    rw [deleteInPlace, exec_read_bind hmark, exec_write_bind, exec_write_bind, ih hrest]
    simp [withDeleted, withMesh]

theorem exec_addFace {outer : HalfFace} {face : BallFace}
    (h : s.mesh.ballFace? outer = some face) :
    (addFace outer).exec s = (.ok (), s.withBall (s.cavity.ball ++ [face])) := by
  rw [addFace, exec_read_bind (congrArg found h)]
  rfl

theorem exec_addBoundary {inners sides : List HalfFace} {added : List BallFace}
    (hsides : s.mesh.outerSides inners = (.ok sides : Attempt CavityError _))
    (hadded : s.mesh.ballFaces sides = (.ok added : Attempt CavityError _)) :
    (addBoundary inners).exec s = (.ok (), s.withBall (s.cavity.ball ++ added)) := by
  induction inners generalizing s sides added with
  | nil =>
    cases hsides
    cases hadded
    rw [List.append_nil]
    rfl
  | cons inner rest ih =>
    obtain ⟨first, hfirst, hsides⟩ := bind_eq_ok_iff.1 hsides
    obtain ⟨others, hothers, hsides⟩ := bind_eq_ok_iff.1 hsides
    cases hsides
    rw [addBoundary, exec_read_bind hfirst]
    cases first with
    | none => exact ih hothers hadded
    | some outer =>
      obtain ⟨face, hface, hadded⟩ := bind_eq_ok_iff.1 hadded
      obtain ⟨faces, hfaces, hadded⟩ := bind_eq_ok_iff.1 hadded
      cases hadded
      rw [exec_bind_of_ok (exec_addFace (found_eq_ok_iff.1 hface)),
        ih (s := s.withBall (s.cavity.ball ++ [face])) hothers hfaces]
      simp [withBall]

theorem exec_removeFaces {places : List Nat} {removed rest : List BallFace}
    (h : swapRemoveAll? s.cavity.ball places = some (removed, rest)) :
    (removeFaces places).exec s = (.ok (removed.map (·.outer)), s.withBall rest) := by
  induction places generalizing s removed rest with
  | nil =>
    cases h
    rfl
  | cons place places ih =>
    simp only [swapRemoveAll?, Option.bind_eq_bind, Option.bind_eq_some_iff] at h
    obtain ⟨⟨face, ball⟩, hface, ⟨others, left⟩, hothers, h⟩ := h
    cases h
    rw [removeFaces, exec_read_bind (congrArg found hface), exec_write_bind,
      exec_bind_of_ok (ih (s := s.withBall ball) hothers)]
    rfl

theorem exec_exposeFaces {removed inners exposed : List HalfFace} {added : List BallFace}
    (hexposed : s.mesh.exposed removed inners = (.ok exposed : Attempt CavityError _))
    (hadded : s.mesh.ballFaces exposed = (.ok added : Attempt CavityError _)) :
    (exposeFaces removed inners).exec s = (.ok (), s.withBall (s.cavity.ball ++ added)) := by
  induction inners generalizing s exposed added with
  | nil =>
    cases hexposed
    cases hadded
    rw [List.append_nil]
    rfl
  | cons inner rest ih =>
    obtain ⟨outer, houter, hexposed⟩ := found_bind_eq_ok_iff.1 hexposed
    obtain ⟨others, hothers, hexposed⟩ := bind_eq_ok_iff.1 hexposed
    rw [exposeFaces, exec_read_bind (congrArg found houter)]
    by_cases hmem : outer ∈ removed
    · rw [if_pos hmem] at hexposed ⊢
      cases hexposed
      exact ih hothers hadded
    · rw [if_neg hmem] at hexposed ⊢
      cases hexposed
      obtain ⟨face, hface, hadded⟩ := bind_eq_ok_iff.1 hadded
      obtain ⟨faces, hfaces, hadded⟩ := bind_eq_ok_iff.1 hadded
      cases hadded
      rw [exec_bind_of_ok (exec_addFace (found_eq_ok_iff.1 hface)),
        ih (s := s.withBall (s.cavity.ball ++ [face])) hothers hfaces]
      simp [withBall]

/-! ## How the steps end -/

theorem carveInPlace_of_ok (h : s.InRange) {checkpoint : Nat}
    (hcarve : s.carve tets = .ok (s', checkpoint)) :
    (carveInPlace tets).exec s = (.ok checkpoint, s') := by
  obtain ⟨⟨⟩, hcheck, hcarve⟩ := bind_eq_ok_iff.1 hcarve
  obtain ⟨sides, hsides, hcarve⟩ := bind_eq_ok_iff.1 hcarve
  obtain ⟨added, hadded, hcarve⟩ := bind_eq_ok_iff.1 hcarve
  cases hcarve
  obtain ⟨hall, -⟩ := (Mesh.checkCarve_eq_ok_iff h.mesh).1 hcheck
  have hlt : ∀ tet ∈ tets, tet < s.mesh.flags.size := fun tet ht =>
    h.mesh.flags_size ▸ (hall tet ht).1.1
  rw [carveInPlace, exec_read_bind hcheck, exec_read_bind (a := s.cavity.deleted.length) rfl,
    exec_bind_of_ok (exec_deleteInPlace hlt), exec_write_bind]
  generalize tets.foldl (fun m tet => m.mark tet .deleted) s.mesh = m at *
  exact exec_bind_of_ok (exec_addBoundary (s := ⟨m, _⟩) hsides hadded) _

/-- Carving fails only while it looks. -/
theorem InRange.carve_eq_error_iff (h : s.InRange) {fault : Fault CavityError} :
    s.carve tets = .error fault ↔ s.mesh.checkCarve [] tets = .error fault := by
  refine bind_eq_error_iff_of_ok fun _ hcheck => ?_
  obtain ⟨s', hcarve, -⟩ := h.exists_carve hcheck
  exact ⟨_, hcarve⟩

theorem carveInPlace_of_error (h : s.InRange) {fault : Fault CavityError}
    (hcarve : s.carve tets = .error fault) :
    (carveInPlace tets).exec s = (.error fault, s) :=
  exec_read_bind_of_error (h.carve_eq_error_iff.1 hcarve) _

theorem exec_carveInPlace (h : s.InRange) (tets : List Nat) :
    (carveInPlace tets).exec s = match s.carve tets with
      | .ok (s', checkpoint) => (.ok checkpoint, s')
      | .error fault => (.error fault, s) := by
  cases hcarve : s.carve tets with
  | ok answer => exact carveInPlace_of_ok h hcarve
  | error fault => exact carveInPlace_of_error h hcarve

theorem restoreInPlace_of_ok (h : s.InRange) (hrestore : s.restore tet policy = .ok s') :
    (restoreInPlace tet policy).exec s = (.ok (), s') := by
  obtain ⟨places, hplaces, hback⟩ := bind_eq_ok_iff.1 hrestore
  obtain ⟨-, hlisted, -⟩ := h.facesToRemove_eq_ok hplaces
  obtain ⟨deleted, hdeleted, hback⟩ := bind_eq_ok_iff.1 hback
  obtain ⟨⟨removed, rest⟩, hremoved, hback⟩ := bind_eq_ok_iff.1 hback
  obtain ⟨exposed, hexposed, hback⟩ := bind_eq_ok_iff.1 hback
  obtain ⟨added, hadded, hback⟩ := bind_eq_ok_iff.1 hback
  cases hback
  have hlt : tet < s.mesh.flags.size := h.mesh.flags_size ▸ h.listed_lt tet hlisted
  have hunmark : s.mesh.undelete (ε := CavityError) tet = .ok (s.mesh.unmark tet .deleted) := by
    rw [Mesh.undelete, Array.getElem?_eq_getElem hlt]
    rfl
  rw [restoreInPlace, exec_read_bind hplaces, exec_read_bind hdeleted, exec_write_bind,
    exec_read_bind hunmark, exec_write_bind]
  generalize hsite : (s.withDeleted deleted).withMesh (s.mesh.unmark tet .deleted) = site
  have hball : swapRemoveAll? site.cavity.ball places = some (removed, rest) := by
    rw [← hsite]
    exact found_eq_ok_iff.1 hremoved
  rw [exec_bind_of_ok (exec_removeFaces hball)]
  subst hsite
  exact exec_exposeFaces hexposed hadded

/-- Giving back fails only while it looks. -/
theorem InRange.restore_eq_error_iff (h : s.InRange) {fault : Fault CavityError} :
    s.restore tet policy = .error fault ↔ s.facesToRemove tet policy = .error fault := by
  refine bind_eq_error_iff_of_ok fun places hfaces => ?_
  obtain ⟨-, hlisted, rfl⟩ := h.facesToRemove_eq_ok hfaces
  obtain ⟨s', hback, -⟩ := h.exists_giveBack hlisted
  exact ⟨s', by rw [hfaces, ok_bind, hback]⟩

theorem restoreInPlace_of_error (h : s.InRange) {fault : Fault CavityError}
    (hrestore : s.restore tet policy = .error fault) :
    (restoreInPlace tet policy).exec s = (.error fault, s) :=
  exec_read_bind_of_error (h.restore_eq_error_iff.1 hrestore) _

theorem exec_restoreInPlace (h : s.InRange) (tet : Nat) (policy : Policy) :
    (restoreInPlace tet policy).exec s = match s.restore tet policy with
      | .ok s' => (.ok (), s')
      | .error fault => (.error fault, s) := by
  cases hrestore : s.restore tet policy with
  | ok s' => exact restoreInPlace_of_ok h hrestore
  | error fault => exact restoreInPlace_of_error h hrestore

end Site

/-! ## Why a carving is refused -/

namespace Mesh

/-- What is wrong with a tetrahedron that is named after others. -/
inductive CarveFault (m : Mesh) (named : List Nat) (tet : Nat) : CavityError → Prop where
  | unknown (h : ¬tet < m.size) : CarveFault m named tet (.unknownTetrahedron tet m.size)
  | again (hlt : tet < m.size) (h : m.Deleted tet ∨ tet ∈ named) :
      CarveFault m named tet (.alreadyDeleted tet)

variable {m : Mesh} {named named' before tets rest : List Nat} {tet : Nat} {cause : CavityError}

theorem CarveFault.congr (h : m.CarveFault named tet cause) (hmem : ∀ u, u ∈ named ↔ u ∈ named') :
    m.CarveFault named' tet cause := by
  cases h with
  | unknown h => exact .unknown h
  | again hlt h => exact .again hlt (h.imp_right (hmem tet).1)

/-- Something is wrong with a tetrahedron that does not exist, is deleted or was named. -/
theorem exists_carveFault_iff :
    (∃ cause, m.CarveFault named tet cause) ↔ ¬(tet < m.size ∧ ¬m.Deleted tet ∧ tet ∉ named) := by
  constructor
  · intro ⟨cause, h⟩ ⟨hlt, hsurvives, hnew⟩
    cases h with
    | unknown h => exact h hlt
    | again _ h => exact h.elim hsurvives hnew
  · intro h
    by_cases hlt : tet < m.size
    · exact ⟨_, .again hlt (by tauto)⟩
    · exact ⟨_, .unknown hlt⟩

/-- The check refuses a tetrahedron with which something is wrong. -/
theorem checkCarve_cons_of_fault (hm : m.InRange) (h : m.CarveFault before tet cause) :
    m.checkCarve before (tet :: rest) = refuse cause := by
  rw [checkCarve, checkTet, require]
  cases h with
  | unknown h =>
    rw [if_neg h]
    rfl
  | again hlt h =>
    have hnot : ¬(decide (m.Deleted tet) = false ∧ tet ∉ before) := by
      rw [decide_eq_false_iff_not]
      tauto
    rw [if_pos hlt, ok_bind, hm.deleted?_eq hlt, found_some, ok_bind, require, if_neg hnot]
    rfl

/-- After any other it goes on. -/
theorem checkCarve_cons_of_fine (hm : m.InRange) (h : ¬∃ cause, m.CarveFault before tet cause) :
    m.checkCarve before (tet :: rest) = m.checkCarve (tet :: before) rest := by
  rw [exists_carveFault_iff, not_not] at h
  obtain ⟨hlt, hsurvives, hnew⟩ := h
  rw [checkCarve, checkTet, require, if_pos hlt, ok_bind, hm.deleted?_eq hlt, found_some, ok_bind,
    require, if_pos ⟨decide_eq_false hsurvives, hnew⟩, ok_bind]

/-- A request is refused for its first tetrahedron with which something is wrong. -/
theorem checkCarve_eq_refuse_iff (hm : m.InRange) :
    m.checkCarve before tets = refuse cause ↔ ∃ front tet back, tets = front ++ tet :: back ∧
      m.checkCarve before front = .ok () ∧ m.CarveFault (before ++ front) tet cause := by
  induction tets generalizing before with
  | nil => simp [checkCarve, refuse]
  | cons tet rest ih =>
    have hnamed : ∀ (front : List Nat) (u : Nat),
        u ∈ tet :: before ++ front ↔ u ∈ before ++ tet :: front := fun front u => by
      simp only [List.mem_append, List.mem_cons]
      tauto
    constructor
    · intro h
      by_cases hfault : ∃ cause, m.CarveFault before tet cause
      · obtain ⟨cause', hfault⟩ := hfault
        rw [checkCarve_cons_of_fault hm hfault] at h
        cases h
        exact ⟨[], tet, rest, rfl, rfl, by rwa [List.append_nil]⟩
      · rw [checkCarve_cons_of_fine hm hfault, ih] at h
        obtain ⟨front, u, back, rfl, hfront, hu⟩ := h
        exact ⟨tet :: front, u, back, rfl, checkCarve_cons_of_fine hm hfault ▸ hfront,
          hu.congr (hnamed front)⟩
    · rintro ⟨front, u, back, htets, hfront, hu⟩
      cases front with
      | nil =>
        cases htets
        rw [List.append_nil] at hu
        exact checkCarve_cons_of_fault hm hu
      | cons first front =>
        cases htets
        have hfault : ¬∃ cause, m.CarveFault before tet cause := by
          rintro ⟨cause', hfault⟩
          rw [checkCarve_cons_of_fault hm hfault] at hfront
          cases hfront
        rw [checkCarve_cons_of_fine hm hfault] at hfront ⊢
        exact ih.2 ⟨front, u, back, rfl, hfront, hu.congr fun v => (hnamed front v).symm⟩

end Mesh

/-! ## Why a tetrahedron is not given back -/

namespace Site

/-- The number of faces behind which a tetrahedron lies. -/
def facesInto (s : Site) (tet : Nat) : Nat :=
  s.cavity.ball.countP fun face => (s.mesh.twin face.outer).tet = tet

/-- The number of facets with which a tetrahedron bounds the cavity when it is deleted. -/
def boundingFacets (s : Site) (tet : Nat) : Nat :=
  (HalfFace.ofTet tet).countP (s.mesh.Bounds ·)

/-- What is wrong with a tetrahedron that is to be given back. Of several things the first
counts. -/
inductive RestoreFault (s : Site) (tet : Nat) (policy : Policy) : CavityError → Prop where
  | unknown (h : ¬tet < s.mesh.size) :
      RestoreFault s tet policy (.unknownTetrahedron tet s.mesh.size)
  | notDeleted (hlt : tet < s.mesh.size) (h : ¬s.mesh.Deleted tet) :
      RestoreFault s tet policy (.notDeleted tet)
  | missing (hlt : tet < s.mesh.size) (hdeleted : s.mesh.Deleted tet)
      (h : tet ∉ s.cavity.deleted) : RestoreFault s tet policy (.missingFromDeletedSet tet)
  | mismatch (hlt : tet < s.mesh.size) (hdeleted : s.mesh.Deleted tet)
      (hlisted : tet ∈ s.cavity.deleted) (hchecks : policy.checks = true)
      (h : min 4 (s.facesInto tet) ≠ s.boundingFacets tet) :
      RestoreFault s tet policy
        (.boundaryMismatch tet (min 4 (s.facesInto tet)) (s.boundingFacets tet))

variable {s s' : Site} {tet : Nat} {tets : List Nat} {policy : Policy} {cause : CavityError}

theorem length_take_placesBefore (s : Site) (tet : Nat) :
    ((s.placesBefore tet).take 4).length = min 4 (s.facesInto tet) := by
  rw [List.length_take, placesBefore_eq, length_placesWhere, facesInto]

theorem length_outersOf (s : Site) (tet : Nat) :
    (s.mesh.outersOf tet).length = s.boundingFacets tet := by
  rw [Mesh.outersOf, List.length_map, ← List.countP_eq_length_filter, boundingFacets]

/-- A tetrahedron is refused for the first of the four conditions that it does not meet. -/
theorem restore_eq_refuse_iff (h : s.InRange) :
    s.restore tet policy = refuse cause ↔ s.RestoreFault tet policy cause := by
  have hfaces : s.restore tet policy = refuse cause ↔ s.facesToRemove tet policy = refuse cause :=
    h.restore_eq_error_iff
  rw [hfaces, h.facesToRemove_eq, Mesh.checkTet, length_take_placesBefore, length_outersOf]
  simp only [require_bind_eq_refuse_iff]
  constructor
  · rintro (⟨hlt, rfl⟩ | ⟨hlt, ⟨hsurvives, rfl⟩ | ⟨hdeleted, ⟨hlisted, rfl⟩ | ⟨hlisted, h⟩⟩⟩)
    · exact .unknown hlt
    · exact .notDeleted hlt hsurvives
    · exact .missing hlt hdeleted hlisted
    · rcases h with ⟨hdiffer, rfl⟩ | ⟨-, hok⟩
      · rw [not_or, Bool.not_eq_false] at hdiffer
        exact .mismatch hlt hdeleted hlisted hdiffer.1 (Ne.symm hdiffer.2)
      · cases hok
  · intro hfault
    cases hfault with
    | unknown hlt => exact .inl ⟨hlt, rfl⟩
    | notDeleted hlt hsurvives => exact .inr ⟨hlt, .inl ⟨hsurvives, rfl⟩⟩
    | missing hlt hdeleted hlisted => exact .inr ⟨hlt, .inr ⟨hdeleted, .inl ⟨hlisted, rfl⟩⟩⟩
    | mismatch hlt hdeleted hlisted hchecks hdiffer =>
      refine .inr ⟨hlt, .inr ⟨hdeleted, .inr ⟨hlisted, .inl ⟨?_, rfl⟩⟩⟩⟩
      rw [hchecks]
      simp [Ne.symm hdiffer]

/-! ## What a refusal leaves -/

/-- A request is refused for its first tetrahedron that cannot be carved. -/
theorem carve_eq_refuse_iff (h : s.InRange) :
    s.carve tets = refuse cause ↔ ∃ front tet back, tets = front ++ tet :: back ∧
      (∀ u ∈ front, u < s.mesh.size ∧ ¬s.mesh.Deleted u) ∧ front.Nodup ∧
      s.mesh.CarveFault front tet cause := by
  have hcheck : s.carve tets = refuse cause ↔ s.mesh.checkCarve [] tets = refuse cause :=
    h.carve_eq_error_iff
  rw [hcheck, Mesh.checkCarve_eq_refuse_iff h.mesh]
  simp only [Mesh.checkCarve_eq_ok_iff h.mesh, List.not_mem_nil, not_false_eq_true, and_true,
    List.nil_append, and_assoc]

/-- A request is refused if a tetrahedron does not exist, is deleted already or is named again. -/
theorem carve_refuses_iff (h : s.InRange) :
    (∃ cause, s.carve tets = refuse cause) ↔ ∃ front tet back, tets = front ++ tet :: back ∧
      (¬tet < s.mesh.size ∨ s.mesh.Deleted tet ∨ tet ∈ front) := by
  constructor
  · intro ⟨cause, hcause⟩
    obtain ⟨front, tet, back, htets, -, -, hfault⟩ := (carve_eq_refuse_iff h).1 hcause
    have hnot := Mesh.exists_carveFault_iff.1 ⟨cause, hfault⟩
    exact ⟨front, tet, back, htets, by tauto⟩
  · rintro ⟨front, tet, back, rfl, hbad⟩
    refine (inBounds_iff.1 (h.carve_inBounds _)).resolve_left fun ⟨⟨s', checkpoint⟩, hok⟩ => ?_
    obtain ⟨⟨⟩, hcheck, -⟩ := bind_eq_ok_iff.1 hok
    obtain ⟨hall, hnodup⟩ := (Mesh.checkCarve_eq_ok_iff h.mesh).1 hcheck
    obtain ⟨⟨hlt, hsurvives⟩, -⟩ := hall tet (by simp)
    rcases hbad with hlt' | hdeleted | hnamed
    · exact hlt' hlt
    · exact hsurvives hdeleted
    · exact List.disjoint_of_nodup_append hnodup hnamed List.mem_cons_self

/-- What is carved is listed in the order in which it was named, from the checkpoint on. -/
theorem carve_answer (h : s.InRange) {checkpoint : Nat}
    (hcarve : s.carve tets = .ok (s', checkpoint)) :
    checkpoint = s.cavity.deleted.length ∧ s'.cavity.deleted = s.cavity.deleted ++ tets := by
  obtain ⟨⟨⟩, hcheck, -⟩ := bind_eq_ok_iff.1 hcarve
  obtain ⟨s'', hok, hdeleted, -⟩ := h.exists_carve hcheck
  rw [hcarve] at hok
  cases hok
  exact ⟨rfl, hdeleted⟩

/-- At a site whose lists and links name tetrahedra that exist, consistent or not, carving and
giving back end with an answer or a refusal. Which refusal it is, and when, is known; and the steps
that they take in place end at the site that they answer, or, when they refuse, at the site that
there was. -/
theorem refusals_leave_no_trace (h : s.InRange) :
    (∀ tets : List Nat,
      ((∃ cause, s.carve tets = refuse cause) ↔ ∃ front tet back, tets = front ++ tet :: back ∧
        (¬tet < s.mesh.size ∨ s.mesh.Deleted tet ∨ tet ∈ front)) ∧
      (∀ cause, s.carve tets = refuse cause ↔ ∃ front tet back, tets = front ++ tet :: back ∧
        (∀ u ∈ front, u < s.mesh.size ∧ ¬s.mesh.Deleted u) ∧ front.Nodup ∧
        s.mesh.CarveFault front tet cause) ∧
      (∀ s' checkpoint, s.carve tets = .ok (s', checkpoint) →
        checkpoint = s.cavity.deleted.length ∧
          s'.cavity.deleted = s.cavity.deleted ++ tets) ∧
      s.carve tets ≠ .error .outOfRange ∧
      (carveInPlace tets).exec s = match s.carve tets with
        | .ok (s', checkpoint) => (.ok checkpoint, s')
        | .error fault => (.error fault, s)) ∧
    ∀ (tet : Nat) (policy : Policy),
      (∀ cause, s.restore tet policy = refuse cause ↔ s.RestoreFault tet policy cause) ∧
      s.restore tet policy ≠ .error .outOfRange ∧
      (restoreInPlace tet policy).exec s = match s.restore tet policy with
        | .ok s' => (.ok (), s')
        | .error fault => (.error fault, s) := by
  constructor
  · intro tets
    exact ⟨carve_refuses_iff h, fun _ => carve_eq_refuse_iff h, fun _ _ => carve_answer h,
      h.carve_inBounds tets, exec_carveInPlace h tets⟩
  · intro tet policy
    exact ⟨fun _ => restore_eq_refuse_iff h, h.restore_inBounds tet policy,
      exec_restoreInPlace h tet policy⟩

/-- Of two tetrahedra with repeated corners the first is deleted, and two faces before it are kept
where there should be four. -/
def undercovered : Site :=
  ⟨repeatedCorners.unmark 1 .deleted,
    ⟨[0], [⟨⟨1, 1, 1⟩, ⟨0, 0⟩, .empty⟩, ⟨⟨1, 1, 1⟩, ⟨1, 3⟩, .empty⟩]⟩⟩

/-- The second one is named twice, and the first cannot be given back. -/
theorem refusals_leave_no_trace_undercovered : undercovered.InRange ∧
    undercovered.carve [1, 1] = refuse (.alreadyDeleted 1) ∧
    (carveInPlace [1, 1]).exec undercovered = (refuse (.alreadyDeleted 1), undercovered) ∧
    undercovered.restore 0 .strict = refuse (.boundaryMismatch 0 2 4) ∧
    (restoreInPlace 0 .strict).exec undercovered =
      (refuse (.boundaryMismatch 0 2 4), undercovered) := by
  have hrange : undercovered.InRange := by
    refine ⟨⟨rfl, rfl, rfl, fun {h} hh => ?_⟩, by decide, by decide⟩
    have hall : ∀ h ∈ undercovered.mesh.halfFaces,
        (undercovered.mesh.twin h).tet < undercovered.mesh.size := by decide
    exact hall h (Mesh.mem_halfFaces.2 hh)
  obtain ⟨hcarve, hrestore⟩ := refusals_leave_no_trace hrange
  obtain ⟨-, hcause, -, -, hplace⟩ := hcarve [1, 1]
  obtain ⟨hcause', -, hplace'⟩ := hrestore 0 .strict
  have htwice := (hcause (.alreadyDeleted 1)).2
    ⟨[1], 1, [], rfl, by decide, by decide, .again (by decide) (.inr (by decide))⟩
  have hmismatch := (hcause' (.boundaryMismatch 0 2 4)).2
    (.mismatch (by decide) (by decide) (by decide) rfl (by decide))
  rw [htwice] at hplace
  rw [hmismatch] at hplace'
  exact ⟨hrange, htwice, hplace, hmismatch, hplace'⟩

end Site

end CavityRepair
