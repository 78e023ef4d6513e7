import CavityRepair.Proofs.Cavity.ConstraintRuns
import CavityRepair.Proofs.Mesh.InBounds
/-!
# Staying inside the arrays at a site

A site is in range when every twin of its mesh exists and its lists name tetrahedra that exist. It
need not be consistent: faces may be stale or repeated, tetrahedra may be listed and not deleted,
and corners may be repeated. That much every operation keeps, and with it no operation follows an
index that names no entry, whatever it is asked for.

* `Site.InRange.restore_inBounds`, `Site.InRange.restored`: giving a tetrahedron back.
* `Site.InRange.after`, `Site.InRange.outcome_inBounds`: a request.
* `Site.requests_inBounds`: requests one after the other, from a mesh that was checked.
-/
namespace CavityRepair

/-- A site whose lists and links name tetrahedra that exist. -/
structure Site.InRange (s : Site) : Prop where
  mesh : s.mesh.InRange
  listed_lt : ∀ tet ∈ s.cavity.deleted, tet < s.mesh.size
  outer_lt : ∀ outer ∈ s.cavity.outers, outer.tet < s.mesh.size

namespace Mesh

variable {m : Mesh}

theorem lt_size_of_mem_outersOf (hm : m.InRange) {tet : Nat} (htet : tet < m.size)
    {outer : HalfFace} (h : outer ∈ m.outersOf tet) : outer.tet < m.size := by
  obtain ⟨inner, hinner, rfl⟩ := List.mem_map.1 h
  have hi := HalfFace.mem_ofTet.1 (List.mem_filter.1 hinner).1
  exact hm.twin_lt (hi ▸ htet)

/-! ## Checking -/

/-- The half-faces that are expected exist. -/
theorem lt_size_of_expectedBoundary (hm : m.InRange) {before tets : List Nat}
    {expected result : List HalfFace} (hexpected : ∀ outer ∈ expected, outer.tet < m.size)
    (h : m.expectedBoundary before expected tets = .ok result) :
    ∀ outer ∈ result, outer.tet < m.size := by
  obtain ⟨⟨hdeleted, -⟩, rfl⟩ := (expectedBoundary_eq_ok_iff hm).1 h
  intro outer houter
  rcases mem_foldl_insert.1 houter with hold | hnew
  · exact hexpected outer hold
  · obtain ⟨tet, htet, hmem⟩ := List.mem_flatMap.1 hnew
    exact lt_size_of_mem_outersOf hm (hm.lt_size_of_deleted (hdeleted tet htet).1) hmem

theorem expectedBoundary_inBounds (hm : m.InRange) (before tets : List Nat)
    (expected : List HalfFace) : InBounds (m.expectedBoundary before expected tets) := by
  induction tets generalizing before expected with
  | nil => exact inBounds_ok _
  | cons tet rest ih =>
    refine inBounds_require_bind fun htet => inBounds_found_bind (hm.deleted?_eq htet) ?_
    refine inBounds_require_bind fun _ => inBounds_require_bind fun _ => ?_
    rw [boundary_eq hm (by simpa using htet), ok_bind]
    exact ih _ _

/-- A face is looked up only when its half-face is expected, and so exists. -/
theorem matchFaces_inBounds (hm : m.InRange) {expected : List HalfFace}
    (hexpected : ∀ outer ∈ expected, outer.tet < m.size) (place : Nat) (ball : List BallFace) :
    InBounds (m.matchFaces expected place ball) := by
  induction ball generalizing expected place with
  | nil => exact inBounds_ok _
  | cons face rest ih =>
    refine inBounds_require_bind fun hmem => ?_
    obtain ⟨fresh, hfresh, -⟩ := hm.exists_ballFace (hexpected _ hmem)
    refine inBounds_found_bind hfresh (inBounds_require_bind fun _ => ih ?_ _)
    exact fun outer houter => hexpected outer (List.mem_of_mem_erase houter)

end Mesh

namespace Site

variable {s s' : Site} {policy : Policy}

theorem position_inBounds (s : Site) (vertex : Vertex) : InBounds (s.position vertex) := by
  unfold position
  split
  · exact inBounds_ok _
  · exact inBounds_refuse _

/-- Any cavity whatever can be checked. -/
theorem checkBoundary_inBounds (hm : s.mesh.InRange) (checkpoint : Nat) :
    InBounds (s.checkBoundary checkpoint) := by
  refine inBounds_require_bind fun _ => ?_
  refine (Mesh.expectedBoundary_inBounds hm _ _ _).bind fun expected hexpected => ?_
  have hlt := Mesh.lt_size_of_expectedBoundary hm (List.forall_mem_nil _) hexpected
  refine (Mesh.matchFaces_inBounds hm hlt _ _).bind fun left _ => ?_
  split
  · exact inBounds_ok ()
  · exact inBounds_refuse _

namespace InRange

/-! ## Carving -/

/-- Carving goes through when its tetrahedra are accepted. -/
theorem exists_carve (h : s.InRange) {tets : List Nat}
    (hcheck : s.mesh.checkCarve [] tets = .ok ()) :
    ∃ s', s.carve tets = .ok (s', s.cavity.deleted.length) ∧
      s'.cavity.deleted = s.cavity.deleted ++ tets ∧ s'.InRange := by
  obtain ⟨hall, -⟩ := (Mesh.checkCarve_eq_ok_iff h.mesh).1 hcheck
  have hlt : ∀ tet ∈ tets, tet < s.mesh.size := fun tet ht => (hall tet ht).1.1
  have hform := Mesh.sameForm_foldl_mark s.mesh tets
  unfold carve
  rw [hcheck]
  generalize tets.foldl (fun m tet => m.mark tet .deleted) s.mesh = m' at *
  have hm' : m'.InRange := hform.inRange h.mesh
  have hlt' : ∀ tet ∈ tets, tet < m'.size := fun tet ht => hform.size_eq ▸ hlt tet ht
  have hsides : ∀ outer ∈ tets.flatMap m'.outersOf, outer.tet < m'.size := by
    intro outer houter
    obtain ⟨tet, ht, houter⟩ := List.mem_flatMap.1 houter
    exact Mesh.lt_size_of_mem_outersOf hm' (hlt' tet ht) houter
  obtain ⟨added, hadded, houters, -⟩ := Mesh.ballFaces_spec (ε := CavityError) hm' hsides
  simp only [Mesh.boundary_eq hm' hlt', hadded, ok_bind]
  refine ⟨_, rfl, rfl, hm', ?_, ?_⟩
  · exact List.forall_mem_append.2 ⟨fun tet ht => hform.size_eq ▸ h.listed_lt tet ht, hlt'⟩
  · rw [Cavity.outers, List.map_append, houters, List.forall_mem_append]
    refine ⟨fun outer houter => hform.size_eq ▸ h.outer_lt outer ?_, hsides⟩
    exact (List.filter_sublist.map _).subset houter

theorem carve_inBounds (h : s.InRange) (tets : List Nat) : InBounds (s.carve tets) := by
  rcases Mesh.checkCarve_refusesOnly h.mesh [] tets with ⟨⟨⟩, hok⟩ | ⟨cause, hrefused, -⟩
  · obtain ⟨s', hcarve, -⟩ := h.exists_carve hok
    exact hcarve ▸ inBounds_ok _
  · unfold carve
    rw [hrefused]
    exact inBounds_refuse cause

theorem carved (h : s.InRange) {tets : List Nat} {checkpoint : Nat}
    (hcarve : s.carve tets = .ok (s', checkpoint)) : s'.InRange := by
  obtain ⟨_, hcheck, -⟩ := bind_eq_ok_iff.1 hcarve
  obtain ⟨s'', hcarve', -, hrange⟩ := h.exists_carve hcheck
  rw [hcarve] at hcarve'
  cases hcarve'
  exact hrange

/-! ## Restoring -/

/-- In what order a tetrahedron is found wanting, and which faces go with it. -/
theorem facesToRemove_eq (h : s.InRange) (tet : Nat) (policy : Policy) :
    s.facesToRemove tet policy = (do
      s.mesh.checkTet tet
      require (s.mesh.Deleted tet) (.notDeleted tet)
      require (tet ∈ s.cavity.deleted) (.missingFromDeletedSet tet)
      require (policy.checks = false ∨
          (s.mesh.outersOf tet).length = ((s.placesBefore tet).take 4).length)
        (.boundaryMismatch tet ((s.placesBefore tet).take 4).length (s.mesh.outersOf tet).length)
      return (s.placesBefore tet).take 4) := by
  have hbefore : ∀ entry ∈ s.cavity.ball.zipIdx.reverse, entry.1.outer.tet < s.mesh.size := by
    intro entry hentry
    rw [List.mem_reverse, List.mem_zipIdx_iff_getElem?] at hentry
    exact h.outer_lt _ (mem_outers_of_mem_ball (List.mem_of_getElem? hentry))
  have htake : (s.mesh.facesBefore tet 4 s.cavity.ball.zipIdx.reverse : Attempt CavityError _) =
      .ok ((s.placesBefore tet).take 4) := by
    rw [Mesh.facesBefore_eq h.mesh hbefore, List.map_take, placesBefore]
  unfold facesToRemove
  rw [htake, Mesh.checkTet]
  by_cases hlt : tet < s.mesh.size
  · have hboundary : (s.mesh.boundary [tet] : Attempt CavityError _) =
        .ok (s.mesh.outersOf tet) := by
      rw [Mesh.boundary_eq h.mesh (by simpa using hlt), List.flatMap_singleton]
    simp only [h.mesh.deleted?_eq hlt, hboundary, found_some, ok_bind, decide_eq_true_eq]
    cases policy.checks with
    | false => rfl
    | true => simp [require]
  · simp only [require, hlt, if_false]
    rfl

/-- What is given back is deleted and listed, and its faces are the last of those before it. -/
theorem facesToRemove_eq_ok (h : s.InRange) {tet : Nat} {places : List Nat}
    (hfaces : s.facesToRemove tet policy = .ok places) :
    s.mesh.Deleted tet ∧ tet ∈ s.cavity.deleted ∧ places = (s.placesBefore tet).take 4 := by
  rw [h.facesToRemove_eq, Mesh.checkTet] at hfaces
  simp only [require_bind_eq_ok_iff] at hfaces
  obtain ⟨-, hdeleted, hlisted, -, hplaces⟩ := hfaces
  cases hplaces
  exact ⟨hdeleted, hlisted, rfl⟩

/-- A listed tetrahedron can be given back with faces before it. -/
theorem exists_giveBack (h : s.InRange) {tet : Nat} (hlisted : tet ∈ s.cavity.deleted) :
    ∃ s', s.giveBack tet ((s.placesBefore tet).take 4) = .ok s' ∧ s'.InRange := by
  have hform := Mesh.sameForm_unmark_deleted s.mesh tet
  have hm' : (s.mesh.unmark tet .deleted).InRange := hform.inRange h.mesh
  have hinner : ∀ inner ∈ HalfFace.ofTet tet, inner.tet < (s.mesh.unmark tet .deleted).size := by
    intro inner hi
    rw [HalfFace.mem_ofTet.1 hi]
    exact h.listed_lt tet hlisted
  obtain ⟨deleted, herase, hdeleted⟩ := exists_swapErase? hlisted
  have hplaces : ∀ place ∈ (s.placesBefore tet).take 4, place < s.cavity.ball.length := by
    intro place hplace
    obtain ⟨face, hface, -⟩ := mem_placesBefore.1 (List.mem_of_mem_take hplace)
    exact (List.getElem?_eq_some_iff.1 hface).1
  obtain ⟨removed, rest, hall, -, hperm⟩ :=
    exists_swapRemoveAll? ((s.placesBefore_desc tet).sublist (List.take_sublist 4 _)) hplaces
  obtain ⟨added, hadded, houters, -⟩ := Mesh.ballFaces_spec (ε := CavityError) hm'
    (fun outer houter => hinner outer (List.mem_filter.1 houter).1 :
      ∀ outer ∈ (HalfFace.ofTet tet).filter
        (fun inner => (s.mesh.unmark tet .deleted).twin inner ∉ removed.map (·.outer)), _)
  refine ⟨⟨s.mesh.unmark tet .deleted, ⟨deleted, rest ++ added⟩⟩, ?_, hm', ?_, ?_⟩
  · unfold giveBack
    simp only [herase, hall, found_some, ok_bind]
    rw [Mesh.exposed_eq hm' hinner, ok_bind, hadded]
    rfl
  · exact fun u hu => h.listed_lt u (hdeleted.mem_iff.2 (List.mem_cons_of_mem _ hu))
  · rw [Cavity.outers, List.map_append, houters, List.forall_mem_append]
    constructor
    · intro outer houter
      obtain ⟨face, hface, rfl⟩ := List.mem_map.1 houter
      exact h.outer_lt _ (mem_outers_of_mem_ball (hperm.mem_iff.2 (List.mem_append_right _ hface)))
    · exact fun outer houter => hinner outer (List.mem_filter.1 houter).1

theorem restore_inBounds (h : s.InRange) (tet : Nat) (policy : Policy) :
    InBounds (s.restore tet policy) := by
  have hfaces : InBounds (s.facesToRemove tet policy) := by
    rw [h.facesToRemove_eq]
    exact inBounds_require_bind fun _ => inBounds_require_bind fun _ =>
      inBounds_require_bind fun _ => inBounds_require_bind fun _ => inBounds_ok _
  refine hfaces.bind fun places hplaces => ?_
  obtain ⟨-, hlisted, rfl⟩ := h.facesToRemove_eq_ok hplaces
  obtain ⟨s', hback, -⟩ := h.exists_giveBack hlisted
  exact hback ▸ inBounds_ok s'

theorem restored (h : s.InRange) {tet : Nat} (hrestore : s.restore tet policy = .ok s') :
    s'.InRange := by
  obtain ⟨places, hplaces, hback⟩ := bind_eq_ok_iff.1 hrestore
  obtain ⟨-, hlisted, rfl⟩ := h.facesToRemove_eq_ok hplaces
  obtain ⟨s'', hback', hrange⟩ := h.exists_giveBack hlisted
  rw [hback] at hback'
  cases hback'
  exact hrange

/-! ## Reshaping -/

variable [Orient3d]

theorem repair?_inBounds (h : s.InRange) {p : Point} {attempt : Attempt CavityError (Nat × Site)}
    (hrepair : s.repair? p policy = some attempt) : InBounds attempt := by
  obtain ⟨place, hblind, rfl⟩ := Option.map_eq_some_iff.1 hrepair
  obtain ⟨hplace, -⟩ := List.findIdx?_eq_some_iff_getElem.1 hblind
  have hface := List.getElem?_eq_getElem hplace
  have hlt := h.outer_lt _ (mem_outers_of_mem_ball (List.getElem_mem hplace))
  refine InBounds.bind (x := s.behind place) ?_ fun tet _ => ?_
  · exact inBounds_found_bind hface (inBounds_found_bind (h.mesh.twin?_eq hlt) (inBounds_ok _))
  · exact (h.restore_inBounds tet policy).bind fun _ _ => inBounds_ok _

theorem repaired (h : s.InRange) {p : Point} {tet : Nat}
    (hrepair : s.repair? p policy = some (.ok (tet, s'))) : s'.InRange := by
  obtain ⟨place, -, hrepair⟩ := Option.map_eq_some_iff.1 hrepair
  obtain ⟨tet', -, hrepair⟩ := bind_eq_ok_iff.1 hrepair
  obtain ⟨site, hsite, hrepair⟩ := bind_eq_ok_iff.1 hrepair
  cases hrepair
  exact h.restored hsite

/-- Shrinking stays inside the arrays, also when it is given up. -/
theorem shrink (h : s.InRange) (p : Point) (policy : Policy) :
    InBounds (s.shrink p policy).outcome ∧ (s.shrink p policy).site.InRange := by
  fun_induction Site.shrink s p policy with
  | case1 s hr => exact ⟨inBounds_ok (), h⟩
  | case2 s fault hr => exact ⟨(h.repair?_inBounds hr).fault rfl, h⟩
  | case3 s tet next hr later ih => exact ih (h.repaired hr)

theorem reshape (h : s.InRange) (vertex : Vertex) (checkpoint : Nat) (policy : Policy) :
    InBounds (s.reshape vertex checkpoint policy).outcome ∧
      (s.reshape vertex checkpoint policy).site.InRange := by
  have hcheck : InBounds (s.checkReshape vertex checkpoint policy) := by
    refine (s.position_inBounds vertex).bind fun p _ => inBounds_require_bind fun _ => ?_
    split
    · exact (checkBoundary_inBounds h.mesh checkpoint).bind fun _ _ => inBounds_ok p
    · exact inBounds_ok p
  unfold Site.reshape
  split
  · exact ⟨hcheck.fault (by assumption), h⟩
  · exact h.shrink _ policy

end InRange

end Site

/-! ## Rescuing -/

theorem Mesh.visitRing_inBounds {m : Mesh} (hm : m.InRange) (policy : Policy)
    {ring : List RingStep} (hlt : ∀ step ∈ ring, step.tet < m.size) (visited : List (Nat × Edge)) :
    InBounds (m.visitRing policy visited ring) := by
  induction ring generalizing visited with
  | nil => exact inBounds_ok _
  | cons step rest ih =>
    rw [List.forall_mem_cons] at hlt
    refine inBounds_require_bind fun _ => inBounds_found_bind (hm.deleted?_eq hlt.1) ?_
    exact (ih hlt.2 _).bind fun _ _ => inBounds_ok _

namespace Rescue

variable {r : Rescue} {goal : RescueGoal} {tet : Nat}

theorem giveBack_inRange (h : r.site.InRange) (goal : RescueGoal) (tet : Nat) :
    (r.giveBack goal tet).rescue.site.InRange := by
  unfold giveBack
  split
  · exact h
  · rename_i mesh hmesh
    obtain rfl := Mesh.setColor_eq_ok hmesh
    have hpainted : Site.InRange ⟨r.site.mesh.paint tet goal.color, r.site.cavity⟩ :=
      ⟨(Mesh.sameForm_paint _ _ _).inRange h.mesh, h.listed_lt, h.outer_lt⟩
    dsimp only
    split
    · exact hpainted
    · exact hpainted.restored (by assumption)

theorem giveBack_inBounds (h : r.site.InRange) (goal : RescueGoal)
    (htet : tet < r.site.mesh.size) : InBounds (r.giveBack goal tet).outcome := by
  have hpainted : Site.InRange ⟨r.site.mesh.paint tet goal.color, r.site.cavity⟩ :=
    ⟨(Mesh.sameForm_paint _ _ _).inRange h.mesh, h.listed_lt, h.outer_lt⟩
  have hrestore := hpainted.restore_inBounds tet goal.policy
  unfold giveBack
  rw [Mesh.exists_setColor h.mesh htet]
  dsimp only
  split
  · exact hrestore.fault (by assumption)
  · exact inBounds_ok ()

theorem walk_inRange (h : r.site.InRange) (goal : RescueGoal) (tet : Nat) (edge : Edge) :
    (r.walk goal tet edge).rescue.site.InRange := by
  obtain ⟨visited, rings, heq | ⟨member, heq⟩⟩ := r.walk_eq goal tet edge <;> rw [heq]
  · exact h
  · exact giveBack_inRange (r := ⟨r.site, visited, rings, r.restored⟩) h goal member

/-- The members of a ring that was walked exist, and so does the one that is given back. -/
theorem walk_inBounds (h : r.site.InRange) (goal : RescueGoal) (htet : tet < r.site.mesh.size)
    (edge : Edge) : InBounds (r.walk goal tet edge).outcome := by
  have hring := inBounds_withCause_iff (f := CavityError.ring).2
    (Mesh.ring_inBounds h.mesh htet edge)
  unfold walk
  dsimp only
  split
  · exact hring.fault (by assumption)
  · rename_i ring hwalked
    have hlt : ∀ step ∈ ring, step.tet < r.site.mesh.size := fun step hstep =>
      Mesh.lt_size_of_mem_ring (withCause_eq_ok_iff.1 hwalked) hstep
    have hvisit := Mesh.visitRing_inBounds h.mesh goal.policy hlt r.visited
    split
    · exact hvisit.fault (by assumption)
    · split
      · split
        · exact inBounds_refuse _
        · rename_i visited _ _ _ _ member hmember
          obtain ⟨⟨step, hstep, rfl, -⟩, -⟩ := Mesh.mem_of_farthestMember? hmember
          exact giveBack_inBounds (r := ⟨r.site, visited, ring :: r.rings, r.restored⟩) h goal
            (hlt step hstep)
      · exact inBounds_ok ()

theorem sweep_inBounds (h : r.site.InRange) (goal : RescueGoal) {pairs : List (Nat × Edge)}
    (hpairs : ∀ pair ∈ pairs, pair.1 < r.site.mesh.size) :
    InBounds (r.sweep goal pairs).outcome := by
  induction pairs generalizing r with
  | nil => exact inBounds_ok ()
  | cons pair rest ih =>
    obtain ⟨tet, edge⟩ := pair
    rw [List.forall_mem_cons] at hpairs
    obtain ⟨due, hdue⟩ := exists_isDue (ε := CavityError) h.mesh hpairs.1 edge
    have hwalk := walk_inBounds h goal hpairs.1 edge
    unfold sweep
    rw [hdue]
    cases due with
    | false => exact ih h hpairs.2
    | true =>
      dsimp only
      split
      · exact hwalk
      · have hsize := (Site.sameForm_walk r goal tet edge).size_eq
        exact ih (walk_inRange h goal tet edge) (hsize ▸ hpairs.2)

theorem run_inRange (h : r.site.InRange) (goal : RescueGoal) (fresh : List Nat) :
    (r.run goal fresh).rescue.site.InRange := by
  refine run_invariant (P := fun r => r.site.InRange) (fun hr _ => walk_inRange hr _ _ _)
    (fun hr hmesh => ?_) h fresh
  have hform := (Mesh.paintDeleted_eq_ok hmesh).1
  exact ⟨hform.inRange hr.mesh, hform.size_eq ▸ hr.listed_lt, hform.size_eq ▸ hr.outer_lt⟩

theorem run_inBounds (h : r.site.InRange) (goal : RescueGoal) {fresh : List Nat}
    (hfresh : ∀ tet ∈ fresh, tet < r.site.mesh.size) : InBounds (r.run goal fresh).outcome := by
  have hsweep := sweep_inBounds h goal fun pair hpair => hfresh pair.1 (mem_edgesOf.1 hpair)
  have hrange : (r.sweep goal (edgesOf fresh)).rescue.site.InRange :=
    sweep_invariant (P := fun r => r.site.InRange) (fun hr _ => walk_inRange hr _ _ _) h _
  have hsize : (r.sweep goal (edgesOf fresh)).rescue.site.mesh.size = r.site.mesh.size :=
    sweep_invariant (P := fun r' => r'.site.mesh.size = r.site.mesh.size)
      (fun hr _ => (Site.sameForm_walk _ _ _ _).size_eq.trans hr) rfl _
  obtain ⟨mesh, hmesh⟩ := Mesh.exists_paintDeleted (ε := CavityError) hrange.mesh
    (fun tet htet => hsize ▸ hfresh tet htet) goal.color
  unfold run
  dsimp only
  split
  · exact hsweep
  · rw [hmesh]
    exact hsweep

end Rescue

namespace Site

variable {s : Site}

theorem InRange.rescue [Orient3d] (h : s.InRange) (vertex : Vertex) (color : UInt16)
    (checkpoint : Nat) (policy : Policy) :
    InBounds (s.rescue vertex color checkpoint policy).outcome ∧
      (s.rescue vertex color checkpoint policy).rescue.site.InRange := by
  have hcheck : InBounds (s.checkRescue vertex checkpoint) :=
    (s.position_inBounds vertex).bind fun _ _ => inBounds_require_bind fun _ => inBounds_ok _
  have hlt : ∀ tet ∈ s.cavity.deleted.drop checkpoint, tet < s.mesh.size := fun tet ht =>
    h.listed_lt tet (List.mem_of_mem_drop ht)
  unfold Site.rescue
  dsimp only
  split
  · exact ⟨hcheck.fault (by assumption), h⟩
  · rename_i p _
    split
    · exact ⟨inBounds_ok (), h⟩
    · rename_i start others hdrop
      rw [hdrop] at hlt
      have hstart := (checkStart_refusesOnly (hlt start List.mem_cons_self) vertex p
        policy).ne_outOfRange
      split
      · exact ⟨InBounds.fault hstart (by assumption), h⟩
      · exact ⟨Rescue.run_inBounds (r := ⟨s, [], [], []⟩) h _ hlt,
          Rescue.run_inRange (r := ⟨s, [], [], []⟩) h _ _⟩

end Site

/-! ## Requests -/

/-- What can be asked of a site: calls, marks that are set and cleared by hand, and questions. -/
inductive Request where
  | call (call : Call)
  | delete (tet : Nat)
  | undelete (tet : Nat)
  | checkBoundary (checkpoint : Nat)
  | contains (tet : Nat) (p : Point)
  | ring (tet : Nat) (edge : Edge)
  deriving DecidableEq, Repr

/-- Whether the tetrahedra that a request may not name by a wrong index are below some size. All
others may be anything. -/
def Request.InRange (size : Nat) : Request → Prop
  | .call (.setColor tet _) | .delete tet | .undelete tet | .contains tet _ | .ring tet _ =>
    tet < size
  | .call _ | .checkBoundary _ => True

namespace Site

/-- What a request leaves behind, whether it succeeds or not. -/
def afterRequest [Orient3d] (s : Site) : Request → Site
  | .call call => s.after call
  | .delete tet => s.edit (.delete tet)
  | .undelete tet => s.edit (.undelete tet)
  | .checkBoundary _ | .contains .. | .ring .. => s

/-- What requests leave behind. -/
def afterRequests [Orient3d] (s : Site) (requests : List Request) : Site :=
  requests.foldl afterRequest s

/-- How a request ends. -/
def answer [Orient3d] (s : Site) : Request → Attempt (MeshError ⊕ CavityError) Unit
  | .call call => s.outcome call
  | .delete tet => ending .inl (s.mesh.edit (.delete tet))
  | .undelete tet => ending .inl (s.mesh.edit (.undelete tet))
  | .checkBoundary checkpoint => ending .inr (s.checkBoundary checkpoint)
  | .contains tet p => ending .inr (found (s.mesh.contains? tet p))
  | .ring tet edge => ending (fun cause => .inr (.ring cause)) (s.mesh.ring tet edge)

variable {s : Site} {m : Mesh}

/-- Without tetrahedra in its lists, a site is in range when its mesh is. -/
theorem inRange_empty (hm : m.InRange) : InRange ⟨m, .empty⟩ :=
  ⟨hm, List.forall_mem_nil _, List.forall_mem_nil _⟩

theorem inBounds_ending_iff {ε δ α : Type} {f : ε → δ} {x : Attempt ε α} :
    InBounds (ending f x) ↔ InBounds x :=
  not_congr ending_eq_outOfRange_iff

namespace InRange

theorem of_sameShape (h : s.InRange) (hshape : s.mesh.SameShape m) : InRange ⟨m, s.cavity⟩ :=
  ⟨hshape.inRange h.mesh, hshape.size_eq ▸ h.listed_lt, hshape.size_eq ▸ h.outer_lt⟩

theorem edit (h : s.InRange) (edit : MeshEdit) :
    (s.edit edit).InRange ∧ (s.edit edit).mesh.size = s.mesh.size := by
  rcases s.edit_cases edit with ⟨mesh, hedit, heq⟩ | ⟨fault, -, heq⟩ <;> rw [heq]
  · have hshape := Mesh.sameShape_of_edit h.mesh hedit
    exact ⟨h.of_sameShape hshape, hshape.size_eq⟩
  · exact ⟨h, rfl⟩

variable [Orient3d]

theorem after (h : s.InRange) (call : Call) : (s.after call).InRange := by
  cases call with
  | addVertex p => exact (h.edit _).1
  | setColor tet color => exact (h.edit _).1
  | constrainEdge a b => exact (h.edit _).1
  | constrainFacet a b c => exact (h.edit _).1
  | carve tets =>
    unfold Site.after
    dsimp only
    split
    · exact h.carved (by assumption)
    · exact h
  | restore tet policy =>
    unfold Site.after
    dsimp only
    split
    · exact h.restored (by assumption)
    · exact h
  | reshape vertex checkpoint policy => exact (h.reshape vertex checkpoint policy).2
  | rescue vertex color checkpoint policy => exact (h.rescue vertex color checkpoint policy).2

/-- A request keeps the site in range, and adds no tetrahedra. -/
theorem afterRequest (h : s.InRange) (request : Request) :
    (s.afterRequest request).InRange ∧ (s.afterRequest request).mesh.size = s.mesh.size := by
  cases request with
  | call call => exact ⟨h.after call, (sameShape_after h.mesh call).size_eq⟩
  | delete tet => exact h.edit _
  | undelete tet => exact h.edit _
  | checkBoundary checkpoint => exact ⟨h, rfl⟩
  | contains tet p => exact ⟨h, rfl⟩
  | ring tet edge => exact ⟨h, rfl⟩

theorem outcome_inBounds (h : s.InRange) {call : Call}
    (hcall : (Request.call call).InRange s.mesh.size) : InBounds (s.outcome call) := by
  cases call with
  | addVertex p => exact inBounds_ending_iff.2 (s.mesh.addVertex_inBounds p)
  | setColor tet color => exact inBounds_ending_iff.2 (Mesh.edit_inBounds h.mesh hcall)
  | constrainEdge a b => exact inBounds_ending_iff.2 (Mesh.edit_inBounds h.mesh trivial)
  | constrainFacet a b c => exact inBounds_ending_iff.2 (Mesh.edit_inBounds h.mesh trivial)
  | carve tets => exact inBounds_ending_iff.2 (h.carve_inBounds tets)
  | restore tet policy => exact inBounds_ending_iff.2 (h.restore_inBounds tet policy)
  | reshape vertex checkpoint policy =>
    exact inBounds_ending_iff.2 (h.reshape vertex checkpoint policy).1
  | rescue vertex color checkpoint policy =>
    exact inBounds_ending_iff.2 (h.rescue vertex color checkpoint policy).1

theorem answer_inBounds (h : s.InRange) {request : Request}
    (hrequest : request.InRange s.mesh.size) : InBounds (s.answer request) := by
  cases request with
  | call call => exact h.outcome_inBounds hrequest
  | delete tet => exact inBounds_ending_iff.2 (Mesh.edit_inBounds h.mesh hrequest)
  | undelete tet => exact inBounds_ending_iff.2 (Mesh.edit_inBounds h.mesh hrequest)
  | checkBoundary checkpoint =>
    exact inBounds_ending_iff.2 (checkBoundary_inBounds h.mesh checkpoint)
  | contains tet p =>
    obtain ⟨nodes, hn⟩ := Mesh.exists_nodes hrequest
    refine inBounds_ending_iff.2 fun hout => ?_
    rw [found_eq_outOfRange_iff, Mesh.contains?, hn] at hout
    cases hout
  | ring tet edge => exact inBounds_ending_iff.2 (Mesh.ring_inBounds h.mesh hrequest edge)

theorem afterRequests (h : s.InRange) (requests : List Request) :
    (s.afterRequests requests).InRange ∧
      (s.afterRequests requests).mesh.size = s.mesh.size := by
  induction requests generalizing s with
  | nil => exact ⟨h, rfl⟩
  | cons request rest ih =>
    obtain ⟨hrange, hsize⟩ := h.afterRequest request
    obtain ⟨hrange', hsize'⟩ := ih hrange
    exact ⟨hrange', hsize'.trans hsize⟩

end InRange

/-- Any mesh whatever can be checked. If it is accepted, no request after any others follows an
index that names no entry: it ends with an answer or a refusal, provided that the tetrahedra exist
that it may not name wrongly. A walk around an edge notes at most one step more than there are
tetrahedra. -/
theorem requests_inBounds [Orient3d] (m : Mesh) : m.validate ≠ .error .outOfRange ∧
    (m.validate = .ok () → ∀ requests : List Request,
      (∀ request : Request, request.InRange m.size →
        (afterRequests ⟨m, .empty⟩ requests).answer request = .ok () ∨
          ∃ cause, (afterRequests ⟨m, .empty⟩ requests).answer request = refuse cause) ∧
      ∀ tet edge,
        (afterRequests ⟨m, .empty⟩ requests).mesh.ring tet edge =
          ((afterRequests ⟨m, .empty⟩ requests).mesh.traceRing tet edge).answer ∧
        ((afterRequests ⟨m, .empty⟩ requests).mesh.traceRing tet edge).steps.length ≤
          m.size + 1) := by
  refine ⟨m.validate_inBounds, fun hvalid requests => ?_⟩
  have hempty := inRange_empty (Mesh.linked_of_validate hvalid).toInRange
  obtain ⟨hrange, hsize⟩ := hempty.afterRequests requests
  refine ⟨fun request hrequest => ?_, fun tet edge => ⟨Mesh.ring_eq_answer _ tet edge, ?_⟩⟩
  · have hin := hrange.answer_inBounds (hsize ▸ hrequest)
    rcases inBounds_iff.1 hin with ⟨⟨⟩, hok⟩ | hrefused
    · exact .inl hok
    · exact .inr hrefused
  · exact hsize ▸ Mesh.length_traceRing_le _ tet edge

/-- Two tetrahedra with repeated corners that have no position, and all flags set. They share one
triangle; their other half-faces are their own twins. -/
def repeatedCorners : Mesh where
  vertices := #[⟨0, 0, 0⟩]
  nodes := #[⟨1, 1, 1, 1⟩, ⟨1, 1, 1, 2⟩]
  twins := #[⟨⟨0, 0⟩, ⟨1, 3⟩, ⟨0, 2⟩, ⟨0, 3⟩⟩, ⟨⟨1, 0⟩, ⟨1, 1⟩, ⟨1, 2⟩, ⟨0, 1⟩⟩]
  flags := #[⟨0xffff⟩, ⟨0xffff⟩]
  colors := #[0, 0]

/-- What is asked of them. The fourth request is refused and the last one is given up. -/
def repeatedRequests : List Request :=
  [.undelete 0, .undelete 1, .call (.carve [1, 0]), .checkBoundary 3, .call (.restore 1 .strict),
    .call (.carve [1]), .call (.rescue 0 7 0 .fast)]

/-- The check accepts them, although a walk around an edge does not come back and is given up when
it has noted three steps. -/
theorem requests_inBounds_repeated : repeatedCorners.validate = .ok () ∧
    (afterRequests ⟨repeatedCorners, .empty⟩ repeatedRequests).cavity.deleted = [0, 1] ∧
    (afterRequests ⟨repeatedCorners, .empty⟩ repeatedRequests).answer (.ring 0 0) =
      refuse (.inr (.ring (.notClosed 0 0 3))) ∧
    ((afterRequests ⟨repeatedCorners, .empty⟩ repeatedRequests).mesh.traceRing 0 0).steps.length =
      3 ∧
    ∀ request : Request, request.InRange 2 →
      (afterRequests ⟨repeatedCorners, .empty⟩ repeatedRequests).answer request = .ok () ∨
        ∃ cause, (afterRequests ⟨repeatedCorners, .empty⟩ repeatedRequests).answer request =
          refuse cause := by
  have hvalid : repeatedCorners.validate = .ok () := by decide +kernel
  refine ⟨hvalid, by decide +kernel, by decide +kernel, by decide +kernel, ?_⟩
  exact ((requests_inBounds repeatedCorners).2 hvalid repeatedRequests).1

end Site

end CavityRepair
