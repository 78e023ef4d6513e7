import CavityRepair.Proofs.Mesh.Hull
import CavityRepair.Proofs.Mesh.Rings
import Mathlib.Logic.Relation
/-!
# Rings are simple cycles

Around an edge of a mesh that was built stands one closed cycle of tetrahedra, ghosts included, and
`Mesh.ring` lists it (`Mesh.RingAround`). Each tetrahedron is joined to the next, and the last to
the first, by the facet of the edge and one apex; no tetrahedron comes twice, and none that can be
reached through facets at the edge is left out, as a tetrahedron has only two such facets and the
cycle goes through both. A walk that starts elsewhere on the cycle lists the same
(`Mesh.Closed.exists_ringAround`).
-/
namespace CavityRepair

namespace Turn

variable {x : Turn}

/-- The two slots that are on the edge and the two facets at it are all there are. -/
theorem slots_cases (hx : x.entry ≠ x.exit) (i : Slot) :
    i = x.edge.slots.1 ∨ i = x.edge.slots.2 ∨ i = x.entry ∨ i = x.exit := by
  have hall : ∀ (e : Edge) (i : Slot),
      i = e.slots.1 ∨ i = e.slots.2 ∨ i = e.facets.1 ∨ i = e.facets.2 := by decide
  have hslot := hall x.edge i
  rcases Edge.facets_of_ofFacets? (ofFacets?_edge hx) with h | h <;> rw [h] at hslot
  · exact hslot
  · exact hslot.imp_right (Or.imp_right Or.symm)

theorem slots_ne (hx : x.entry ≠ x.exit) :
    (x.edge.slots.1 ≠ x.entry ∧ x.edge.slots.1 ≠ x.exit) ∧
      x.edge.slots.2 ≠ x.entry ∧ x.edge.slots.2 ≠ x.exit := by
  have hslots := x.edge.slots_ne
  rcases Edge.facets_of_ofFacets? (ofFacets?_edge hx) with h | h <;> rw [h] at hslots
  · exact hslots
  · exact ⟨hslots.1.symm, hslots.2.symm⟩

end Turn

namespace Mesh

/-- A facet with both ends of an edge leads from one tetrahedron to another. -/
def CrossesAt (m : Mesh) (ends : Finset Vertex) (t u : Nat) : Prop :=
  ∃ f corners across, m.cornerSet? ⟨t, f⟩ = some corners ∧ ends ⊆ corners ∧
    m.twin? ⟨t, f⟩ = some across ∧ across.tet = u

/-- A list of steps is the cycle around an edge with these ends, from one of its tetrahedra. -/
structure RingAround (m : Mesh) (ends : Finset Vertex) (tet : Nat) (edge : Edge)
    (ring : List RingStep) : Prop where
  /-- The tetrahedron itself comes first. -/
  head : (ring.head?.map fun step => (step.tet, step.edge)) = some (tet, edge)
  /-- No tetrahedron comes twice. -/
  distinct : (ring.map (·.tet)).Nodup
  /-- The tetrahedra are those that can be reached through facets at the edge. -/
  reachable : ∀ u, u ∈ ring.map (·.tet) ↔ Relation.ReflTransGen (m.CrossesAt ends) tet u
  /-- The edge of each joins the ends, and the apexes are its other two corners. -/
  corners : ∀ step ∈ ring, ∃ nodes, m.nodes[step.tet]? = some nodes ∧
    {nodes.get step.edge.slots.1, nodes.get step.edge.slots.2} = ends ∧
    nodes.toList.Perm [nodes.get step.edge.slots.1, nodes.get step.edge.slots.2,
      step.apexes.1, step.apexes.2]
  /-- Each is joined to the next, and the last to the first, by the facet of the ends and the apex
  that the walk carries over. -/
  cyclic : ∀ k here there, ring[k]? = some here → ring[(k + 1) % ring.length]? = some there →
    there.apexes.2 = here.apexes.1 ∧ ∃ f g,
      m.twin? ⟨here.tet, f⟩ = some ⟨there.tet, g⟩ ∧ m.twin? ⟨there.tet, g⟩ = some ⟨here.tet, f⟩ ∧
      m.cornerSet? ⟨here.tet, f⟩ = some (insert here.apexes.1 ends) ∧
      m.cornerSet? ⟨there.tet, g⟩ = some (insert here.apexes.1 ends)
  /-- From any of its members the walk lists the same tetrahedra, each with the same edge. -/
  same : ∀ step ∈ ring, ∃ ring', m.ring step.tet step.edge = .ok ring' ∧
    (ring'.map fun step => (step.tet, step.edge)).Perm (ring.map fun step => (step.tet, step.edge))

variable {m : Mesh} {x : Turn} {tet : Nat} {edge : Edge} {ring : List RingStep}

/-! ## Places at an edge -/

/-- The ends of the edge that is walked around. -/
def ends (m : Mesh) (x : Turn) : Finset Vertex :=
  {(m.corners x.tet).get x.edge.slots.1, (m.corners x.tet).get x.edge.slots.2}

theorem mem_ends_iff (hx : x.entry ≠ x.exit) {v : Vertex} : v ∈ m.ends x ↔ m.OnEdge x v := by
  obtain ⟨hfirst, hsecond⟩ := Turn.slots_ne hx
  simp only [ends, Finset.mem_insert, Finset.mem_singleton, OnEdge]
  constructor
  · intro h
    rcases h with rfl | rfl
    · exact ⟨_, hfirst, rfl⟩
    · exact ⟨_, hsecond, rfl⟩
  · intro ⟨i, ⟨hentry, hexit⟩, hget⟩
    rcases Turn.slots_cases hx i with rfl | rfl | h | h
    · exact .inl hget.symm
    · exact .inr hget.symm
    · exact absurd h hentry
    · exact absurd h hexit

theorem ends_iterate (hm : m.Closed) (hx : m.Turns x) (n : Nat) :
    m.ends (m.next^[n] x) = m.ends x := by
  ext v
  rw [mem_ends_iff (hx.iterate hm n).entry_ne, mem_ends_iff hx.entry_ne, onEdge_iterate hm hx]

/-- The facet that a place is left by has the ends of the edge and the apex opposite to the facet
that it was entered by. -/
theorem cornerSet?_exit (hx : m.Turns x) : m.cornerSet? ⟨x.tet, x.exit⟩ =
    some (insert ((m.corners x.tet).get x.entry) (m.ends x)) := by
  rw [cornerSet?_eq (nodes_eq_corners hx.tet_lt), Option.some_inj]
  obtain ⟨⟨_, hfirst⟩, _, hsecond⟩ := Turn.slots_ne hx.entry_ne
  ext v
  simp only [List.mem_toFinset, Quad.mem_triangle, Finset.mem_insert, ends, Finset.mem_singleton]
  constructor
  · intro ⟨i, hi, hget⟩
    rcases Turn.slots_cases hx.entry_ne i with rfl | rfl | rfl | h
    · exact .inr (.inl hget.symm)
    · exact .inr (.inr hget.symm)
    · exact .inl hget.symm
    · exact absurd h hi
  · intro h
    rcases h with rfl | rfl | rfl
    · exact ⟨_, hx.entry_ne, rfl⟩
    · exact ⟨_, hfirst, rfl⟩
    · exact ⟨_, hsecond, rfl⟩

/-- The corners of a tetrahedron are the ends of the edge and the two apexes. -/
theorem perm_corners (hx : x.entry ≠ x.exit) (q : Quad Vertex) :
    q.toList.Perm [q.get x.edge.slots.1, q.get x.edge.slots.2, q.get x.entry, q.get x.exit] := by
  have hall : ∀ e : Edge, facets.Perm [e.slots.1, e.slots.2, e.facets.1, e.facets.2] := by decide
  have hperm := (hall x.edge).map q.get
  rcases Edge.facets_of_ofFacets? (Turn.ofFacets?_edge hx) with h | h <;> rw [h] at hperm
  · exact hperm
  · exact hperm.trans (.cons _ (.cons _ (.swap _ _ _)))

/-- Only the two facets that a place is entered and left by have both ends of the edge. -/
theorem eq_entry_or_exit (hm : m.Closed) (hx : m.Turns x) {f : Facet} {corners : Finset Vertex}
    (hc : m.cornerSet? ⟨x.tet, f⟩ = some corners) (hsub : m.ends x ⊆ corners) :
    f = x.entry ∨ f = x.exit := by
  have hn := nodes_eq_corners hx.tet_lt
  rw [cornerSet?_eq hn, Option.some_inj] at hc
  have hne : ∀ i, (m.corners x.tet).get i ∈ m.ends x → f ≠ i := by
    intro i hi heq
    have hmem := hsub hi
    rw [← hc, List.mem_toFinset, Quad.mem_triangle] at hmem
    obtain ⟨j, hj, hget⟩ := hmem
    exact hj (((Quad.get_inj (hm.nodup hn)).1 hget).trans heq.symm)
  rcases Turn.slots_cases hx.entry_ne f with h | h | h | h
  · exact absurd h (hne _ (by simp [ends]))
  · exact absurd h (hne _ (by simp [ends]))
  · exact .inl h
  · exact .inr h

/-! ## Crossing -/

/-- A step crosses a facet at the edge. -/
theorem crossesAt_next (hm : m.Closed) (hx : m.Turns x) :
    m.CrossesAt (m.ends x) x.tet (m.next x).tet :=
  ⟨x.exit, _, _, cornerSet?_exit hx, Finset.subset_insert _ _,
    hm.twin?_eq (h := ⟨x.tet, x.exit⟩) hx.tet_lt, rfl⟩

theorem reach_iterate (hm : m.Closed) (hx : m.Turns x) (n : Nat) :
    Relation.ReflTransGen (m.CrossesAt (m.ends x)) x.tet (m.next^[n] x).tet := by
  induction n with
  | zero => exact .refl
  | succ n ih =>
    have hstep := crossesAt_next hm (hx.iterate hm n)
    rw [ends_iterate hm hx, ← Function.iterate_succ_apply' m.next] at hstep
    exact ih.tail hstep

/-- To cross a facet at the edge is to go one step on or one step back. -/
theorem exists_iterate_of_crossesAt (hm : m.Closed) (hx : m.Turns x) {n u : Nat}
    (h : m.CrossesAt (m.ends x) (m.next^[n] x).tet u) : ∃ k, (m.next^[k] x).tet = u := by
  obtain ⟨f, corners, across, hc, hsub, htwin, rfl⟩ := h
  have hn := hx.iterate hm n
  rw [← ends_iterate hm hx n] at hsub
  obtain ⟨_, rfl⟩ := hm.twin?_eq_some_iff.1 htwin
  rcases eq_entry_or_exit hm hn hc hsub with rfl | rfl
  · -- The place before this one, which a period adds to so that there is one.
    obtain ⟨j, hj⟩ : ∃ j, n + m.period x = j + 1 :=
      ⟨_, (Nat.sub_add_cancel (Nat.le_add_left_of_le (period_pos hm hx))).symm⟩
    have hlast : m.next^[n] x = m.next (m.next^[j] x) := by
      rw [← Function.iterate_succ_apply' m.next, Nat.succ_eq_add_one, ← hj,
        Function.iterate_add_apply, iterate_period]
    have hback := next_reverse_next hm (hx.iterate hm j)
    rw [← hlast] at hback
    exact ⟨j, (congrArg Turn.tet hback).symm⟩
  · exact ⟨n + 1, by rw [Function.iterate_succ_apply']; rfl⟩

/-- The tetrahedra that are reached through facets at the edge are those of the walk. -/
theorem reach_iff (hm : m.Closed) (hx : m.Turns x) {u : Nat} :
    Relation.ReflTransGen (m.CrossesAt (m.ends x)) x.tet u ↔ ∃ n, (m.next^[n] x).tet = u := by
  constructor
  · intro h
    induction h with
    | refl => exact ⟨0, rfl⟩
    | tail _ hcross ih =>
      obtain ⟨n, rfl⟩ := ih
      exact exists_iterate_of_crossesAt hm hx hcross
  · intro ⟨n, hn⟩
    exact hn ▸ reach_iterate hm hx n

/-! ## The cycle -/

section

variable (hm : m.Closed) (htet : tet < m.size) (hring : m.ring tet edge = .ok ring)

include hm htet hring

theorem length_ring : ring.length = m.period (.ofEdge tet edge) := by
  rw [ring_eq hm htet edge] at hring
  cases hring
  rw [List.length_map, List.length_iterate]

theorem getElem?_ring {k : Nat} (hk : k < ring.length) :
    ring[k]? = some (m.ringStep (m.next^[k] (.ofEdge tet edge))) := by
  rw [length_ring hm htet hring] at hk
  rw [ring_eq hm htet edge] at hring
  cases hring
  rw [List.getElem?_map, List.getElem?_iterate _ _ _ _ hk, Option.map_some]

/-- After the last step the ring starts again. -/
theorem getElem?_ring_succ (k : Nat) :
    ring[(k + 1) % ring.length]? = some (m.ringStep (m.next^[k + 1] (.ofEdge tet edge))) := by
  have hlen := length_ring hm htet hring
  have hpos := period_pos hm (turns_ofEdge htet edge)
  rw [getElem?_ring hm htet hring (Nat.mod_lt _ (hlen ▸ hpos)), hlen, period,
    Function.iterate_mod_minimalPeriod_eq]

/-- Each step is joined to the next by the facet of the ends and the apex that is carried over. -/
theorem ring_cyclic {k : Nat} {here there : RingStep} (hhere : ring[k]? = some here)
    (hthere : ring[(k + 1) % ring.length]? = some there) :
    there.apexes.2 = here.apexes.1 ∧ ∃ f g,
      m.twin? ⟨here.tet, f⟩ = some ⟨there.tet, g⟩ ∧ m.twin? ⟨there.tet, g⟩ = some ⟨here.tet, f⟩ ∧
      m.cornerSet? ⟨here.tet, f⟩ = some (insert here.apexes.1 (m.ends (.ofEdge tet edge))) ∧
      m.cornerSet? ⟨there.tet, g⟩ = some (insert here.apexes.1 (m.ends (.ofEdge tet edge))) := by
  have hx := turns_ofEdge htet edge
  rw [getElem?_ring hm htet hring (List.getElem?_eq_some_iff.1 hhere).1, Option.some_inj] at hhere
  rw [getElem?_ring_succ hm htet hring, Option.some_inj, Function.iterate_succ_apply'] at hthere
  have hn := hx.iterate hm k
  have hends := ends_iterate hm hx k
  generalize m.next^[k] (.ofEdge tet edge) = y at hhere hthere hn hends
  subst hhere hthere
  obtain ⟨out, hnext, hne, hget⟩ := next_spec hm hn
  have hcorners := cornerSet?_exit hn
  have hlt : (m.twin ⟨y.tet, y.exit⟩).tet < m.size := hm.twin_lt hn.tet_lt
  have htwin := hm.twin?_eq (h := ⟨y.tet, y.exit⟩) hn.tet_lt
  have hback := hm.twin?_eq hlt
  rw [hm.twin_twin] at hback
  rw [hends] at hcorners
  refine ⟨?_, y.exit, (m.twin ⟨y.tet, y.exit⟩).facet, ?_, ?_, hcorners, ?_⟩
  · rw [hnext]
    exact hget
  · rw [hnext]
    exact htwin
  · rw [hnext]
    exact hback
  · rw [hnext]
    exact ((hm.cornerSet?_eq_iff).2 (hm.sorted_twin ⟨y.tet, y.exit⟩)).trans hcorners

/-- From another of its members the ring lists the same. -/
theorem ring_same {step : RingStep} (hstep : step ∈ ring) :
    ∃ ring', m.ring step.tet step.edge = .ok ring' ∧
      (ring'.map fun step => (step.tet, step.edge)).Perm
        (ring.map fun step => (step.tet, step.edge)) := by
  have hlt := lt_size_of_mem_ring hring hstep
  have hring' := ring_eq hm hlt step.edge
  refine ⟨_, hring', (List.perm_ext_iff_of_nodup ?_ ?_).2 fun b => ?_⟩
  · exact .of_map Prod.fst (by rw [List.map_map]; exact ring_nodup hm hlt hring')
  · exact .of_map Prod.fst (by rw [List.map_map]; exact ring_nodup hm htet hring)
  · have hmem : ∀ {a : Nat × Edge} {ring : List RingStep}, m.ring a.1 a.2 = .ok ring →
        (b ∈ ring.map (fun step => (step.tet, step.edge)) ↔ m.OnRing a b) := by
      intro a ring h
      rw [List.mem_map]
      exact ⟨fun hb => ⟨ring, h, hb⟩, fun ⟨ring', h', hb⟩ => Except.ok.inj (h'.symm.trans h) ▸ hb⟩
    have hon : m.OnRing (tet, edge) (step.tet, step.edge) := ⟨ring, hring, step, hstep, rfl⟩
    rw [hmem (a := (step.tet, step.edge)) hring', hmem (a := (tet, edge)) hring]
    exact ⟨hon.trans hm htet, OnRing.euclidean hm htet hon⟩

end

/-- Around every edge of a tetrahedron of a closed mesh stands a cycle, and the walk lists it. -/
theorem Closed.exists_ringAround (hm : m.Closed) {nodes : Quad Vertex}
    (hn : m.nodes[tet]? = some nodes) (edge : Edge) : ∃ ring, m.ring tet edge = .ok ring ∧
      m.RingAround {nodes.get edge.slots.1, nodes.get edge.slots.2} tet edge ring := by
  have htet := lt_size_of_nodes hn
  have hx := turns_ofEdge htet edge
  obtain rfl : m.corners tet = nodes := by simp [Mesh.corners, hn]
  have hends : m.ends (.ofEdge tet edge) =
      {(m.corners tet).get edge.slots.1, (m.corners tet).get edge.slots.2} := by
    rw [ends, (Turn.ofEdge_tet_edge tet edge).2]
    rfl
  have hring := ring_eq hm htet edge
  refine ⟨_, hring, ?_⟩
  rw [← hends]
  have hmem := @mem_ring m hm tet htet edge _ hring
  have hfirst := getElem?_ring hm htet hring (k := 0)
  have hpos := period_pos hm hx
  rw [← length_ring hm htet hring] at hpos
  generalize (List.iterate m.next _ _).map m.ringStep = ring at *
  refine ⟨?_, ring_nodup hm htet hring, fun u => ?_, fun step hstep => ?_,
    fun _ _ _ => ring_cyclic hm htet hring, fun _ => ring_same hm htet hring⟩
  · rw [List.head?_eq_getElem?, hfirst hpos, Option.map_some, Option.some_inj]
    exact Prod.ext_iff.2 (Turn.ofEdge_tet_edge tet edge)
  · refine Iff.trans ?_ (reach_iff hm hx).symm
    rw [List.mem_map]
    constructor
    · rintro ⟨step, hstep, hu⟩
      obtain ⟨n, rfl⟩ := hmem.1 hstep
      exact ⟨n, hu⟩
    · rintro ⟨n, hu⟩
      exact ⟨_, hmem.2 ⟨n, rfl⟩, hu⟩
  · obtain ⟨n, rfl⟩ := hmem.1 hstep
    have hplace := hx.iterate hm n
    exact ⟨_, nodes_eq_corners hplace.tet_lt, ends_iterate hm hx n,
      perm_corners hplace.entry_ne _⟩

/-- Around every edge of a tetrahedron of a mesh that was built, ghosts and the vertex at infinity
included, stands a cycle, and the walk lists it. -/
theorem ring_of_ofTetrahedra [Orient3d] {vertices : Array Point} {tets : List (Quad Vertex)}
    (hbuilt : ofTetrahedra vertices tets = .ok m) {nodes : Quad Vertex}
    (hn : m.nodes[tet]? = some nodes) (edge : Edge) : ∃ ring, m.ring tet edge = .ok ring ∧
      m.RingAround {nodes.get edge.slots.1, nodes.get edge.slots.2} tet edge ring :=
  (closed_of_ofTetrahedra hbuilt).exists_ringAround hn edge

/-- The ring around an edge that ends at infinity passes through ghosts only. -/
theorem ring_of_ofTetrahedra_pyramid : ∃ m ring, ofTetrahedra pyramidCorners pyramidTets = .ok m ∧
    m.ring 2 0 = .ok ring ∧ ring.map (·.tet) = [2, 4, 6, 5] ∧
    m.RingAround {2, Vertex.ghost} 2 0 ring := by
  obtain ⟨m, hm, hn, hwalk⟩ : ∃ m, ofTetrahedra pyramidCorners pyramidTets = .ok m ∧
      m.nodes[2]? = some ⟨0, 3, 2, Vertex.ghost⟩ ∧
      (m.ring 2 0).toOption.map (·.map (·.tet)) = some [2, 4, 6, 5] :=
    exists_of_any (by decide +kernel)
  obtain ⟨ring, hring, haround⟩ := ring_of_ofTetrahedra hm hn 0
  rw [hring] at hwalk
  exact ⟨m, ring, hm, hring, Option.some_inj.1 hwalk, haround⟩

end Mesh

end CavityRepair
