import Mathlib.Data.Finite.Prod
import Mathlib.Data.Fintype.Pigeonhole
import Mathlib.Data.List.Iterate
import Mathlib.Dynamics.PeriodicPts.Defs
import CavityRepair.Mesh.Ring
import CavityRepair.Proofs.Mesh.Linked
/-!
# Rings as orbits

A walk around an edge is an orbit of `Mesh.next`, which takes a tetrahedron with its facets of entry
and exit to the one behind the exit. In a closed mesh walking back undoes a step
(`Mesh.next_reverse_next`), so orbits are periodic, and a walk never meets its own reversal
(`Mesh.iterate_ne_reverse`). Hence it is back at its first tetrahedron only when it is back at its
first turn, and no tetrahedron comes twice.

* `Mesh.ring_eq`: the ring around an edge of a tetrahedron is one period of the orbit; it is never
  refused.
* `Mesh.exists_mem_ring`: the rings of an edge from two of its tetrahedra have the same members.
* `Mesh.OnRing.symm`, `Mesh.OnRing.trans`: so to be on the ring of another is an equivalence.
* `Mesh.mem_corners_of_mem_ring`: the members of a ring have both ends of its edge.
-/
namespace CavityRepair

/-- A place on a walk: a tetrahedron, the facet it was entered by and the one it is left by. -/
@[ext] structure Turn where
  tet : Nat
  entry : Facet
  exit : Facet
  deriving DecidableEq, Repr

namespace Turn

/-- The same place on the walk in the other direction. -/
def reverse (x : Turn) : Turn := ⟨x.tet, x.exit, x.entry⟩

/-- Where a ring starts. -/
def ofEdge (tet : Nat) (edge : Edge) : Turn := ⟨tet, edge.facets.1, edge.facets.2⟩

/-- The edge that is walked around. -/
def edge (x : Turn) : Edge := (Edge.ofFacets? x.entry x.exit).getD 0

@[simp] theorem reverse_reverse (x : Turn) : x.reverse.reverse = x := rfl

@[simp] theorem reverse_tet (x : Turn) : x.reverse.tet = x.tet := rfl

theorem reverse_inj {x y : Turn} : x.reverse = y.reverse ↔ x = y :=
  ⟨congrArg reverse, congrArg reverse⟩

theorem ofFacets?_edge {x : Turn} (hx : x.entry ≠ x.exit) :
    Edge.ofFacets? x.entry x.exit = some x.edge := by
  unfold edge
  cases h : Edge.ofFacets? x.entry x.exit with
  | none => exact absurd ((Edge.ofFacets?_eq_none_iff _ _).1 h) hx
  | some e => rfl

@[simp] theorem reverse_edge (x : Turn) : x.reverse.edge = x.edge := by
  unfold edge reverse
  rw [Edge.ofFacets?_comm]

theorem ofEdge_tet_edge (tet : Nat) (edge : Edge) :
    (ofEdge tet edge).tet = tet ∧ (ofEdge tet edge).edge = edge := by
  unfold ofEdge Turn.edge
  rw [Edge.ofFacets?_facets]
  exact ⟨rfl, rfl⟩

/-- A place can be told from its tetrahedron and edge, up to direction. -/
theorem ofEdge_edge {x : Turn} (hx : x.entry ≠ x.exit) :
    ofEdge x.tet x.edge = x ∨ ofEdge x.tet x.edge = x.reverse := by
  rcases Edge.facets_of_ofFacets? (ofFacets?_edge hx) with h | h
  · exact .inl (by rw [ofEdge, h])
  · exact .inr (by rw [ofEdge, h]; rfl)

end Turn

namespace Mesh

/-- The corners of a tetrahedron; one that the mesh does not have is all at infinity. -/
def corners (m : Mesh) (tet : Nat) : Quad Vertex := m.nodes[tet]?.getD (.replicate Vertex.ghost)

/-- The next place on a walk: behind the exit, turned towards the corner opposite to the entry. -/
def next (m : Mesh) (x : Turn) : Turn :=
  let across := m.twin ⟨x.tet, x.exit⟩
  let carried := (m.corners x.tet).get x.entry
  ⟨across.tet, across.facet, ((m.corners across.tet).slotOf? carried).getD across.facet⟩

/-- What a ring notes at a place. -/
def ringStep (m : Mesh) (x : Turn) : RingStep :=
  ⟨x.tet, x.edge, ((m.corners x.tet).get x.entry, (m.corners x.tet).get x.exit)⟩

@[simp] theorem ringStep_tet (m : Mesh) (x : Turn) : (m.ringStep x).tet = x.tet := rfl

@[simp] theorem ringStep_edge (m : Mesh) (x : Turn) : (m.ringStep x).edge = x.edge := rfl

/-- The places of walks in a mesh. -/
structure Turns (m : Mesh) (x : Turn) : Prop where
  tet_lt : x.tet < m.size
  entry_ne : x.entry ≠ x.exit

/-- A vertex is on the edge that is walked around. -/
def OnEdge (m : Mesh) (x : Turn) (v : Vertex) : Prop :=
  ∃ i, (i ≠ x.entry ∧ i ≠ x.exit) ∧ (m.corners x.tet).get i = v

variable {m : Mesh} {x y : Turn}

theorem nodes_eq_corners {tet : Nat} (h : tet < m.size) : m.nodes[tet]? = some (m.corners tet) := by
  obtain ⟨nodes, hn⟩ := exists_nodes h
  simp [corners, hn]

theorem Turns.reverse (hx : m.Turns x) : m.Turns x.reverse := ⟨hx.tet_lt, hx.entry_ne.symm⟩

theorem turns_ofEdge {tet : Nat} (h : tet < m.size) (edge : Edge) : m.Turns (.ofEdge tet edge) :=
  ⟨h, edge.facets_ne⟩

/-! ## One step -/

/-- A step goes through the exit, and the corner opposite to the entry stays opposite to it. -/
theorem next_spec (hm : m.Closed) (hx : m.Turns x) :
    ∃ out, m.next x = ⟨(m.twin ⟨x.tet, x.exit⟩).tet, (m.twin ⟨x.tet, x.exit⟩).facet, out⟩ ∧
      (m.twin ⟨x.tet, x.exit⟩).facet ≠ out ∧
      (m.corners (m.twin ⟨x.tet, x.exit⟩).tet).get out = (m.corners x.tet).get x.entry := by
  have hn := nodes_eq_corners hx.tet_lt
  have hlt : (m.twin ⟨x.tet, x.exit⟩).tet < m.size := hm.twin_lt hx.tet_lt
  have hn' := nodes_eq_corners hlt
  have hmem : (m.corners x.tet).get x.entry ∈ ((m.corners x.tet).triangle x.exit).toList :=
    Quad.mem_triangle.2 ⟨_, hx.entry_ne, rfl⟩
  obtain ⟨out, hout, hget⟩ :=
    Quad.mem_triangle.1 ((hm.mem_triangle_twin (h := ⟨x.tet, x.exit⟩) hn hn').2 hmem)
  have hslot := Quad.slotOf?_get (hm.nodup hn') out
  refine ⟨out, ?_, hout.symm, hget⟩
  unfold next
  rw [← hget]
  simp only [hslot, Option.getD_some]

theorem Turns.next (hm : m.Closed) (hx : m.Turns x) : m.Turns (m.next x) := by
  obtain ⟨out, h, hne, -⟩ := next_spec hm hx
  rw [h]
  exact ⟨hm.twin_lt hx.tet_lt, hne⟩

theorem Turns.iterate (hm : m.Closed) (hx : m.Turns x) (n : Nat) : m.Turns (m.next^[n] x) := by
  induction n generalizing x with
  | zero => exact hx
  | succ n ih => exact ih (hx.next hm)

/-- Walking back undoes a step. -/
theorem next_reverse_next (hm : m.Closed) (hx : m.Turns x) :
    m.next (m.next x).reverse = x.reverse := by
  obtain ⟨out, h, hne, hget⟩ := next_spec hm hx
  obtain ⟨back, h', -, hget'⟩ := next_spec hm (hx.next hm).reverse
  rw [h] at h' hget' ⊢
  have htwin : m.twin (m.twin ⟨x.tet, x.exit⟩) = ⟨x.tet, x.exit⟩ := hm.twin_twin _
  simp only [Turn.reverse, htwin] at h' hget' ⊢
  rw [hget] at hget'
  rw [h', (Quad.get_inj (hm.nodup (nodes_eq_corners hx.tet_lt))).1 hget']

/-- A step leads to another tetrahedron. -/
theorem next_tet_ne (hm : m.Closed) (hx : m.Turns x) : (m.next x).tet ≠ x.tet :=
  hm.twin_tet_ne (h := ⟨x.tet, x.exit⟩) hx.tet_lt

/-- A step stays at the edge. -/
theorem onEdge_next (hm : m.Closed) (hx : m.Turns x) (v : Vertex) :
    m.OnEdge (m.next x) v ↔ m.OnEdge x v := by
  have hn := nodes_eq_corners hx.tet_lt
  obtain ⟨out, h, hne, hget⟩ := next_spec hm hx
  have hlt : (m.twin ⟨x.tet, x.exit⟩).tet < m.size := hm.twin_lt hx.tet_lt
  have hn' := nodes_eq_corners hlt
  have hmem := hm.mem_triangle_twin (h := ⟨x.tet, x.exit⟩) hn hn' (v := v)
  -- On both sides the edge is the shared triangle without the carried corner.
  have hx' : m.OnEdge x v ↔ v ∈ ((m.corners x.tet).triangle x.exit).toList ∧
      v ≠ (m.corners x.tet).get x.entry := by
    unfold OnEdge
    rw [Quad.mem_triangle]
    constructor
    · rintro ⟨i, ⟨hi, hi'⟩, rfl⟩
      exact ⟨⟨i, hi', rfl⟩, fun e => hi ((Quad.get_inj (hm.nodup hn)).1 e)⟩
    · rintro ⟨⟨i, hi, rfl⟩, hne⟩
      exact ⟨i, ⟨fun e => hne (congrArg _ e), hi⟩, rfl⟩
  have hy' : m.OnEdge (m.next x) v ↔
      v ∈ ((m.corners (m.twin ⟨x.tet, x.exit⟩).tet).triangle
          (m.twin ⟨x.tet, x.exit⟩).facet).toList ∧
        v ≠ (m.corners (m.twin ⟨x.tet, x.exit⟩).tet).get out := by
    unfold OnEdge
    rw [Quad.mem_triangle, h]
    constructor
    · rintro ⟨i, ⟨hi, hi'⟩, rfl⟩
      exact ⟨⟨i, hi, rfl⟩, fun e => hi' ((Quad.get_inj (hm.nodup hn')).1 e)⟩
    · rintro ⟨⟨i, hi, rfl⟩, hne⟩
      exact ⟨i, ⟨hi, fun e => hne (congrArg _ e)⟩, rfl⟩
  rw [hx', hy', hmem, hget]

theorem onEdge_iterate (hm : m.Closed) (hx : m.Turns x) (n : Nat) (v : Vertex) :
    m.OnEdge (m.next^[n] x) v ↔ m.OnEdge x v := by
  induction n with
  | zero => rfl
  | succ n ih => rw [Function.iterate_succ_apply', onEdge_next hm (hx.iterate hm n), ih]

/-- Two places in a tetrahedron at the same edge agree up to direction. -/
theorem eq_or_eq_reverse (hm : m.Closed) (hx : m.Turns x) (hy : m.Turns y) (htet : y.tet = x.tet)
    (hedge : ∀ v, m.OnEdge y v ↔ m.OnEdge x v) : y = x ∨ y = x.reverse := by
  have hinj := @Quad.get_inj _ _ (hm.nodup (nodes_eq_corners hx.tet_lt))
  have hslots : ∀ i, (i ≠ x.entry ∧ i ≠ x.exit) ↔ (i ≠ y.entry ∧ i ≠ y.exit) := by
    intro i
    have h := hedge ((m.corners x.tet).get i)
    unfold OnEdge at h
    rw [htet] at h
    simpa [hinj] using h.symm
  obtain ⟨tet, entry, exit⟩ := x
  obtain ⟨tet', entry', exit'⟩ := y
  obtain rfl : tet' = tet := htet
  rcases Edge.facets_of_slots hx.entry_ne hy.entry_ne hslots with ⟨h, h'⟩ | ⟨h, h'⟩
  · exact .inl (congrArg₂ (Turn.mk tet') h h')
  · exact .inr (congrArg₂ (Turn.mk tet') h h')

/-! ## Orbits -/

/-- Walking back `i` steps after `n` leaves `n - i`. -/
theorem iterate_reverse (hm : m.Closed) (hx : m.Turns x) {i n : Nat} (h : i ≤ n) :
    m.next^[i] (m.next^[n] x).reverse = (m.next^[n - i] x).reverse := by
  induction i with
  | zero => rfl
  | succ i ih =>
    have hn : n - i = n - (i + 1) + 1 := by omega
    rw [Function.iterate_succ_apply', ih (by omega), hn, Function.iterate_succ_apply',
      next_reverse_next hm (hx.iterate hm _)]

/-- A walk never meets its own reversal. Taking a step off both ends, it would have to do so in one
tetrahedron or across one facet. -/
theorem iterate_ne_reverse (hm : m.Closed) (hx : m.Turns x) (n : Nat) :
    m.next^[n] x ≠ x.reverse := by
  induction n using Nat.twoStepInduction generalizing x with
  | zero =>
    intro h
    exact hx.entry_ne (congrArg Turn.entry h)
  | one =>
    intro h
    rw [Function.iterate_one] at h
    exact next_tet_ne hm hx (by rw [h, Turn.reverse_tet])
  | more n ih _ =>
    intro h
    refine ih (hx.next hm) ?_
    rw [Function.iterate_succ_apply, Function.iterate_succ_apply'] at h
    have hback := next_reverse_next hm ((hx.next hm).iterate hm n)
    rw [h, Turn.reverse_reverse] at hback
    exact Turn.reverse_inj.1 hback.symm

/-- A walk that is back in a tetrahedron is back at its place there. -/
theorem iterate_eq_of_tet (hm : m.Closed) (hx : m.Turns x) {n : Nat}
    (h : (m.next^[n] x).tet = x.tet) : m.next^[n] x = x :=
  (eq_or_eq_reverse hm hx (hx.iterate hm n) h (onEdge_iterate hm hx n)).resolve_right
    (iterate_ne_reverse hm hx n)

/-- A walk comes back: two of its places agree, and walking back from them shows that the first
place comes again. -/
theorem mem_periodicPts (hm : m.Closed) (hx : m.Turns x) : x ∈ Function.periodicPts m.next := by
  have hlt : ∀ n, (m.next^[n] x).tet < m.size := fun n => (hx.iterate hm n).tet_lt
  have key : ∀ i j, i < j → m.next^[i] x = m.next^[j] x → x ∈ Function.periodicPts m.next := by
    intro i j hij heq
    have hback := iterate_reverse hm hx (Nat.le_refl i)
    rw [heq, iterate_reverse hm hx hij.le, Nat.sub_self, Turn.reverse_inj] at hback
    exact Function.mk_mem_periodicPts (Nat.sub_pos_of_lt hij) hback
  obtain ⟨i, j, hne, heq⟩ := Finite.exists_ne_map_eq_of_infinite fun n =>
    ((⟨(m.next^[n] x).tet, hlt n⟩ : Fin m.size), (m.next^[n] x).entry, (m.next^[n] x).exit)
  have hturn : m.next^[i] x = m.next^[j] x := Turn.ext_iff.2 (by simpa using heq)
  rcases Nat.lt_or_gt_of_ne hne with hij | hij
  · exact key i j hij hturn
  · exact key j i hij hturn.symm

/-- The number of steps after which a walk comes back. -/
noncomputable def period (m : Mesh) (x : Turn) : Nat := Function.minimalPeriod m.next x

theorem period_pos (hm : m.Closed) (hx : m.Turns x) : 0 < m.period x :=
  Function.minimalPeriod_pos_of_mem_periodicPts (mem_periodicPts hm hx)

theorem iterate_period (m : Mesh) (x : Turn) : m.next^[m.period x] x = x :=
  Function.iterate_minimalPeriod

/-- No tetrahedron comes twice within a period. -/
theorem tet_injOn (hm : m.Closed) (hx : m.Turns x) {i j : Nat} (hi : i < m.period x)
    (hj : j < m.period x) (h : (m.next^[i] x).tet = (m.next^[j] x).tet) : i = j := by
  wlog hij : i ≤ j generalizing i j
  · exact (this hj hi h.symm (by omega)).symm
  have hsplit : m.next^[j] x = m.next^[j - i] (m.next^[i] x) := by
    rw [← Function.iterate_add_apply, Nat.sub_add_cancel hij]
  rw [hsplit] at h
  have heq := iterate_eq_of_tet hm (hx.iterate hm i) h.symm
  rw [← hsplit] at heq
  exact Function.iterate_injOn_Iio_minimalPeriod hi hj heq.symm

theorem period_le_size (hm : m.Closed) (hx : m.Turns x) : m.period x ≤ m.size := by
  have hmaps : Set.MapsTo (fun n => (m.next^[n] x).tet) (Finset.range (m.period x))
      (Finset.range m.size) := fun n _ =>
    Finset.mem_coe.2 (Finset.mem_range.2 (hx.iterate hm n).tet_lt)
  have hinj : Set.InjOn (fun n => (m.next^[n] x).tet) (Finset.range (m.period x)) :=
    fun i hi j hj h => tet_injOn hm hx (Finset.mem_range.1 hi) (Finset.mem_range.1 hj) h
  simpa using Finset.card_le_card_of_injOn _ hmaps hinj

/-! ## Rings -/

/-- One step of a walk that notes its places. -/
theorem walkRing_succ (hm : m.Closed) (hx : m.Turns x) (start : Nat) (edge : Edge)
    (remaining : Nat) :
    m.walkRing start edge (remaining + 1) x.tet x.entry x.exit =
      if (m.next x).tet = start then .ok [m.ringStep x]
      else do
        let rest ← m.walkRing start edge remaining (m.next x).tet (m.next x).entry (m.next x).exit
        return m.ringStep x :: rest := by
  obtain ⟨out, hnext, -, hget⟩ := next_spec hm hx
  have hnodes := nodes_eq_corners hx.tet_lt
  have hnodes' := nodes_eq_corners (hx.next hm).tet_lt
  have htwin := hm.twin?_eq (h := ⟨x.tet, x.exit⟩) hx.tet_lt
  rw [hnext] at hnodes' ⊢
  have hslot := Quad.slotOf?_get (hm.nodup hnodes') out
  rw [hget] at hslot
  rw [walkRing]
  simp only [hnodes, htwin, hnodes', hslot, Turn.ofFacets?_edge hx.entry_ne, found_some, ok_bind]
  rfl

/-- A walk notes its places until it is back in the first tetrahedron. -/
theorem walkRing_eq (hm : m.Closed) (hx : m.Turns x) {start : Nat} {edge : Edge} {n remaining : Nat}
    (hn : n < remaining) (hback : (m.next^[n + 1] x).tet = start)
    (hnot : ∀ i, 0 < i → i < n + 1 → (m.next^[i] x).tet ≠ start) :
    m.walkRing start edge remaining x.tet x.entry x.exit =
      .ok ((List.iterate m.next x (n + 1)).map m.ringStep) := by
  obtain ⟨remaining, rfl⟩ := Nat.exists_eq_succ_of_ne_zero (Nat.ne_zero_of_lt hn)
  induction n generalizing x remaining with
  | zero =>
    have hstart : (m.next x).tet = start := hback
    rw [walkRing_succ hm hx, if_pos hstart]
    rfl
  | succ n ih =>
    have hstart : (m.next x).tet ≠ start := hnot 1 (by omega) (by omega)
    obtain ⟨remaining, rfl⟩ := Nat.exists_eq_succ_of_ne_zero (n := remaining) (by omega)
    have hrest := ih (hx.next hm) hback (fun i hi hi' => hnot (i + 1) (by omega) (by omega))
      remaining (by omega)
    rw [walkRing_succ hm hx, if_neg hstart, hrest]
    rfl

/-- The ring around an edge of a tetrahedron is one period of its walk. -/
theorem ring_eq (hm : m.Closed) {tet : Nat} (htet : tet < m.size) (edge : Edge) :
    m.ring tet edge = .ok ((List.iterate m.next (.ofEdge tet edge)
      (m.period (.ofEdge tet edge))).map m.ringStep) := by
  have hx := turns_ofEdge htet edge
  obtain ⟨n, hn⟩ : ∃ n, m.period (.ofEdge tet edge) = n + 1 :=
    ⟨_, (Nat.sub_add_cancel (period_pos hm hx)).symm⟩
  have hback := iterate_period m (.ofEdge tet edge)
  have hle := period_le_size hm hx
  rw [hn] at hback hle ⊢
  refine walkRing_eq hm hx hle (congrArg Turn.tet hback) fun i hi hi' h => ?_
  rw [← hn] at hi'
  have := tet_injOn hm hx hi' (period_pos hm hx) h
  omega

theorem mem_ring (hm : m.Closed) {tet : Nat} (htet : tet < m.size) {edge : Edge}
    {ring : List RingStep} (hring : m.ring tet edge = .ok ring) {step : RingStep} :
    step ∈ ring ↔ ∃ n, m.ringStep (m.next^[n] (.ofEdge tet edge)) = step := by
  rw [ring_eq hm htet edge] at hring
  cases hring
  simp only [List.mem_map, List.mem_iterate]
  constructor
  · rintro ⟨_, ⟨n, -, rfl⟩, rfl⟩
    exact ⟨n, rfl⟩
  · rintro ⟨n, rfl⟩
    refine ⟨_, ⟨_, Nat.mod_lt n (period_pos hm (turns_ofEdge htet edge)), rfl⟩, ?_⟩
    rw [period, Function.iterate_mod_minimalPeriod_eq]

/-- A tetrahedron is on the rings around its edges. -/
theorem exists_mem_ring_self (hm : m.Closed) {tet : Nat} (htet : tet < m.size) {edge : Edge}
    {ring : List RingStep} (hring : m.ring tet edge = .ok ring) :
    ∃ step ∈ ring, step.tet = tet ∧ step.edge = edge :=
  ⟨_, (mem_ring hm htet hring).2 ⟨0, rfl⟩, Turn.ofEdge_tet_edge tet edge⟩

theorem lt_size_of_mem_walkRing {start : Nat} {edge : Edge} {remaining tet : Nat}
    {entry exit : Facet} {ring : List RingStep}
    (h : m.walkRing start edge remaining tet entry exit = .ok ring) {step : RingStep}
    (hstep : step ∈ ring) : step.tet < m.size := by
  induction remaining generalizing tet entry exit ring with
  | zero =>
    rw [walkRing, found_bind_eq_ok_iff] at h
    obtain ⟨nodes, -, h⟩ := h
    obtain ⟨-, h⟩ := require_bind_eq_ok_iff.1 h
    cases h
  | succ remaining ih =>
    rw [walkRing, found_bind_eq_ok_iff] at h
    obtain ⟨nodes, hn, h⟩ := h
    split at h
    · cases h
    · obtain ⟨across, -, h⟩ := found_bind_eq_ok_iff.1 h
      split at h
      · cases h
        obtain rfl := List.mem_singleton.1 hstep
        exact lt_size_of_nodes hn
      · obtain ⟨next, -, h⟩ := found_bind_eq_ok_iff.1 h
        split at h
        · cases h
        · obtain ⟨later, hlater, h⟩ := bind_eq_ok_iff.1 h
          cases h
          rcases List.mem_cons.1 hstep with rfl | hstep
          · exact lt_size_of_nodes hn
          · exact ih hlater hstep

/-- The members of a ring exist, whatever the mesh. -/
theorem lt_size_of_mem_ring {tet : Nat} {edge : Edge} {ring : List RingStep}
    (hring : m.ring tet edge = .ok ring) {step : RingStep} (hstep : step ∈ ring) :
    step.tet < m.size :=
  lt_size_of_mem_walkRing hring hstep

/-- From another of its members, the ring has the same members, each with the same edge: the walk
goes on from there, or back from there. -/
theorem exists_mem_ring (hm : m.Closed) {tet : Nat} (htet : tet < m.size) {edge : Edge}
    {ring ring' : List RingStep} (hring : m.ring tet edge = .ok ring) {here there : RingStep}
    (hhere : here ∈ ring) (hring' : m.ring here.tet here.edge = .ok ring') (hthere : there ∈ ring) :
    ∃ step ∈ ring', step.tet = there.tet ∧ step.edge = there.edge := by
  have hx := turns_ofEdge htet edge
  have hmem := @mem_ring m hm _ (lt_size_of_mem_ring hring hhere) _ _ hring'
  have hperiod := iterate_period m (.ofEdge tet edge)
  rw [ring_eq hm htet edge] at hring
  cases hring
  simp only [List.mem_map, List.mem_iterate] at hhere hthere
  obtain ⟨_, ⟨i, hi, rfl⟩, rfl⟩ := hhere
  obtain ⟨_, ⟨j, hj, rfl⟩, rfl⟩ := hthere
  generalize Turn.ofEdge tet edge = x at *
  generalize m.period x = k at *
  rw [ringStep_tet, ringStep_edge] at hmem
  rcases Turn.ofEdge_edge (hx.iterate hm i).entry_ne with h | h
  · rw [h] at hmem
    refine ⟨_, hmem.2 ⟨j + (k - i), rfl⟩, ?_⟩
    rw [← Function.iterate_add_apply, show j + (k - i) + i = j + k by omega,
      Function.iterate_add_apply, hperiod]
    exact ⟨rfl, rfl⟩
  · have hi' : m.next^[i] x = m.next^[i + k] x := by rw [Function.iterate_add_apply, hperiod]
    rw [h, hi'] at hmem
    refine ⟨_, hmem.2 ⟨i + k - j, rfl⟩, ?_⟩
    rw [iterate_reverse hm hx (by omega), show i + k - (i + k - j) = j by omega]
    exact ⟨rfl, Turn.reverse_edge _⟩

/-- The members of a ring have both ends of its edge. -/
theorem mem_corners_of_mem_ring (hm : m.Closed) {tet : Nat} {nodes : Quad Vertex}
    (hn : m.nodes[tet]? = some nodes) {a b : Vertex} {edge : Edge}
    (hedge : nodes.edgeBetween? a b = some edge) {ring : List RingStep}
    (hring : m.ring tet edge = .ok ring) {step : RingStep} (hstep : step ∈ ring) :
    a ∈ (m.corners step.tet).toList ∧ b ∈ (m.corners step.tet).toList := by
  have htet := lt_size_of_nodes hn
  have hx := turns_ofEdge htet edge
  obtain rfl : m.corners tet = nodes := by simp [corners, hn]
  have hends : m.OnEdge (.ofEdge tet edge) a ∧ m.OnEdge (.ofEdge tet edge) b := by
    obtain ⟨hfirst, hsecond⟩ := edge.slots_ne
    rcases Quad.get_of_edgeBetween? hedge with ⟨ha, hb⟩ | ⟨hb, ha⟩
    · exact ⟨⟨_, hfirst, ha⟩, _, hsecond, hb⟩
    · exact ⟨⟨_, hsecond, ha⟩, _, hfirst, hb⟩
  obtain ⟨n, rfl⟩ := (mem_ring hm htet hring).1 hstep
  have hmem : ∀ {v}, m.OnEdge (.ofEdge tet edge) v →
      v ∈ (m.corners (m.ringStep (m.next^[n] (.ofEdge tet edge))).tet).toList := by
    intro v hv
    obtain ⟨i, -, hget⟩ := (onEdge_iterate hm hx n v).2 hv
    exact Quad.mem_toList.2 ⟨i, hget⟩
  exact ⟨hmem hends.1, hmem hends.2⟩

/-- No tetrahedron comes twice on a ring. -/
theorem ring_nodup (hm : m.Closed) {tet : Nat} (htet : tet < m.size) {edge : Edge}
    {ring : List RingStep} (hring : m.ring tet edge = .ok ring) : (ring.map (·.tet)).Nodup := by
  rw [ring_eq hm htet edge] at hring
  cases hring
  rw [← List.range_map_iterate, List.map_map, List.map_map]
  refine List.nodup_range.map_on fun i hi j hj h => ?_
  exact tet_injOn hm (turns_ofEdge htet edge) (List.mem_range.1 hi) (List.mem_range.1 hj) h

/-- An edge of a tetrahedron is met on the walk around another one. -/
def OnRing (m : Mesh) (a b : Nat × Edge) : Prop :=
  ∃ ring, m.ring a.1 a.2 = .ok ring ∧ ∃ step ∈ ring, (step.tet, step.edge) = b

namespace OnRing

variable {a b c : Nat × Edge}

theorem refl (hm : m.Closed) (ha : a.1 < m.size) : m.OnRing a a := by
  obtain ⟨step, hstep, htet, hedge⟩ := exists_mem_ring_self hm ha (ring_eq hm ha a.2)
  exact ⟨_, ring_eq hm ha a.2, step, hstep, Prod.ext htet hedge⟩

theorem lt_size (h : m.OnRing a b) : b.1 < m.size := by
  obtain ⟨ring, hring, step, hstep, rfl⟩ := h
  exact lt_size_of_mem_ring hring hstep

/-- Two edges on the ring of a third are on the rings of each other. -/
theorem euclidean (hm : m.Closed) (ha : a.1 < m.size) (hb : m.OnRing a b) (hc : m.OnRing a c) :
    m.OnRing b c := by
  have hlt := hb.lt_size
  obtain ⟨ring, hring, here, hhere, rfl⟩ := hb
  obtain ⟨ring', hring', there, hthere, rfl⟩ := hc
  obtain rfl : ring' = ring := Except.ok.inj (hring'.symm.trans hring)
  have hback := ring_eq hm hlt here.edge
  obtain ⟨step, hstep, htet, hedge⟩ := exists_mem_ring hm ha hring hhere hback hthere
  exact ⟨_, hback, step, hstep, Prod.ext htet hedge⟩

theorem symm (h : m.OnRing a b) (hm : m.Closed) (ha : a.1 < m.size) : m.OnRing b a :=
  euclidean hm ha h (refl hm ha)

theorem trans (h : m.OnRing a b) (hm : m.Closed) (ha : a.1 < m.size) (h' : m.OnRing b c) :
    m.OnRing a c :=
  euclidean hm h.lt_size (h.symm hm ha) h'

end OnRing

/-! ## Meshes of the same shape -/

theorem SameShape.walkRing_eq {m' : Mesh} (h : m.SameShape m') (start : Nat) (edge : Edge)
    (remaining tet : Nat) (entry exit : Facet) :
    m'.walkRing start edge remaining tet entry exit =
      m.walkRing start edge remaining tet entry exit := by
  induction remaining generalizing tet entry exit with
  | zero =>
    unfold walkRing
    rw [h.nodes, h.size_eq]
  | succ remaining ih =>
    unfold walkRing
    simp only [h.nodes, h.twin?_eq, ih]

theorem SameShape.ring_eq {m' : Mesh} (h : m.SameShape m') (tet : Nat) (edge : Edge) :
    m'.ring tet edge = m.ring tet edge := by
  unfold ring
  rw [h.size_eq, h.walkRing_eq]

theorem SameShape.onRing_iff {m' : Mesh} (h : m.SameShape m') {a b : Nat × Edge} :
    m'.OnRing a b ↔ m.OnRing a b := by
  unfold OnRing
  rw [h.ring_eq]

end Mesh

end CavityRepair
