import CavityRepair.Proofs.Cavity.EdgeSurvival
import CavityRepair.Proofs.Mesh.Cycles
import CavityRepair.Proofs.Number.Order
import Mathlib.Data.Int.ConditionallyCompleteOrder
import Mathlib.Data.List.MinMax
import Mathlib.Data.Sym.Sym2
/-!
# The farthest member of a ring

Of the tetrahedra of a ring a rescue gives back the one whose opposite edge is farthest away, of
several the one with the lowest index. It finds it by keeping the best so far. Doubles other than
NaN are linearly ordered up to the two zeros, and so are pairs of a distance and an index
(`preference`), so what is kept in the end is the greatest of all, in whatever order they come.

* `Mesh.farthestMember?_eq_some_iff`: the member is the one that is preferred to all others.
* `Mesh.farthestMember?_congr`: it depends only on which tetrahedra there are to choose from.
* `Mesh.undirected_of_mem_ring`: what the walks of a ring agree on, wherever they start.
* `Mesh.farthest_member_determined`: the choice from a ring.
-/
namespace CavityRepair

/-- The place of a tetrahedron at some distance among those to choose from. -/
def preference (entry : Float × Nat) : (ℤ ×ₗ ℤ ×ₗ ℤ) ×ₗ ℕᵒᵈ :=
  toLex (rank entry.1, OrderDual.toDual entry.2)

section

variable {a b : Float × Nat}

theorem snd_eq_of_preference_eq (h : preference a = preference b) : a.2 = b.2 :=
  OrderDual.toDual_inj.1 (Prod.ext_iff.1 (toLex_inj.1 h)).2

theorem preference_lt_iff : preference a < preference b ↔
    rank a.1 < rank b.1 ∨ rank a.1 = rank b.1 ∧ b.2 < a.2 :=
  Prod.Lex.toLex_lt_toLex

/-- A place is no higher than another when the distance is no greater, and the index no lower unless
the distance is smaller. -/
theorem preference_le_iff (ha : a.1.isNaN = false) (hb : b.1.isNaN = false) :
    preference a ≤ preference b ↔ a.1 ≤ b.1 ∧ (b.1 ≤ a.1 → b.2 ≤ a.2) := by
  rw [le_iff_rank_le ha hb, le_iff_rank_le hb ha, preference, preference, Prod.Lex.toLex_le_toLex,
    OrderDual.toDual_le_toDual]
  constructor
  · rintro (hlt | ⟨heq, hle⟩)
    · exact ⟨hlt.le, fun h => absurd h hlt.not_ge⟩
    · exact ⟨heq.le, fun _ => hle⟩
  · rintro ⟨hle, htie⟩
    rcases hle.lt_or_eq with hlt | heq
    · exact .inl hlt
    · exact .inr ⟨heq, htie heq.ge⟩

/-- One tetrahedron is preferred to another when it is placed higher. -/
theorem isFarther_iff (ha : a.1.isNaN = false) (hb : b.1.isNaN = false) :
    isFarther a b = true ↔ preference b < preference a := by
  unfold isFarther
  rw [Bool.or_eq_true, Bool.and_eq_true, decide_eq_true_eq, decide_eq_true_eq, preference_lt_iff,
    beq_iff_rank_eq ha hb, gt_iff_lt, lt_iff_rank_lt hb ha, eq_comm (a := rank a.1)]

end

theorem farthestOf_eq_foldl {best : Option (Float × Nat)} {entries : List (Float × Nat)}
    (hbest : ∀ entry ∈ best, entry.1.isNaN = false)
    (hnumber : ∀ entry ∈ entries, entry.1.isNaN = false) :
    farthestOf best entries =
      entries.foldl (List.argAux fun a b => preference b < preference a) best := by
  induction entries generalizing best with
  | nil => rfl
  | cons first rest ih =>
    rw [List.forall_mem_cons] at hnumber
    rw [List.foldl_cons]
    cases best with
    | none => exact ih (by simpa using hnumber.1) hnumber.2
    | some old =>
      have hold := hbest old rfl
      have hkeep : List.argAux (fun a b => preference b < preference a) (some old) first =
          some (if isFarther first old then first else old) := by
        simp only [List.argAux, ← isFarther_iff hnumber.1 hold]
        split <;> rfl
      rw [farthestOf, hkeep]
      refine ih (fun entry hentry => ?_) hnumber.2
      rw [← Option.some.inj hentry]
      split
      · exact hnumber.1
      · exact hold

/-- What is kept in the end is the entry that is placed highest. -/
theorem farthestOf_eq_argmax {entries : List (Float × Nat)}
    (hnumber : ∀ entry ∈ entries, entry.1.isNaN = false) :
    farthestOf none entries = entries.argmax preference :=
  farthestOf_eq_foldl (by simp) hnumber

theorem Point.midpoint_comm (p q : Point) : p.midpoint q = q.midpoint p := by
  simp only [midpoint, float_add_comm q.x, float_add_comm q.y, float_add_comm q.z]

/-- What a step of a ring says whichever way the ring is walked. -/
def RingStep.undirected (step : RingStep) : Nat × Sym2 Vertex :=
  (step.tet, s(step.apexes.1, step.apexes.2))

namespace Mesh

variable {m : Mesh} {ring ring' : List RingStep} {start member tet : Nat} {edge : Edge} {p : Point}

theorem oppositeMidpoint?_eq_none_iff {step : RingStep} : m.oppositeMidpoint? step = none ↔
    m.point? step.apexes.1 = none ∨ m.point? step.apexes.2 = none := by
  unfold oppositeMidpoint?
  cases m.point? step.apexes.1 <;> cases m.point? step.apexes.2 <;> simp

theorem oppositeMidpoint?_congr {here there : RingStep}
    (h : here.undirected = there.undirected) :
    m.oppositeMidpoint? here = m.oppositeMidpoint? there := by
  unfold oppositeMidpoint?
  rcases Sym2.eq_iff.1 (Prod.ext_iff.1 h).2 with ⟨hfirst, hsecond⟩ | ⟨hfirst, hsecond⟩
  · rw [hfirst, hsecond]
  · rw [hfirst, hsecond]
    cases m.point? there.apexes.1 <;> cases m.point? there.apexes.2 <;>
      simp [Point.midpoint_comm]

/-- What there is to choose from. -/
theorem mem_candidates {entry : Float × Nat} : entry ∈ m.candidates ring start p ↔
    ∃ step ∈ ring, step.tet ≠ start ∧ ∃ midpoint ∈ m.oppositeMidpoint? step,
      (midpoint.squaredDistance p, step.tet) = entry := by
  simp [candidates, and_assoc, Option.mem_def]

theorem mem_candidates_of_step {step : RingStep} (hstep : step ∈ ring) (hne : step.tet ≠ start)
    {midpoint : Point} (hmidpoint : m.oppositeMidpoint? step = some midpoint) (p : Point) :
    (midpoint.squaredDistance p, step.tet) ∈ m.candidates ring start p :=
  mem_candidates.2 ⟨step, hstep, hne, midpoint, hmidpoint, rfl⟩

/-- No distance that is computed for a ring is NaN. -/
def Measured (m : Mesh) (ring : List RingStep) (start : Nat) (p : Point) : Prop :=
  ∀ step ∈ ring, step.tet ≠ start → ∀ midpoint ∈ m.oppositeMidpoint? step,
    (midpoint.squaredDistance p).isNaN = false

theorem measured_iff : m.Measured ring start p ↔
    ∀ entry ∈ m.candidates ring start p, entry.1.isNaN = false := by
  constructor
  · intro h entry hentry
    obtain ⟨step, hstep, hne, midpoint, hmidpoint, rfl⟩ := mem_candidates.1 hentry
    exact h step hstep hne midpoint hmidpoint
  · intro h step hstep hne midpoint hmidpoint
    exact h (midpoint.squaredDistance p, step.tet) (mem_candidates_of_step hstep hne hmidpoint p)

/-- The member to give back is the one that is placed highest. -/
theorem farthestMember?_eq_some_iff (h : m.Measured ring start p) :
    m.farthestMember? ring start p = some member ↔
      ∃ entry ∈ m.candidates ring start p, entry.2 = member ∧
        ∀ other ∈ m.candidates ring start p, preference other ≤ preference entry := by
  rw [farthestMember?, farthestOf_eq_argmax (measured_iff.1 h), Option.map_eq_some_iff]
  constructor
  · rintro ⟨entry, hentry, rfl⟩
    exact ⟨entry, List.argmax_mem hentry, rfl, fun other hother =>
      List.le_of_mem_argmax hother hentry⟩
  · rintro ⟨entry, hentry, rfl, hall⟩
    obtain ⟨best, hbest⟩ : ∃ best, (m.candidates ring start p).argmax preference = some best :=
      Option.ne_none_iff_exists'.1 fun hnone =>
        List.ne_nil_of_mem hentry (List.argmax_eq_none.1 hnone)
    have heq := (hall best (List.argmax_mem hbest)).antisymm (List.le_of_mem_argmax hentry hbest)
    exact ⟨best, hbest, snd_eq_of_preference_eq heq⟩

/-- Where there are the steps of another ring, in either direction, there is as much to choose. -/
theorem mem_candidates_of_subset {entry : Float × Nat}
    (hsub : ∀ place, place ∈ ring.map (·.undirected) → place ∈ ring'.map (·.undirected))
    (hentry : entry ∈ m.candidates ring start p) : entry ∈ m.candidates ring' start p := by
  obtain ⟨step, hstep, hne, midpoint, hmidpoint, rfl⟩ := mem_candidates.1 hentry
  obtain ⟨step', hstep', heq⟩ := List.mem_map.1 (hsub _ (List.mem_map_of_mem hstep))
  have htet : step'.tet = step.tet := (Prod.ext_iff.1 heq).1
  rw [← oppositeMidpoint?_congr heq] at hmidpoint
  exact mem_candidates.2 ⟨step', hstep', htet ▸ hne, midpoint, hmidpoint, by rw [htet]⟩

/-- Rings that offer the same tetrahedra, each at the same distance, lead to the same choice. -/
theorem farthestMember?_congr (h : m.Measured ring start p)
    (hsame : ∀ place, place ∈ ring'.map (·.undirected) ↔ place ∈ ring.map (·.undirected)) :
    m.farthestMember? ring' start p = m.farthestMember? ring start p := by
  have hmem : ∀ entry, entry ∈ m.candidates ring' start p ↔ entry ∈ m.candidates ring start p :=
    fun _ => ⟨mem_candidates_of_subset fun place => (hsame place).1,
      mem_candidates_of_subset fun place => (hsame place).2⟩
  have h' : m.Measured ring' start p := by
    rw [measured_iff] at h ⊢
    exact fun entry hentry => h entry ((hmem entry).1 hentry)
  refine Option.ext fun member => ?_
  rw [farthestMember?_eq_some_iff h, farthestMember?_eq_some_iff h']
  simp only [hmem]

instance : Decidable (m.Measured ring start p) :=
  inferInstanceAs (Decidable (∀ step ∈ ring, step.tet ≠ start →
    ∀ midpoint ∈ m.oppositeMidpoint? step, (midpoint.squaredDistance p).isNaN = false))

/-- A ring says the same of a tetrahedron and an edge of it wherever it is walked from. -/
theorem undirected_of_mem_ring (hm : m.Closed) (htet : tet < m.size)
    (hring : m.ring tet edge = .ok ring) {step : RingStep} (hstep : step ∈ ring) :
    step.undirected = (step.tet, s((m.corners step.tet).get step.edge.facets.1,
      (m.corners step.tet).get step.edge.facets.2)) := by
  obtain ⟨n, rfl⟩ := (mem_ring hm htet hring).1 hstep
  have hturns := (turns_ofEdge htet edge).iterate hm n
  generalize m.next^[n] (.ofEdge tet edge) = x at hturns
  unfold RingStep.undirected
  refine Prod.ext rfl ?_
  rcases Edge.facets_of_ofFacets? (Turn.ofFacets?_edge hturns.entry_ne) with h | h
  · simp only [ringStep, h]
  · simp only [ringStep, h]
    exact Sym2.eq_swap

/-- From another of its members a ring is the same up to the order of its steps and direction. -/
theorem mem_undirected_ring_iff (hm : m.Closed) (htet : tet < m.size)
    (hring : m.ring tet edge = .ok ring) {step : RingStep} (hstep : step ∈ ring)
    (hring' : m.ring step.tet step.edge = .ok ring') (place : Nat × Sym2 Vertex) :
    place ∈ ring'.map (·.undirected) ↔ place ∈ ring.map (·.undirected) := by
  have hlt := lt_size_of_mem_ring hring hstep
  obtain ⟨ring'', hwalked, hperm⟩ := ring_same hm htet hring hstep
  obtain rfl : ring'' = ring' := Except.ok.inj (hwalked.symm.trans hring')
  have hundirected : ∀ {tet : Nat} {edge : Edge} {ring : List RingStep}, tet < m.size →
      m.ring tet edge = .ok ring → ring.map (·.undirected) =
        (ring.map fun step => (step.tet, step.edge)).map fun pair =>
          (pair.1, s((m.corners pair.1).get pair.2.facets.1,
            (m.corners pair.1).get pair.2.facets.2)) := by
    intro tet edge ring htet hring
    rw [List.map_map]
    exact List.map_congr_left fun step hstep => undirected_of_mem_ring hm htet hring hstep
  rw [hundirected hlt hring', hundirected htet hring]
  exact (hperm.map _).mem_iff

/-- The choice depends on the members of a ring alone. There is none when each member but the first
tetrahedron has an apex without position. Otherwise it is the one among those whose opposite edge
has a midpoint that is farthest from the point, the one with the lowest index if there are several.
So the choice is the same for every order of the steps, either direction of the walk, and every
member that it starts from. -/
theorem farthest_member_determined (h : m.Measured ring start p) :
    (m.farthestMember? ring start p = none ↔ ∀ step ∈ ring, step.tet ≠ start →
      m.point? step.apexes.1 = none ∨ m.point? step.apexes.2 = none) ∧
    (∀ member, m.farthestMember? ring start p = some member ↔
      ∃ step ∈ ring, step.tet = member ∧ member ≠ start ∧
        ∃ midpoint, m.oppositeMidpoint? step = some midpoint ∧
          ∀ other ∈ ring, other.tet ≠ start →
            ∀ midpoint', m.oppositeMidpoint? other = some midpoint' →
              midpoint'.squaredDistance p ≤ midpoint.squaredDistance p ∧
              (midpoint.squaredDistance p ≤ midpoint'.squaredDistance p → member ≤ other.tet)) ∧
    (∀ ring', ring'.Perm ring →
      m.farthestMember? ring' start p = m.farthestMember? ring start p) ∧
    (∀ ring', (∀ place, place ∈ ring'.map (·.undirected) ↔ place ∈ ring.map (·.undirected)) →
      m.farthestMember? ring' start p = m.farthestMember? ring start p) ∧
    ∀ tet edge, m.Closed → tet < m.size → m.ring tet edge = .ok ring → ∀ step ∈ ring,
      ∃ ring', m.ring step.tet step.edge = .ok ring' ∧
        m.farthestMember? ring' start p = m.farthestMember? ring start p := by
  refine ⟨?_, fun member => ?_, fun ring' hperm => ?_, fun ring' => farthestMember?_congr h, ?_⟩
  · simp only [farthestMember?_eq_none_iff, oppositeMidpoint?_eq_none_iff]
  · rw [farthestMember?_eq_some_iff h]
    have hplace : ∀ {a b}, a ∈ m.candidates ring start p → b ∈ m.candidates ring start p →
        (preference a ≤ preference b ↔ a.1 ≤ b.1 ∧ (b.1 ≤ a.1 → b.2 ≤ a.2)) := fun ha hb =>
      preference_le_iff (measured_iff.1 h _ ha) (measured_iff.1 h _ hb)
    constructor
    · rintro ⟨entry, hentry, rfl, hall⟩
      obtain ⟨step, hstep, hne, midpoint, hmidpoint, rfl⟩ := mem_candidates.1 hentry
      refine ⟨step, hstep, rfl, hne, midpoint, hmidpoint, fun other hother hne' midpoint' hm' => ?_⟩
      have hother' := mem_candidates_of_step hother hne' hm' p
      exact (hplace hother' hentry).1 (hall _ hother')
    · rintro ⟨step, hstep, rfl, hne, midpoint, hmidpoint, hall⟩
      have hentry := mem_candidates_of_step hstep hne hmidpoint p
      refine ⟨_, hentry, rfl, fun entry hother' => (hplace hother' hentry).2 ?_⟩
      obtain ⟨other, hother, hne', midpoint', hm', rfl⟩ := mem_candidates.1 hother'
      exact hall other hother hne' midpoint' hm'
  · exact farthestMember?_congr h fun place => (hperm.map _).mem_iff
  · intro tet edge hm htet hring step hstep
    obtain ⟨ring', hring', -⟩ := ring_same hm htet hring hstep
    exact ⟨ring', hring', farthestMember?_congr h
      (mem_undirected_ring_iff hm htet hring hstep hring')⟩

/-- The corners of three tetrahedra around an axis, of which two mirror each other. -/
def axisCorners : Array Point :=
  #[⟨0, 0, -1⟩, ⟨0, 0, 1⟩, ⟨1, 0, 0⟩, ⟨-0.5, 0.75, 0⟩, ⟨-0.5, -0.75, 0⟩]

/-- The three tetrahedra. -/
def axisTets : List (Quad Vertex) := [⟨0, 1, 2, 3⟩, ⟨0, 1, 3, 4⟩, ⟨0, 1, 4, 2⟩]

/-- The two that mirror each other are equally far from a point in their plane of symmetry, and the
first one is chosen, wherever the ring starts and in whatever order it is listed. -/
theorem farthest_member_determined_axis : ∃ m ring, ofTetrahedra axisCorners axisTets = .ok m ∧
    m.ring 0 5 = .ok ring ∧ m.Measured ring 1 ⟨2, 0, 0⟩ ∧ ring.map (·.tet) = [0, 2, 1] ∧
    m.farthestMember? ring 1 ⟨2, 0, 0⟩ = some 0 ∧
    m.farthestMember? ring.reverse 1 ⟨2, 0, 0⟩ = some 0 ∧
    ∀ step ∈ ring, ∃ ring', m.ring step.tet step.edge = .ok ring' ∧
      m.farthestMember? ring' 1 ⟨2, 0, 0⟩ = some 0 := by
  obtain ⟨m, hm, hlt, hany⟩ : ∃ m, ofTetrahedra axisCorners axisTets = .ok m ∧ 0 < m.size ∧
      (m.ring 0 5).toOption.any (fun ring => decide (m.Measured ring 1 ⟨2, 0, 0⟩ ∧
        ring.map (·.tet) = [0, 2, 1] ∧ m.farthestMember? ring 1 ⟨2, 0, 0⟩ = some 0)) = true :=
    exists_of_any (by decide +kernel)
  obtain ⟨ring, hring, hmeasured, htets, hchoice⟩ := exists_of_any hany
  obtain ⟨-, -, hperm, -, hwalks⟩ := farthest_member_determined hmeasured
  refine ⟨m, ring, hm, hring, hmeasured, htets, hchoice, ?_, fun step hstep => ?_⟩
  · rw [hperm _ ring.reverse_perm, hchoice]
  · obtain ⟨ring', hring', heq⟩ := hwalks 0 5 (closed_of_ofTetrahedra hm) hlt hring step hstep
    exact ⟨ring', hring', heq.trans hchoice⟩

end Mesh

end CavityRepair
