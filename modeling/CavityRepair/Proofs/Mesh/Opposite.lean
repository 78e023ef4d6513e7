import Mathlib.GroupTheory.Perm.Sign
import CavityRepair.Proofs.Mesh.Cycles
import CavityRepair.Proofs.Mesh.Facing
/-!
# The two sides of a facet

In an accepted mesh twins pass the corners of their triangle in opposite directions, provided that
the signs of the test are exact for the vertices (`Mesh.opposite_twins`). Where one of the two
belongs to a real tetrahedron, the check has looked at it (`Mesh.Built.opposite_of_real`). Between
two ghosts it has not: their facet joins an edge of the hull to the vertex at infinity, and each
ghost has the direction of its facet from the hull triangle that it stands before.

So one goes around the edge below the hull, from the hull triangle of one ghost through real
tetrahedra to that of the other. Each step keeps the direction in which the facet of exit passes the
edge (`Mesh.passes_next`). The first ghost that is met is the neighbor, since no third half-face has
the corners of a facet (`Mesh.TwoSided`) and a walk never meets its own reversal.
-/
namespace CavityRepair

/-- Opposite triangles differ by an odd permutation of the corners. -/
theorem Triple.Opposite.exists_odd {α : Type} {t u : Triple α} (h : t.Opposite u) :
    ∃ σ : Equiv.Perm Corner, σ.sign = -1 ∧ ∀ c, u.get c = t.get (σ c) := by
  rcases h with rfl | rfl | rfl
  · exact ⟨.swap 0 1, by decide, by simp [Fin.forall_fin_succ, get, Equiv.swap_apply_def]⟩
  · exact ⟨.swap 1 2, by decide, by simp [Fin.forall_fin_succ, get, Equiv.swap_apply_def]⟩
  · exact ⟨.swap 0 2, by decide, by simp [Fin.forall_fin_succ, get, Equiv.swap_apply_def]⟩

namespace Mesh

/-- The corners of a half-face; one that the mesh does not have is all at infinity. -/
def triangle (m : Mesh) (h : HalfFace) : Triple Vertex := (m.corners h.tet).triangle h.facet

variable {m : Mesh} {here : HalfFace} {x : Turn} {a b : Vertex}

theorem triangle?_eq_triangle (h : here.tet < m.size) : m.triangle? here = some (m.triangle here) :=
  triangle?_eq (nodes_eq_corners h)

theorem Closed.triangle_nodup (hm : m.Closed) (h : here.tet < m.size) :
    (m.triangle here).toList.Nodup :=
  Quad.triangle_nodup (hm.nodup (nodes_eq_corners h)) _

theorem Linked.perm_twin (hm : m.Linked) (h : here.tet < m.size) :
    (m.triangle here).toList.Perm (m.triangle (m.twin here)).toList := by
  have hsame := hm.sorted_twin here
  rw [triangle?_eq_triangle h, triangle?_eq_triangle (hm.twin_lt h), Option.map_some,
    Option.map_some, Option.some_inj, Triple.sorted_eq_sorted_iff] at hsame
  exact hsame.symm

/-- Edits leave the two sides of every triangle the only ones. -/
theorem Built.twoSided [Orient3d] {edits : List MeshEdit} (hbuilt : Built edits m) :
    m.TwoSided := by
  induction hbuilt with
  | closed hm => exact twoSided_of_ofTetrahedra hm
  | edited hbuilt hedit ih => exact (sameShape_of_edit hbuilt.sound.toInRange hedit).twoSided ih

/-! ## Around an edge -/

/-- In a tetrahedron the facet of exit and that of entry pass the edge in opposite directions. -/
theorem passes_exit_iff (hm : m.Closed) (hx : m.Turns x) (ha : m.OnEdge x a) (hb : m.OnEdge x b) :
    (m.triangle ⟨x.tet, x.exit⟩).Passes a b ↔ (m.triangle ⟨x.tet, x.entry⟩).Passes b a := by
  obtain ⟨i, hi, rfl⟩ := ha
  obtain ⟨j, hj, rfl⟩ := hb
  exact Quad.passes_triangle_iff (hm.nodup (nodes_eq_corners hx.tet_lt)) hx.entry_ne.symm hi.symm
    hj.symm

/-- A step across a facet whose sides are opposite keeps the direction in which the facet of exit
passes the edge. -/
theorem passes_next (hm : m.Closed) (hx : m.Turns x)
    (hopposite : (m.triangle ⟨x.tet, x.exit⟩).Opposite (m.triangle (m.twin ⟨x.tet, x.exit⟩)))
    (ha : m.OnEdge x a) (hb : m.OnEdge x b) :
    (m.triangle ⟨(m.next x).tet, (m.next x).exit⟩).Passes a b ↔
      (m.triangle ⟨x.tet, x.exit⟩).Passes a b := by
  have hentry := passes_exit_iff hm (hx.next hm) ((onEdge_next hm hx a).2 ha)
    ((onEdge_next hm hx b).2 hb)
  exact hentry.trans hopposite.passes_iff

theorem passes_iterate (hm : m.Closed) (hx : m.Turns x) {n : Nat}
    (hopposite : ∀ i < n, (m.triangle ⟨(m.next^[i] x).tet, (m.next^[i] x).exit⟩).Opposite
      (m.triangle (m.twin ⟨(m.next^[i] x).tet, (m.next^[i] x).exit⟩)))
    (ha : m.OnEdge x a) (hb : m.OnEdge x b) :
    (m.triangle ⟨(m.next^[n] x).tet, (m.next^[n] x).exit⟩).Passes a b ↔
      (m.triangle ⟨x.tet, x.exit⟩).Passes a b := by
  induction n with
  | zero => rfl
  | succ n ih =>
    have hstep := passes_next hm (hx.iterate hm n) (hopposite n (by omega))
      ((onEdge_iterate hm hx n a).2 ha) ((onEdge_iterate hm hx n b).2 hb)
    rw [Function.iterate_succ_apply', hstep]
    exact ih fun i hi => hopposite i (by omega)

/-- The two ends of an edge are different vertices. -/
theorem exists_onEdge (hm : m.Closed) (hx : m.Turns x) :
    ∃ a b, a ≠ b ∧ m.OnEdge x a ∧ m.OnEdge x b := by
  obtain ⟨hfirst, hsecond⟩ := Turn.slots_ne hx.entry_ne
  have hslots : ∀ e : Edge, e.slots.1 ≠ e.slots.2 := by decide
  refine ⟨_, _, fun heq => ?_, ⟨_, hfirst, rfl⟩, ⟨_, hsecond, rfl⟩⟩
  exact hslots x.edge ((Quad.get_inj (hm.nodup (nodes_eq_corners hx.tet_lt))).1 heq)

/-- A walk from a ghost comes to a first ghost. -/
theorem exists_first_ghost (hm : m.Closed) (hx : m.Turns x)
    (hghost : (m.corners x.tet).isGhost = true) :
    ∃ k, (m.corners (m.next^[k + 1] x).tet).isGhost = true ∧
      ∀ i, 0 < i → i ≤ k → (m.corners (m.next^[i] x).tet).isGhost = false := by
  have hback : ∃ n, 0 < n ∧ (m.corners (m.next^[n] x).tet).isGhost = true :=
    ⟨m.period x, period_pos hm hx, by rw [iterate_period]; exact hghost⟩
  obtain ⟨hpos, hlast⟩ := Nat.find_spec hback
  obtain ⟨k, hk⟩ := Nat.exists_eq_succ_of_ne_zero hpos.ne'
  rw [hk] at hlast
  refine ⟨k, hlast, fun i hi hle => Bool.eq_false_iff.2 fun h => ?_⟩
  exact Nat.find_min hback (show i < Nat.find hback by omega) ⟨hi, h⟩

/-! ## The two sides -/

section

variable [Orient3d] {edits : List MeshEdit}

namespace Built

/-- The check has looked at a facet that has a real tetrahedron on one of its sides. -/
theorem opposite_of_real (hbuilt : Built edits m) (hexact : Orient3d.ExactOn m.vertices)
    (hvalid : m.validate = .ok ()) (hh : here.tet < m.size)
    (hreal : (m.corners here.tet).isGhost = false ∨ (m.corners (m.twin here).tet).isGhost = false) :
    (m.triangle here).Opposite (m.triangle (m.twin here)) := by
  have hm := hbuilt.sound.toLinked
  have hn := nodes_eq_corners hh
  have hn' := nodes_eq_corners (hm.twin_lt hh)
  rcases hreal with hreal | hreal
  · exact hbuilt.opposite_twin hexact hvalid hn hn' hreal
  · have hback := hm.twin_twin here
    have hopposite := hbuilt.opposite_twin hexact hvalid hn' (by rw [hback]; exact hn) hreal
    rw [hback] at hopposite
    exact hopposite.symm

/-- The walk that leaves a ghost through its hull triangle passes real tetrahedra below the hull and
enters the next ghost through the hull triangle of that one. -/
theorem exists_fan (hbuilt : Built edits m) (hx : m.Turns x) (hexit : x.exit = 3)
    (hghost : (m.corners x.tet).isGhost = true) :
    ∃ n, (∀ i < n, (m.corners (m.next^[i] x).tet).isGhost = false ∨
        (m.corners (m.next^[i + 1] x).tet).isGhost = false) ∧
      (m.corners (m.next^[n] x).tet).isGhost = true ∧ (m.next^[n] x).entry = 3 := by
  have hm := hbuilt.sound.toClosed
  obtain ⟨k, hlast, hbefore⟩ := exists_first_ghost hm hx hghost
  -- Right behind the hull triangle stands a real tetrahedron.
  have hfirst : (m.corners (m.next x).tet).isGhost = false := by
    obtain ⟨theirs, htheirs, hreal⟩ :=
      hbuilt.real_behind_ghost (nodes_eq_corners hx.tet_lt) hghost
    have htet : (m.next x).tet = (m.twin ⟨x.tet, 3⟩).tet := by rw [← hexit]; rfl
    rw [htet, corners, htheirs]
    exact hreal
  have hk : 0 < k := Nat.pos_of_ne_zero fun hzero => by
    rw [hzero] at hlast
    exact Bool.false_ne_true (hfirst.symm.trans hlast)
  refine ⟨k + 1, fun i hi => ?_, hlast, ?_⟩
  · by_cases hzero : i = 0
    · exact .inr (hzero ▸ hfirst)
    · exact .inl (hbefore i (by omega) (by omega))
  · have hy := hx.iterate hm k
    rw [Function.iterate_succ_apply'] at hlast ⊢
    show (m.twin ⟨(m.next^[k] x).tet, (m.next^[k] x).exit⟩).facet = 3
    exact hbuilt.hulled.facet_of_ghost hm.toLinked (nodes_eq_corners hy.tet_lt)
      (nodes_eq_corners (hy.next hm).tet_lt) (hbefore k hk (Nat.le_refl k)) hlast

/-- Between two ghosts the facet is opposite because the hull triangles that they stand before pass
their common edge in opposite directions. -/
theorem opposite_of_ghosts (hbuilt : Built edits m) (hexact : Orient3d.ExactOn m.vertices)
    (hvalid : m.validate = .ok ()) (hh : here.tet < m.size)
    (hghost : (m.corners here.tet).isGhost = true)
    (hghost' : (m.corners (m.twin here).tet).isGhost = true) :
    (m.triangle here).Opposite (m.triangle (m.twin here)) := by
  have hm := hbuilt.sound.toClosed
  have hfacet : here.facet ≠ 3 := by
    intro hthree
    obtain ⟨theirs, htheirs, hreal⟩ := hbuilt.real_behind_ghost (nodes_eq_corners hh) hghost
    rw [← hthree] at htheirs
    rw [corners, htheirs] at hghost'
    exact Bool.false_ne_true (hreal.symm.trans hghost')
  have hx : m.Turns ⟨here.tet, here.facet, 3⟩ := ⟨hh, hfacet⟩
  obtain ⟨n, hreal, hlast, hentry⟩ := hbuilt.exists_fan hx rfl hghost
  obtain ⟨a, b, hab, ha, hb⟩ := exists_onEdge hm hx
  have hy := hx.iterate hm n
  have hpasses := fun {u v} => passes_iterate hm hx (n := n) (a := u) (b := v) fun i hi =>
    hbuilt.opposite_of_real hexact hvalid (hx.iterate hm i).tet_lt (by
      have := hreal i hi
      rwa [Function.iterate_succ_apply'] at this)
  have hends := ends_iterate hm hx n
  have hreverse := iterate_ne_reverse hm hx n
  generalize m.next^[n] ⟨here.tet, here.facet, 3⟩ = y at hlast hentry hy hpasses hends hreverse
  -- Both ghosts have the facet of the edge and the vertex at infinity.
  have hcorners : m.cornerSet? ⟨y.tet, y.exit⟩ = m.cornerSet? here := by
    have hback := cornerSet?_exit hx.reverse
    rw [cornerSet?_exit hy, hentry, Quad.isGhost_iff.1 hlast, hends]
    rw [Turn.reverse, Quad.isGhost_iff.1 hghost] at hback
    rw [hback, ends, ends, Turn.edge, Turn.edge, Edge.ofFacets?_comm]
  have htwin : m.twin here = ⟨y.tet, y.exit⟩ := by
    have hsides := hbuilt.twoSided.eq_or_eq_twin hh hy.tet_lt (hm.cornerSet?_eq_iff.1 hcorners)
    refine hsides.elim (fun heq => absurd ?_ hreverse) Eq.symm
    obtain ⟨tet, entry, exit⟩ := y
    obtain rfl : entry = 3 := hentry
    obtain rfl : here = ⟨tet, exit⟩ := heq.symm
    rfl
  have hdirection : ∀ {u v}, m.OnEdge ⟨here.tet, here.facet, 3⟩ u →
      m.OnEdge ⟨here.tet, here.facet, 3⟩ v → (m.triangle here).Passes u v →
      (m.triangle (m.twin here)).Passes v u := by
    intro u v hu hv h
    rw [htwin, hpasses hv hu]
    exact (passes_exit_iff hm hx hv hu).2 h
  have hmem : ∀ {u}, m.OnEdge ⟨here.tet, here.facet, 3⟩ u → u ∈ (m.triangle here).toList := by
    rintro u ⟨i, hi, hget⟩
    exact Quad.mem_triangle.2 ⟨i, hi.1, hget⟩
  exact Triple.opposite_of_edge (hm.perm_twin hh) (hm.triangle_nodup hh) (hmem ha) (hmem hb) hab
    (hdirection ha hb) (hdirection hb ha)

/-- In an accepted mesh the two sides of every facet are opposite. -/
theorem opposite_sides (hbuilt : Built edits m) (hexact : Orient3d.ExactOn m.vertices)
    (hvalid : m.validate = .ok ()) (hh : here.tet < m.size) :
    (m.triangle here).Opposite (m.triangle (m.twin here)) := by
  cases hghost : (m.corners here.tet).isGhost with
  | false => exact hbuilt.opposite_of_real hexact hvalid hh (.inl hghost)
  | true =>
    cases hghost' : (m.corners (m.twin here).tet).isGhost with
    | false => exact hbuilt.opposite_of_real hexact hvalid hh (.inr hghost')
    | true => exact hbuilt.opposite_of_ghosts hexact hvalid hh hghost hghost'

end Built

/-- Where the signs of the test are exact for the vertices of an accepted mesh, every half-face, of
a ghost or not, has three different corners, its twin has them in an odd permutation, and so the two
pass them in opposite directions. -/
theorem opposite_twins (hbuilt : Built edits m) (hexact : Orient3d.ExactOn m.vertices)
    (hvalid : m.validate = .ok ()) (hh : here.tet < m.size) :
    ∃ there mine theirs, m.twin? here = some there ∧
      m.triangle? here = some mine ∧ m.triangle? there = some theirs ∧ mine.toList.Nodup ∧
      (∃ σ : Equiv.Perm Corner, σ.sign = -1 ∧ ∀ c, theirs.get c = mine.get (σ c)) ∧
      ∀ a b, theirs.Passes a b ↔ mine.Passes b a := by
  have hm := hbuilt.sound.toClosed
  have hopposite := hbuilt.opposite_sides hexact hvalid hh
  exact ⟨m.twin here, m.triangle here, m.triangle (m.twin here), hm.twin?_eq hh,
    triangle?_eq_triangle hh, triangle?_eq_triangle (hm.twin_lt hh), hm.triangle_nodup hh,
    hopposite.exists_odd, fun _ _ => hopposite.passes_iff⟩

end

/-- The facet of two ghosts behind the pyramid, which joins one of its edges to infinity. -/
theorem opposite_twins_pyramid : ∃ m, ofTetrahedra pyramidCorners pyramidTets = .ok m ∧
    Orient3d.ExactOn m.vertices ∧ m.validate = .ok () ∧ m.ghost? 2 = some true ∧
    m.ghost? (m.twin ⟨2, 0⟩).tet = some true ∧ m.triangle? ⟨2, 0⟩ = some ⟨2, 3, Vertex.ghost⟩ ∧
    ∃ there mine theirs,
      m.twin? ⟨2, 0⟩ = some there ∧ m.triangle? ⟨2, 0⟩ = some mine ∧
      m.triangle? there = some theirs ∧ mine.toList.Nodup ∧
      (∃ σ : Equiv.Perm Corner, σ.sign = -1 ∧ ∀ c, theirs.get c = mine.get (σ c)) ∧
      ∀ a b, theirs.Passes a b ↔ mine.Passes b a := by
  obtain ⟨m, hm, hvalid, hlt, hghost, hghost', hcorners⟩ : ∃ m,
      ofTetrahedra pyramidCorners pyramidTets = .ok m ∧ m.validate = .ok () ∧ 2 < m.size ∧
      m.ghost? 2 = some true ∧ m.ghost? (m.twin ⟨2, 0⟩).tet = some true ∧
      m.triangle? ⟨2, 0⟩ = some ⟨2, 3, Vertex.ghost⟩ := exists_of_any (by decide +kernel)
  have hexact := (Orient3d.faithful_exact m.vertices).exactOn
  exact ⟨m, hm, hexact, hvalid, hghost, hghost', hcorners,
    opposite_twins (.closed hm) hexact hvalid hlt⟩

end Mesh

end CavityRepair
