import PlanarDynamics.Proofs.Real.Bounds
import PlanarDynamics.Proofs.World.Reachable

/-!
# Which colliders are near each other

Over the real numbers every collider has a box, which holds its bounds.  So colliders whose shapes
no line separates are near each other.
-/

namespace PlanarDynamics

namespace Box

theorem contains_grow (b : Box ℝ) {m : ℝ} (hm : 0 ≤ m) : (b.grow m).contains b = true := by
  simp only [contains_iff, grow, Vec.sub_x, Vec.sub_y, Vec.add_x, Vec.add_y]
  refine ⟨⟨?_, ?_⟩, ?_, ?_⟩ <;> linarith

end Box

namespace World

variable {σ : Type} {w : World ℝ σ} {p : Pair}

theorem measures_nonneg (hw : w.Reachable) : 0 ≤ w.grid.scale ∧ 0 ≤ w.grid.margin := by
  obtain ⟨s, actions, w₀, h₀, hr⟩ := hw
  obtain ⟨hscale, hmargin⟩ := measures_run (wf_ofSettings h₀) hr
  obtain ⟨hs, rfl⟩ := ofSettings_eq_ok_iff.1 h₀
  rw [hscale, hmargin, Scalar.max_eq]
  exact ⟨(one_div_pos.2 hs).le, le_max_right _ _⟩

/-- The box of a collider stays for as long as it holds the bounds. -/
theorem box?_syncBoxes_eq {i : ColliderId} {c : Collider ℝ} {b : BodyId} {x : Body ℝ}
    (hc : w.colliders[i]? = some c) (hb : c.body = some b) (hx : w.bodies[b]? = some x) :
    w.syncBoxes.grid.box? i =
      if (w.grid.box? i).any (·.contains (c.shape.bounds x.pose)) then w.grid.box? i
      else some ((c.shape.bounds x.pose).grow w.grid.margin) := by
  rw [box?_syncBoxes hc, box?_syncBox_self, hb, Option.bind_some, hx, Option.bind_some]
  exact if_pos rfl

/-- The box of a collider holds its bounds. -/
theorem exists_box (hm : 0 ≤ w.grid.margin) {i : ColliderId} {c : Collider ℝ} {b : BodyId}
    {x : Body ℝ} (hc : w.colliders[i]? = some c) (hb : c.body = some b)
    (hx : w.bodies[b]? = some x) :
    ∃ box, w.syncBoxes.grid.box? i = some box ∧
      box.contains (c.shape.bounds x.pose) = true := by
  rw [box?_syncBoxes_eq hc hb hx]
  split
  next hany => exact (Option.any_eq_true _ _).1 hany
  · exact ⟨_, rfl, Box.contains_grow _ hm⟩

/-- Colliders whose shapes are inseparable are near each other. -/
theorem mem_near_of_inseparable (hs : 0 ≤ w.grid.scale) (hm : 0 ≤ w.grid.margin)
    (hp : p.lo ≠ p.hi) {a b : Collider ℝ} {i j : BodyId} {x y : Body ℝ}
    (ha : w.colliders[p.lo]? = some a) (hb : w.colliders[p.hi]? = some b) (hi : a.body = some i)
    (hj : b.body = some j) (hx : w.bodies[i]? = some x) (hy : w.bodies[j]? = some y)
    (h : Shape.Inseparable a.shape x.pose b.shape y.pose) : p ∈ w.near := by
  obtain ⟨boxA, hboxA, hA⟩ := exists_box hm ha hi hx
  obtain ⟨boxB, hboxB, hB⟩ := exists_box hm hb hj hy
  have ho := Shape.overlaps_bounds h
  obtain ⟨hAx, hAy⟩ := Shape.lower_le_upper_bounds a.shape x.pose
  obtain ⟨hBx, hBy⟩ := Shape.lower_le_upper_bounds b.shape y.pose
  obtain ⟨⟨hA₁, hA₂⟩, hA₃, hA₄⟩ := Box.contains_iff.1 hA
  obtain ⟨⟨hB₁, hB₂⟩, hB₃, hB₄⟩ := Box.contains_iff.1 hB
  have hover : boxA.overlaps boxB = true := by
    obtain ⟨⟨h₁, h₂⟩, h₃, h₄⟩ := Box.overlaps_iff.1 ho
    refine Box.overlaps_iff.2 ⟨⟨?_, ?_⟩, ?_, ?_⟩ <;> linarith
  have hscale : 0 ≤ w.syncBoxes.grid.scale := by
    rw [(sameButBoxes_syncBoxes (w := w)).scale]
    exact hs
  refine (Grid.mem_overlapping _).2 ⟨hp, boxA, boxB, hboxA, hboxB, hover, ?_⟩
  refine Grid.exists_common_cell _ (fun u v huv ↦ ?_) ?_ ?_ ?_ ?_ hover
  · exact Scalar.cell_mono (mul_le_mul_of_nonneg_right huv hscale)
  all_goals linarith

end World

end PlanarDynamics
