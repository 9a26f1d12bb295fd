import PlanarDynamics.Collision.Rule

/-!
# What is left of a cut side

Two outlines get their contact points from one side of each.  The incident side is cut at one end of
the reference side, what is left of it at the other end, and of the two points that are then left
those behind the reference side are kept.  `Collision.Cut` lists the ways in which a cut can go, and
`Collision.exists_remains` reads both cuts off a manifold that has points.  Neither asks anything of
arithmetic.
-/

namespace PlanarDynamics

/-! ## Adding points -/

namespace Manifold

variable {α β : Type}

theorem points_of_isEmpty {m : Manifold α} (h : m.isEmpty = true) : m.points = [] := by
  have hcount : m.count = 0 := by simpa [isEmpty] using h
  rw [points, hcount, List.take_zero]

/-- A point comes after those that are there, if there is room. -/
theorem points_push (m : Manifold α) (p : ManifoldPoint α) :
    (m.push p).points = (m.points ++ [p]).take 2 := by
  match h : m.count with
  | 0 => simp [push, push?, points, h]
  | 1 => simp [push, push?, points, h]
  | n + 2 => simp [push, push?, points, h]

/-- The two manifolds have the same kind, and the same normal and point in local coordinates. -/
structure SameFrame (m m' : Manifold α) : Prop where
  kind : m'.kind = m.kind
  localNormal : m'.localNormal = m.localNormal
  localPoint : m'.localPoint = m.localPoint

theorem sameFrame_push (m : Manifold α) (p : ManifoldPoint α) : m.SameFrame (m.push p) := by
  rw [push, push?]
  split <;> exact ⟨rfl, rfl, rfl⟩

variable {keep : β → Prop} [DecidablePred keep] {f : β → ManifoldPoint α}

theorem sameFrame_foldl_push (cs : List β) (m : Manifold α) :
    m.SameFrame (cs.foldl (fun m c ↦ if keep c then m.push (f c) else m) m) := by
  induction cs generalizing m with
  | nil => exact ⟨rfl, rfl, rfl⟩
  | cons c cs ih =>
    rw [List.foldl_cons]
    split
    · have hpush := m.sameFrame_push (f c)
      have hrest := ih (m.push (f c))
      exact ⟨hrest.kind.trans hpush.kind, hrest.localNormal.trans hpush.localNormal,
        hrest.localPoint.trans hpush.localPoint⟩
    · exact ih m

/-- Of some points, those that are kept are added in order, as far as there is room. -/
theorem points_foldl_push (cs : List β) (m : Manifold α) (hm : m.points.length ≤ 2) :
    (cs.foldl (fun m c ↦ if keep c then m.push (f c) else m) m).points =
      (m.points ++ (cs.filter keep).map f).take 2 := by
  induction cs generalizing m with
  | nil =>
    change m.points = (m.points ++ []).take 2
    rw [List.append_nil, List.take_of_length_le hm]
  | cons c cs ih =>
    rw [List.foldl_cons]
    split
    next hc =>
      have hroom : (m.push (f c)).points.length ≤ 2 := by
        rw [points_push]
        exact List.length_take_le 2 _
      rw [ih _ hroom, points_push, List.filter_cons_of_pos (by simpa using hc), List.map_cons,
        List.append_cons m.points (f c) (List.map f _)]
      -- Only two points count, whether the surplus is dropped at once or at the end.
      match m.points ++ [f c] with
      | [] | [_] => rfl
      | _ :: _ :: _ => rfl
    next hc => rw [ih m hm, List.filter_cons_of_neg (by simpa using hc)]

end Manifold

/-! ## The numbers of a side's ends -/

namespace Outline

variable {α : Type} {o : Outline α} {s : Side α}

theorem index_of_mem_sides (hs : s ∈ o.sides) :
    s.index < o.vertices.length ∧ s.next = (s.index + 1) % o.vertices.length := by
  obtain ⟨⟨⟨ends, n⟩, i⟩, hx, rfl⟩ := List.mem_map.mp hs
  obtain ⟨-, hi, -⟩ := List.mem_zipIdx hx
  rw [List.length_zip, length_successive] at hi
  exact ⟨show i < _ by omega, rfl⟩

theorem next_lt_of_mem_sides (hs : s ∈ o.sides) : s.next < o.vertices.length := by
  obtain ⟨hi, hn⟩ := index_of_mem_sides hs
  rw [hn]
  exact Nat.mod_lt _ (by omega)

/-- With two vertices or more, no side ends where it starts. -/
theorem index_ne_next (hs : s ∈ o.sides) (ho : 2 ≤ o.vertices.length) : s.index ≠ s.next := by
  obtain ⟨hi, hn⟩ := index_of_mem_sides hs
  rcases Nat.lt_or_ge (s.index + 1) o.vertices.length with hlt | hge
  · rw [hn, Nat.mod_eq_of_lt hlt]
    omega
  · have hlast : s.index + 1 = o.vertices.length := by omega
    rw [hn, hlast, Nat.mod_self]
    omega

end Outline

namespace Collision

variable {α : Type} [Scalar α] {o o' : Outline α} {t u : Pose α}

/-! ## Which sides are chosen -/

/-- A search for the best of some items ends with the one that it began with or with one of them. -/
theorem fst_foldlM_mem {β : Type} {f : β → Option α} {l : List β} {best r : β × α}
    (h : l.foldlM (fun best x ↦ do
      let d ← f x
      return if best.2 < d then (x, d) else best) best = some r) :
    r.1 = best.1 ∨ r.1 ∈ l := by
  induction l generalizing best with
  | nil =>
    cases h
    exact .inl rfl
  | cons x l ih =>
    rw [List.foldlM_cons] at h
    obtain ⟨b, hb, hrest⟩ := Option.bind_eq_some_iff.mp h
    obtain ⟨d, -, hd⟩ := Option.bind_eq_some_iff.mp hb
    cases hd
    rcases ih hrest with hr | hr
    · split at hr
      · exact .inr (hr ▸ List.mem_cons_self)
      · exact .inl hr
    · exact .inr (List.mem_cons_of_mem _ hr)

theorem mem_of_greatestSeparation? {s : Side α} {m : α}
    (h : greatestSeparation? o t o' u = some (s, m)) : s ∈ o.sides := by
  rw [greatestSeparation?] at h
  split at h
  next => cases h
  next s₀ rest hsides =>
    obtain ⟨d₀, -, hrest⟩ := Option.bind_eq_some_iff.mp h
    rw [hsides]
    rcases fst_foldlM_mem hrest with hs | hs
    · change s = s₀ at hs
      exact hs ▸ List.mem_cons_self
    · exact List.mem_cons_of_mem _ hs

theorem fst_foldl_mem {f : Side α → α} {l : List (Side α)} (best : Side α × Option α) :
    (l.foldl (fun best s ↦
      if Scalar.lowers (f s) best.2 then (s, some (f s)) else best) best).1 = best.1 ∨
    (l.foldl (fun best s ↦
      if Scalar.lowers (f s) best.2 then (s, some (f s)) else best) best).1 ∈ l := by
  induction l generalizing best with
  | nil => exact .inl rfl
  | cons s l ih =>
    rw [List.foldl_cons]
    split
    · rcases ih (s, some (f s)) with hr | hr
      · exact .inr (hr ▸ List.mem_cons_self)
      · exact .inr (List.mem_cons_of_mem _ hr)
    · rcases ih best with hr | hr
      · exact .inl hr
      · exact .inr (List.mem_cons_of_mem _ hr)

theorem mem_of_incidentSide? {n : Vec α} {e : Side α} (h : incidentSide? o n = some e) :
    e ∈ o.sides := by
  rw [incidentSide?] at h
  split at h
  next => cases h
  next s₀ rest hsides =>
    cases h
    rw [hsides]
    rcases fst_foldl_mem (f := fun s ↦ n.dot s.normal) (l := s₀ :: rest) (s₀, none) with hs | hs
    · exact hs ▸ List.mem_cons_self
    · exact hs

/-! ## Cutting -/

/-- The place where the segment from `p` to `q` leaves the half-plane `d · x ≤ l`. -/
def ClipPoint.crossing (p q : ClipPoint α) (d : Vec α) (l : α) (i : Nat) : ClipPoint α where
  point := p.point + (q.point - p.point) *
    ((d.dot p.point - l) / (d.dot p.point - l - (d.dot q.point - l)))
  id := ⟨i.toUInt8, .vertex, p.id.indexB, .face⟩

/-- `p` lies in the half-plane `d · x ≤ l`. -/
def ClipPoint.Within (d : Vec α) (l : α) (p : ClipPoint α) : Prop := d.dot p.point - l ≤ 0

/-- What two points are left of the segment from `p` to `q`.  If one end is cut off, the end that
is kept comes first, so that a cut can turn the segment round. -/
inductive Cut (p q : ClipPoint α) (d : Vec α) (l : α) (i : Nat) : ClipPoint α → ClipPoint α → Prop
  | whole (hp : p.Within d l) (hq : q.Within d l) : Cut p q d l i p q
  | start (hp : p.Within d l) (hcross : (d.dot p.point - l) * (d.dot q.point - l) < 0) :
      Cut p q d l i p (p.crossing q d l i)
  | stop (hq : q.Within d l) (hcross : (d.dot p.point - l) * (d.dot q.point - l) < 0) :
      Cut p q d l i q (p.crossing q d l i)

theorem cut_of_clip {p q p' q' : ClipPoint α} {d : Vec α} {l : α} {i : Nat}
    (h : clip p q d l i = [p', q']) : Cut p q d l i p' q' := by
  by_cases hp : d.dot p.point - l ≤ 0 <;> by_cases hq : d.dot q.point - l ≤ 0 <;>
    by_cases hx : (d.dot p.point - l) * (d.dot q.point - l) < 0 <;>
    simp only [clip, hp, hq, hx, if_true, if_false, List.nil_append, List.append_nil,
      List.cons_append] at h <;> cases h
  · exact .whole hp hq
  · exact .start hp hx
  · exact .stop hq hx

/-- `p` and `q` are what the two ends of the reference side `s` leave of the side `e` of `o`. -/
structure Remains (s : Side α) (t : Pose α) (o : Outline α) (u : Pose α) (e : Side α)
    (p q : ClipPoint α) : Prop where
  incident : incidentSide? o (u.unrotate (t.rotate s.normal)) = some e
  cuts : ∃ p' q',
    Cut ⟨u.apply e.start, ⟨s.index.toUInt8, .face, e.index.toUInt8, .vertex⟩⟩
      ⟨u.apply e.stop, ⟨s.index.toUInt8, .face, e.next.toUInt8, .vertex⟩⟩
      (-(t.rotate (s.stop - s.start).normalize))
      (-(t.rotate (s.stop - s.start).normalize).dot (t.apply s.start)) s.index p' q' ∧
    Cut p' q' (t.rotate (s.stop - s.start).normalize)
      ((t.rotate (s.stop - s.start).normalize).dot (t.apply s.stop)) s.next p q

/-- The points of a contact with the reference side `s` are those of the two that remain of the
incident side that do not lie in front of `s`. -/
theorem exists_remains {s : Side α} {kind : ManifoldKind} {label : FeaturePair → FeaturePair}
    (h : (clipAgainst s t o u kind label).isEmpty = false) :
    ∃ e p q, Remains s t o u e p q ∧
      Manifold.SameFrame (.withoutPoints kind ((s.stop - s.start).normalize.crossOut 1) s.center)
        (clipAgainst s t o u kind label) ∧
      (clipAgainst s t o u kind label).points =
        ([p, q].filter fun c ↦ ((t.rotate (s.stop - s.start).normalize).crossOut 1).dot c.point -
          ((t.rotate (s.stop - s.start).normalize).crossOut 1).dot (t.apply s.start) ≤ 0).map
        fun c ↦ .fresh (u.unapply c.point) (label c.id) := by
  revert h
  rw [clipAgainst]
  split
  next => exact nofun
  next e he =>
    dsimp only
    split
    next p' q' hfirst =>
      split
      next p q hsecond =>
        intro _
        refine ⟨e, p, q, ⟨he, p', q', cut_of_clip hfirst, cut_of_clip hsecond⟩,
          Manifold.sameFrame_foldl_push _ _, ?_⟩
        rw [Manifold.points_foldl_push [p, q] _ (by exact Nat.zero_le 2)]
        refine List.take_of_length_le ?_
        change (List.map _ _).length ≤ 2
        rw [List.length_map]
        exact List.length_filter_le _ [p, q]
      next => exact nofun
    next => exact nofun

end Collision

end PlanarDynamics
