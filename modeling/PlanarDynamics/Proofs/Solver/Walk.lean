import Mathlib.Data.List.Nodup
import Mathlib.Data.List.Perm.Subperm
import Mathlib.Logic.Relation
import PlanarDynamics.Solver.Island

/-!
# Walks over links

A walk marks the contacts that it takes, and passes over those that are marked.  It could as well
take no notice of marks, push the bodies at the far ends of all links, and look for the contacts of
the bodies found when it is done: that is what `Island.reach`, `Island.ofReached` and
`Island.collect` do.  The two agree because a marked link leads nowhere new.  It was followed from
one of its ends, and by then the other had been seen (`Walk.Settled`); and the links of earlier
islands end at no body that moves and is in none.  So `Island.gather` finds the same islands as
`Island.collect`, and these are reasoned about in its place.
-/

namespace PlanarDynamics

/-! ## Links -/

namespace Link

variable {l : Link} {i j : BodyId}

theorem touches_iff : l.touches i = true ↔ l.a = i ∨ l.b = i := by
  simp [touches]

theorem other_eq (hi : l.touches i = true) (hj : l.touches j = true) (hij : j ≠ i) :
    l.other j = i := by
  rw [touches_iff] at hi hj
  grind [other]

/-- A link is known by its slot. -/
theorem eq_of_pairwise {links : List Link} {l l' : Link}
    (h : links.Pairwise (·.handle.index < ·.handle.index)) (hl : l ∈ links) (hl' : l' ∈ links)
    (he : l.handle.index = l'.handle.index) : l = l' := by
  have hslots : (links.map (·.handle.index)).Nodup := List.pairwise_map.2 (h.imp Nat.ne_of_lt)
  exact List.inj_on_of_nodup_map hslots hl hl' he

end Link

namespace Island

/-! ## Walks without marks -/

/-- Puts those of the bodies `next` that are still to be found on top of a stack. -/
def pushAll : List BodyId → List BodyId × List BodyId → List BodyId × List BodyId
  | [], st => st
  | i :: next, (stack, unseen) =>
    pushAll next (if i ∈ unseen then (i :: stack, unseen.erase i) else (stack, unseen))

theorem perm_of_mem_unseen {i : BodyId} {unseen : List BodyId} (hi : i ∈ unseen)
    (stack : List BodyId) : (i :: stack ++ unseen.erase i).Perm (stack ++ unseen) :=
  List.perm_middle.symm.trans ((List.perm_cons_erase hi).symm.append_left stack)

/-- Bodies are moved from the one list to the other. -/
theorem pushAll_perm (next : List BodyId) (st : List BodyId × List BodyId) :
    ((pushAll next st).1 ++ (pushAll next st).2).Perm (st.1 ++ st.2) := by
  induction next generalizing st with
  | nil => exact .refl _
  | cons i next ih =>
    obtain ⟨stack, unseen⟩ := st
    rw [pushAll]
    refine (ih _).trans ?_
    split
    · exact perm_of_mem_unseen ‹i ∈ unseen› stack
    · exact .refl _

theorem pushAll_snd_sublist (next : List BodyId) (st : List BodyId × List BodyId) :
    (pushAll next st).2.Sublist st.2 := by
  induction next generalizing st with
  | nil => exact .refl _
  | cons i next ih =>
    obtain ⟨stack, unseen⟩ := st
    rw [pushAll]
    refine (ih _).trans ?_
    split
    · exact List.erase_sublist
    · exact .refl _

theorem length_pushAll (next : List BodyId) (st : List BodyId × List BodyId) :
    2 * (pushAll next st).2.length + (pushAll next st).1.length ≤
      2 * st.2.length + st.1.length := by
  have hperm := (pushAll_perm next st).length_eq
  have hsub := (pushAll_snd_sublist next st).length_le
  rw [List.length_append, List.length_append] at hperm
  omega

/-- The bodies that links join to a body, in the order of the links. -/
def neighbours (links : List Link) (i : BodyId) : List BodyId :=
  (links.filter (·.touches i)).map (·.other i)

/-- Walks from the bodies on a stack over the links, and lists the bodies in the order in which
they come off the stack. `unseen` are the bodies that have not been on it. Static bodies are not
walked through. -/
def reach (isStatic : BodyId → Bool) (links : List Link) :
    List BodyId → List BodyId → List BodyId
  | [], _ => []
  | i :: stack, unseen =>
    if isStatic i then i :: reach isStatic links stack unseen
    else
      let st := pushAll (neighbours links i) (stack, unseen)
      i :: reach isStatic links st.1 st.2
termination_by stack unseen => 2 * unseen.length + stack.length
decreasing_by
  · simp
  · have := length_pushAll (neighbours links i) (stack, unseen)
    simp only [List.length_cons] at this ⊢
    omega

/-- The island of the bodies reached. -/
def ofReached (isStatic : BodyId → Bool) (links : List Link) (reached : List BodyId) : Island :=
  let moving := reached.filter (!isStatic ·)
  { bodies := moving ++ reached.filter isStatic
    contacts := (links.filter fun l ↦ moving.any l.touches).map (·.handle) }

/-- The islands of the given first bodies, where `unseen` are the bodies in none so far. -/
def collect (isStatic : BodyId → Bool) (links : List Link) :
    List BodyId → List BodyId → List Island
  | [], _ => []
  | seed :: seeds, unseen =>
    if isStatic seed || seed ∉ unseen then collect isStatic links seeds unseen
    else
      let reached := reach isStatic links [seed] (unseen.erase seed)
      ofReached isStatic links reached ::
        collect isStatic links seeds (unseen.filter fun i ↦ isStatic i || i ∉ reached)

section Walks

variable {isStatic : BodyId → Bool} {links : List Link} {i j : BodyId} {unseen : List BodyId}

/-- Some link joins the bodies. -/
def Joins (links : List Link) (i j : BodyId) : Prop :=
  ∃ l ∈ links, l.a = i ∧ l.b = j ∨ l.a = j ∧ l.b = i

theorem Joins.symm (h : Joins links i j) : Joins links j i := by
  obtain ⟨l, hl, h⟩ := h
  exact ⟨l, hl, h.symm⟩

theorem joins_of_touches {l : Link} (hl : l ∈ links) (hi : l.touches i = true)
    (hj : l.touches j = true) : i = j ∨ Joins links i j := by
  rw [Link.touches_iff] at hi hj
  rcases hi with hi | hi <;> rcases hj with hj | hj
  · exact .inl (hi.symm.trans hj)
  · exact .inr ⟨l, hl, .inl ⟨hi, hj⟩⟩
  · exact .inr ⟨l, hl, .inr ⟨hj, hi⟩⟩
  · exact .inl (hi.symm.trans hj)

theorem mem_neighbours : j ∈ neighbours links i ↔ Joins links i j := by
  simp only [neighbours, Joins, List.mem_map, List.mem_filter, Link.touches_iff, and_assoc]
  refine exists_congr fun l ↦ and_congr_right fun _ ↦ ?_
  rw [Link.other]
  split
  · grind
  · grind

/-- A walk may go on from `i` to `j`. -/
def Steps (isStatic : BodyId → Bool) (links : List Link) (i j : BodyId) : Prop :=
  isStatic i = false ∧ Joins links i j

/-- A walk may lead from the one body to the other. -/
abbrev Reaches (isStatic : BodyId → Bool) (links : List Link) : BodyId → BodyId → Prop :=
  Relation.ReflTransGen (Steps isStatic links)

/-- A walk to a body that moves can be walked back. -/
theorem reaches_symm (h : Reaches isStatic links i j) (hj : isStatic j = false) :
    Reaches isStatic links j i := by
  induction h with
  | refl => exact .refl
  | tail _ hs ih => exact .head ⟨hj, hs.2.symm⟩ (ih hs.1)

theorem mem_pushAll_fst {next : List BodyId} {st : List BodyId × List BodyId} :
    j ∈ (pushAll next st).1 ↔ j ∈ st.1 ∨ j ∈ next ∧ j ∈ st.2 := by
  induction next generalizing st with
  | nil => simp [pushAll]
  | cons i next ih =>
    obtain ⟨stack, unseen⟩ := st
    rw [pushAll, ih]
    split
    next hi =>
      by_cases hj : j = i
      · simp [hj, hi]
      · simp [hj, List.mem_erase_of_ne hj]
    next hi =>
      by_cases hj : j = i
      · simp [hj, hi]
      · simp [hj]

theorem reach_subperm (isStatic : BodyId → Bool) (links : List Link)
    (stack unseen : List BodyId) :
    (reach isStatic links stack unseen).Subperm (stack ++ unseen) := by
  fun_induction reach isStatic links stack unseen with
  | case1 unseen => exact List.nil_subperm
  | case2 i stack unseen hi ih => exact (List.subperm_cons i).2 ih
  | case3 i stack unseen hi st ih =>
    exact (List.subperm_cons i).2 (ih.trans (pushAll_perm _ _).subperm)

/-- Only bodies that are still to be found are. -/
theorem mem_of_mem_reach {seed : BodyId} (hseed : seed ∈ unseen)
    (hi : i ∈ reach isStatic links [seed] (unseen.erase seed)) : i ∈ unseen :=
  (List.perm_cons_erase hseed).mem_iff.2 ((reach_subperm _ _ _ _).subset hi)

theorem mem_reach_of_mem_stack {stack : List BodyId} (hj : j ∈ stack) :
    j ∈ reach isStatic links stack unseen := by
  fun_induction reach isStatic links stack unseen with
  | case1 unseen => cases hj
  | case2 i stack unseen hi ih =>
    rcases List.mem_cons.1 hj with rfl | hj
    · exact List.mem_cons_self
    · exact List.mem_cons_of_mem _ (ih hj)
  | case3 i stack unseen hi st ih =>
    rcases List.mem_cons.1 hj with rfl | hj
    · exact List.mem_cons_self
    · exact List.mem_cons_of_mem _ (ih (mem_pushAll_fst.2 (.inl hj)))

/-- What is found is reached from the stack. -/
theorem exists_reaches_of_mem_reach {stack : List BodyId}
    (hj : j ∈ reach isStatic links stack unseen) :
    ∃ i ∈ stack, Reaches isStatic links i j := by
  fun_induction reach isStatic links stack unseen with
  | case1 unseen => cases hj
  | case2 i stack unseen hi ih =>
    rcases List.mem_cons.1 hj with rfl | hj
    · exact ⟨j, List.mem_cons_self, .refl⟩
    · obtain ⟨k, hk, hkj⟩ := ih hj
      exact ⟨k, List.mem_cons_of_mem _ hk, hkj⟩
  | case3 i stack unseen hi st ih =>
    rcases List.mem_cons.1 hj with rfl | hj
    · exact ⟨j, List.mem_cons_self, .refl⟩
    · obtain ⟨k, hk, hkj⟩ := ih hj
      rcases mem_pushAll_fst.1 hk with hk | ⟨hk, -⟩
      · exact ⟨k, List.mem_cons_of_mem _ hk, hkj⟩
      · exact ⟨i, List.mem_cons_self, .head ⟨by simpa using hi, mem_neighbours.1 hk⟩ hkj⟩

/-- With a body that moves, all that are joined to it are found, unless they are gone already. -/
theorem mem_reach_of_joins {stack : List BodyId} (hi : i ∈ reach isStatic links stack unseen)
    (hmov : isStatic i = false) (hij : Joins links i j) (hj : j ∈ stack ++ unseen) :
    j ∈ reach isStatic links stack unseen := by
  fun_induction reach isStatic links stack unseen with
  | case1 unseen => cases hi
  | case2 k stack unseen hk ih =>
    rcases List.mem_cons.1 hj with rfl | hj
    · exact List.mem_cons_self
    · rcases List.mem_cons.1 hi with rfl | hi
      · rw [hmov] at hk
        cases hk
      · exact List.mem_cons_of_mem _ (ih hi hj)
  | case3 k stack unseen hk st ih =>
    rcases List.mem_cons.1 hj with rfl | hj'
    · exact List.mem_cons_self
    · refine List.mem_cons_of_mem _ ?_
      rcases List.mem_cons.1 hi with rfl | hi
      · refine mem_reach_of_mem_stack (mem_pushAll_fst.2 ?_)
        exact (List.mem_append.1 hj').imp_right fun hj ↦ ⟨mem_neighbours.2 hij, hj⟩
      · exact ih hi ((pushAll_perm _ _).mem_iff.2 hj')

end Walks

end Island

/-! ## Marks -/

namespace Walk

open Island

variable {isStatic : BodyId → Bool} {links : List Link} {w w' w'' : Walk} {i : BodyId}
  {stack unseen reached reached' : List BodyId} {marked : List Nat}

/-! ### Bodies on the stack -/

theorem push_perm (w : Walk) (i : BodyId) :
    ((w.push i).stack ++ (w.push i).unseen).Perm (w.stack ++ w.unseen) := by
  rw [push]
  split
  · exact perm_of_mem_unseen ‹i ∈ w.unseen› w.stack
  · exact .refl _

theorem follow_perm (i : BodyId) (w : Walk) (l : Link) :
    ((w.follow i l).stack ++ (w.follow i l).unseen).Perm (w.stack ++ w.unseen) := by
  rw [follow]
  split
  · exact .refl _
  · exact push_perm _ _

/-- Bodies come to the stack from those that have not been seen. -/
theorem visit_perm (links : List Link) (isStatic : Bool) (i : BodyId) (w : Walk) :
    ((w.visit links isStatic i).stack ++ (w.visit links isStatic i).unseen).Perm
      (w.stack ++ w.unseen) := by
  rw [visit]
  split
  · exact .refl _
  · generalize links.filter (·.touches i) = ls
    suffices ∀ w : Walk, ((ls.foldl (follow i) w).stack ++ (ls.foldl (follow i) w).unseen).Perm
      (w.stack ++ w.unseen) from this _
    induction ls with
    | nil => exact fun w ↦ .refl _
    | cons l ls ih => exact fun w ↦ (ih _).trans (follow_perm i w l)

/-! ### What is found -/

/-- Links with different slots can be followed all at once: first those that are marked are struck
out. -/
theorem foldl_follow {ls : List Link} (hls : ls.Pairwise (·.handle.index < ·.handle.index))
    (i : BodyId) (w : Walk) :
    let new := ls.filter (·.handle.index ∉ w.marked)
    let st := pushAll (new.map (·.other i)) (w.stack, w.unseen)
    ls.foldl (follow i) w =
      { w with
        stack := st.1
        unseen := st.2
        marked := (new.map (·.handle.index)).reverse ++ w.marked
        contacts := w.contacts ++ new.map (·.handle) } := by
  induction ls generalizing w with
  | nil => simp [pushAll]
  | cons l ls ih =>
    obtain ⟨hl, hls⟩ := List.pairwise_cons.1 hls
    rw [List.foldl_cons, ih hls]
    by_cases hm : l.handle.index ∈ w.marked
    · rw [List.filter_cons_of_neg (by simpa using hm), follow, if_pos hm]
    · have hnew : ls.filter (fun l' ↦ l'.handle.index ∉ l.handle.index :: w.marked) =
          ls.filter (·.handle.index ∉ w.marked) := by
        refine List.filter_congr fun l' hl' ↦ ?_
        simp [Nat.ne_of_gt (hl l' hl')]
      rw [List.filter_cons_of_pos (by simpa using hm), follow, if_neg hm, push]
      split <;> simp_all [pushAll]

/-- Bodies that have been seen need not be pushed. -/
theorem pushAll_filter {ls : List Link} {p : Link → Bool} {f : Link → BodyId}
    {st : List BodyId × List BodyId} (h : ∀ l ∈ ls, p l = false → f l ∉ st.2) :
    pushAll ((ls.filter p).map f) st = pushAll (ls.map f) st := by
  induction ls generalizing st with
  | nil => rfl
  | cons l ls ih =>
    obtain ⟨stack, unseen⟩ := st
    have hrest : ∀ {st : List BodyId × List BodyId}, st.2.Sublist unseen →
        pushAll ((ls.filter p).map f) st = pushAll (ls.map f) st := fun hst ↦
      ih fun l' hl' hp hmem ↦ h l' (List.mem_cons_of_mem l hl') hp (hst.subset hmem)
    cases hp : p l with
    | true =>
      rw [List.filter_cons_of_pos hp, List.map_cons, List.map_cons, pushAll, pushAll]
      refine hrest ?_
      split
      · exact List.erase_sublist
      · exact .refl _
    | false =>
      have hseen : f l ∉ unseen := h l List.mem_cons_self hp
      rw [List.filter_cons_of_neg (by simp [hp]), List.map_cons, pushAll, if_neg hseen]
      exact hrest (.refl _)

/-- A marked link of a body that moves and is still to be visited leads to a body seen before. -/
def Settled (isStatic : BodyId → Bool) (links : List Link) (w : Walk) : Prop :=
  ∀ l ∈ links, l.handle.index ∈ w.marked → ∀ i ∈ w.stack ++ w.unseen, isStatic i = false →
    l.touches i = true → l.other i ∉ w.unseen

/-- What a walk has added, when it has come to the bodies `reached`. -/
structure Finds (isStatic : BodyId → Bool) (links : List Link) (w w' : Walk)
    (reached : List BodyId) : Prop where
  moving : w'.moving = w.moving ++ reached.filter (!isStatic ·)
  static : w'.static = w.static ++ reached.filter isStatic
  marked : ∀ l ∈ links, l.handle.index ∈ w'.marked ↔
    l.handle.index ∈ w.marked ∨ (reached.filter (!isStatic ·)).any l.touches = true
  contacts : w'.contacts.Perm (w.contacts ++ (links.filter fun l ↦
    decide (l.handle.index ∉ w.marked) && (reached.filter (!isStatic ·)).any l.touches).map
      (·.handle))

theorem Finds.nil (w : Walk) : Finds isStatic links w w [] where
  moving := by simp
  static := by simp
  marked := by simp
  contacts := by simp

theorem Finds.trans (h : Finds isStatic links w w' reached)
    (h' : Finds isStatic links w' w'' reached') :
    Finds isStatic links w w'' (reached ++ reached') where
  moving := by rw [h'.moving, h.moving, List.filter_append, List.append_assoc]
  static := by rw [h'.static, h.static, List.filter_append, List.append_assoc]
  marked l hl := by
    rw [h'.marked l hl, h.marked l hl, List.filter_append, List.any_append, Bool.or_eq_true,
      or_assoc]
  contacts := by
    refine h'.contacts.trans ?_
    refine (h.contacts.append_right _).trans ?_
    rw [List.append_assoc, ← List.map_append]
    refine List.Perm.append_left _ (List.Perm.map _ ?_)
    -- The contacts taken second are those of the whole walk that were not taken first.
    refine .trans ?_ (List.filter_append_perm
      (fun l ↦ (reached.filter (!isStatic ·)).any l.touches) _)
    rw [List.filter_filter, List.filter_filter]
    refine .of_eq (congrArg₂ _ (List.filter_congr fun l _ ↦ ?_) (List.filter_congr fun l hl ↦ ?_))
    · rw [List.filter_append, List.any_append]
      grind
    · rw [List.filter_append, List.any_append]
      simp only [h.marked l hl]
      grind

section Visit

variable (hl : links.Pairwise (·.handle.index < ·.handle.index))
include hl

theorem visit_of_moving (hs : Settled isStatic links { w with stack := i :: stack })
    (hi : isStatic i = false) :
    let new := (links.filter (·.touches i)).filter (·.handle.index ∉ w.marked)
    let st := pushAll (neighbours links i) (stack, w.unseen)
    { w with stack }.visit links (isStatic i) i =
      { w with
        stack := st.1
        unseen := st.2
        marked := (new.map (·.handle.index)).reverse ++ w.marked
        moving := w.moving ++ [i]
        contacts := w.contacts ++ new.map (·.handle) } := by
  have hpush : pushAll (((links.filter (·.touches i)).filter (·.handle.index ∉ w.marked)).map
      (·.other i)) (stack, w.unseen) = pushAll (neighbours links i) (stack, w.unseen) := by
    refine pushAll_filter fun l hl hm ↦ ?_
    obtain ⟨hl, ht⟩ := List.mem_filter.1 hl
    exact hs l hl (by simpa using hm) i (by simp) hi ht
  rw [visit, hi, if_neg Bool.false_ne_true, foldl_follow (hl.filter _)]
  simp only [hpush]

theorem finds_visit (hs : Settled isStatic links { w with stack := i :: stack }) :
    Finds isStatic links w ({ w with stack }.visit links (isStatic i) i) [i] := by
  cases hi : isStatic i with
  | true =>
    rw [visit, if_pos rfl]
    exact ⟨by simp [hi], by simp [hi], by simp [hi], by simp [hi]⟩
  | false =>
    rw [← hi, visit_of_moving hl hs hi]
    refine ⟨by simp [hi], by simp [hi], fun l hmem ↦ ?_, ?_⟩
    · have hiff : (∃ l' ∈ links, (l'.touches i = true ∧ l'.handle.index ∉ w.marked) ∧
          l'.handle.index = l.handle.index) ↔ l.touches i = true ∧ l.handle.index ∉ w.marked := by
        constructor
        · rintro ⟨l', hl', h, he⟩
          rwa [Link.eq_of_pairwise hl hl' hmem he] at h
        · exact fun h ↦ ⟨l, hmem, h, rfl⟩
      simp only [List.mem_append, List.mem_reverse, List.mem_map, List.mem_filter, and_assoc,
        decide_eq_true_eq] at hiff ⊢
      rw [hiff]
      simp only [hi, Bool.not_false, List.filter_cons_of_pos, List.filter_nil, List.any_cons,
        List.any_nil, Bool.or_false]
      tauto
    · rw [List.filter_filter]
      simp [hi]

/-- Visiting a body settles its links. -/
theorem Settled.visit (hs : Settled isStatic links { w with stack := i :: stack })
    (hn : (i :: stack ++ w.unseen).Nodup) :
    Settled isStatic links ({ w with stack }.visit links (isStatic i) i) := by
  cases hi : isStatic i with
  | true =>
    intro l hmem hm k hk
    exact hs l hmem hm k (List.mem_cons_of_mem i hk)
  | false =>
    obtain ⟨hni, -⟩ := List.nodup_cons.1 hn
    rw [← hi, visit_of_moving hl hs hi]
    intro l hmem hm k hk hmov ht hother
    have hk := (pushAll_perm _ _).mem_iff.1 hk
    have hother := (pushAll_snd_sublist _ _).subset hother
    rcases List.mem_append.1 hm with hm | hm
    · -- The link has just been followed, so its other end is the body visited.
      obtain ⟨l', hl', he⟩ := List.mem_map.1 (List.mem_reverse.1 hm)
      obtain ⟨hl', ht'⟩ := List.mem_filter.1 (List.mem_filter.1 hl').1
      rw [Link.eq_of_pairwise hl hl' hmem he] at ht'
      have hne : k ≠ i := fun hki ↦ hni (hki ▸ hk)
      rw [Link.other_eq ht' ht hne] at hother
      exact hni (List.mem_append_right _ hother)
    · exact hs l hmem hm k (List.mem_cons_of_mem i hk) hmov ht hother

theorem reach_cons (hs : Settled isStatic links { w with stack := i :: stack }) :
    let v := { w with stack }.visit links (isStatic i) i
    reach isStatic links (i :: stack) w.unseen = i :: reach isStatic links v.stack v.unseen := by
  cases hi : isStatic i with
  | true => rw [reach, if_pos hi, visit, if_pos rfl]
  | false => rw [reach, if_neg (by simp [hi]), ← hi, visit_of_moving hl hs hi]

/-- A walk finds the bodies that are reached without marks, and takes the contacts of those that
move. -/
theorem finds_finish (hs : Settled isStatic links w) (hn : (w.stack ++ w.unseen).Nodup) :
    Finds isStatic links w (finish isStatic links w) (reach isStatic links w.stack w.unseen) := by
  fun_induction finish isStatic links w with
  | case1 w hw =>
    rw [hw, reach]
    exact .nil w
  | case2 w i stack hw ih =>
    rw [hw] at hn
    have hs : Settled isStatic links { w with stack := i :: stack } := hw ▸ hs
    rw [hw, reach_cons hl hs]
    refine (finds_visit hl hs).trans (ih (hs.visit hl hn) ?_)
    exact (visit_perm _ _ _ _).nodup_iff.2 (List.nodup_cons.1 hn).2

end Visit

end Walk

/-! ## Islands -/

namespace Island

/-- Sorting brings handles with different slots into the order of their slots. -/
theorem mergeSort_eq {xs ys : List Handle} (h : xs.Perm ys)
    (hys : ys.Pairwise (·.index < ·.index)) : xs.mergeSort = ys := by
  have hsorted : xs.mergeSort.Pairwise fun h h' ↦ decide (h ≤ h') = true := by
    refine List.pairwise_mergeSort (fun a b c hab hbc ↦ ?_) (fun a b ↦ ?_) xs
    · simp only [decide_eq_true_eq, Handle.le_def] at hab hbc ⊢
      grind
    · simp only [Bool.or_eq_true, decide_eq_true_eq, Handle.le_def]
      grind
  refine List.Perm.eq_of_pairwise (fun a b _ _ hab hba ↦ ?_) hsorted
    (hys.imp fun hlt ↦ decide_eq_true (.inl hlt)) ((List.mergeSort_perm xs _).trans h)
  simp only [decide_eq_true_eq, Handle.le_def] at hab hba
  cases a
  cases b
  grind

variable {isStatic : BodyId → Bool} {links : List Link} {seeds unseen reached : List BodyId}
  {marked : List Nat} {w w' : Walk}

/-- The island of a walk that began with none of the contacts of its bodies marked. -/
theorem island_eq_ofReached (hl : links.Pairwise (·.handle.index < ·.handle.index))
    (h : w.Finds isStatic links w' reached)
    (hw : w.moving = [] ∧ w.static = [] ∧ w.contacts = [])
    (hm : ∀ l ∈ links, l.handle.index ∈ w.marked →
      (reached.filter (!isStatic ·)).any l.touches = false) :
    w'.island = ofReached isStatic links reached := by
  obtain ⟨hmoving, hstatic, hcontacts⟩ := hw
  have hfilter : links.filter (fun l ↦ decide (l.handle.index ∉ w.marked) &&
      (reached.filter (!isStatic ·)).any l.touches) =
      links.filter fun l ↦ (reached.filter (!isStatic ·)).any l.touches := by
    refine List.filter_congr fun l hmem ↦ ?_
    by_cases hmark : l.handle.index ∈ w.marked
    · rw [hm l hmem hmark, Bool.and_false]
    · rw [decide_eq_true hmark, Bool.true_and]
  have hperm := h.contacts
  rw [hcontacts, List.nil_append, hfilter] at hperm
  rw [Walk.island, ofReached, h.moving, h.static, hmoving, hstatic, List.nil_append,
    List.nil_append, mergeSort_eq hperm (List.pairwise_map.2 (hl.filter _))]

/-- **Marks make no difference** to the islands, if there are none yet on the contacts of bodies
that move and are in no island. -/
theorem gather_eq_collect (hl : links.Pairwise (·.handle.index < ·.handle.index))
    (hn : unseen.Nodup) (hm : ∀ l ∈ links, l.handle.index ∈ marked → ∀ i ∈ unseen,
      isStatic i = false → l.touches i = false) :
    gather isStatic links seeds unseen marked = collect isStatic links seeds unseen := by
  induction seeds generalizing unseen marked with
  | nil => rfl
  | cons seed seeds ih =>
    rw [gather, collect]
    split
    next => exact ih hn hm
    next hseed =>
      obtain ⟨hmov, hseed⟩ : isStatic seed = false ∧ seed ∈ unseen := by simpa using hseed
      have hperm := List.perm_cons_erase hseed
      -- No link of a body that is still to be visited is marked, so there is nothing to settle.
      have hs : Walk.Settled isStatic links
          { stack := [seed], unseen := unseen.erase seed, marked } := by
        intro l hmem hmark i hi hmov ht
        rw [hm l hmem hmark i (hperm.mem_iff.2 hi) hmov] at ht
        cases ht
      have hfinds := Walk.finds_finish hl hs (hperm.nodup_iff.1 hn)
      have hmoving := hfinds.moving.trans (List.nil_append _)
      have hrest : unseen.filter (· ∉ (reach isStatic links [seed] (unseen.erase seed)).filter
          (!isStatic ·)) = unseen.filter fun i ↦
            isStatic i || i ∉ reach isStatic links [seed] (unseen.erase seed) := by
        refine List.filter_congr fun i _ ↦ ?_
        cases hi : isStatic i <;> simp [hi]
      refine congrArg₂ _ (island_eq_ofReached hl hfinds ⟨rfl, rfl, rfl⟩ fun l hmem hmark ↦ ?_) ?_
      · rw [List.any_eq_false]
        intro i hi
        obtain ⟨hi, hmov⟩ := List.mem_filter.1 hi
        rw [hm l hmem hmark i (mem_of_mem_reach hseed hi) (by simpa using hmov)]
        exact Bool.false_ne_true
      · rw [hmoving, hrest]
        refine ih (hn.filter _) fun l hmem hmark i hi hmov ↦ ?_
        simp only [List.mem_filter, hmov, Bool.false_or, decide_eq_true_eq] at hi
        rcases (hfinds.marked l hmem).1 hmark with hmark | hmark
        · exact hm l hmem hmark i hi.1 hmov
        · -- A body at a link of the island is in the island.
          rw [← Bool.not_eq_true]
          intro ht
          obtain ⟨k, hk, htk⟩ := List.any_eq_true.1 hmark
          obtain ⟨hk, hkmov⟩ := List.mem_filter.1 hk
          rcases joins_of_touches hmem htk ht with rfl | hki
          · exact hi.2 hk
          · exact hi.2 (mem_reach_of_joins hk (by simpa using hkmov) hki (hperm.mem_iff.1 hi.1))

end Island

end PlanarDynamics
