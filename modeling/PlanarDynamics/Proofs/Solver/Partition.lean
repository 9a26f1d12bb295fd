import PlanarDynamics.Proofs.Registry.View
import PlanarDynamics.Proofs.Solver.Walk

/-!
# Islands are components

Bodies and the contacts to be solved form a graph, and static bodies are its dead ends.  A walk
finds the bodies that its first body reaches, provided that none of them has been taken away before
(`Island.mem_reach_iff`).  The bodies in no island so far include, with a body that moves, all that
are joined to it (`Island.Closed`): an island takes away all that its first body reaches, but for
static bodies, which may be found again.  So the islands are the components of the graph:
`Island.isPartition_partition`.
-/

namespace PlanarDynamics

/-- What one of the lists has once, and no other list has, is counted once. -/
theorem count_flatMap_eq_one {β γ : Type} [DecidableEq γ] {l : List β} {f : β → List γ} {x : γ}
    (hn : ∀ b ∈ l, (f b).Nodup) (hl : l.Pairwise fun b b' ↦ x ∈ f b → x ∉ f b') {b : β}
    (hb : b ∈ l) (hx : x ∈ f b) : (l.flatMap f).count x = 1 := by
  induction l with
  | nil => cases hb
  | cons a l ih =>
    obtain ⟨ha, hl⟩ := List.pairwise_cons.1 hl
    obtain ⟨hna, hn⟩ := List.forall_mem_cons.1 hn
    rw [List.flatMap_cons, List.count_append]
    by_cases hxa : x ∈ f a
    · have hrest : x ∉ l.flatMap f := by
        rw [List.mem_flatMap]
        rintro ⟨b', hb', hx'⟩
        exact ha b' hb' hxa hx'
      rw [List.count_eq_one_of_mem hna hxa, List.count_eq_zero.2 hrest]
    · have hb' : b ∈ l := by
        rcases List.mem_cons.1 hb with rfl | hb
        · exact absurd hx hxa
        · exact hb
      rw [List.count_eq_zero.2 hxa, Nat.zero_add, ih hn hl hb']

namespace Island

/-! ## The bodies in no island so far -/

section Collect

variable {isStatic : BodyId → Bool} {links : List Link} {seed i j : BodyId}
  {seeds unseen reached : List BodyId}

/-- With a body that moves, all that are joined to it are in the list. -/
def Closed (isStatic : BodyId → Bool) (links : List Link) (unseen : List BodyId) : Prop :=
  ∀ i ∈ unseen, isStatic i = false → ∀ j, Joins links i j → j ∈ unseen

theorem Closed.mem_of_reaches (h : Closed isStatic links unseen) (hi : i ∈ unseen)
    (hij : Reaches isStatic links i j) : j ∈ unseen := by
  induction hij with
  | refl => exact hi
  | tail _ hs ih => exact h _ ih hs.1 _ hs.2

theorem mem_reach_iff (h : Closed isStatic links unseen) (hseed : seed ∈ unseen) :
    j ∈ reach isStatic links [seed] (unseen.erase seed) ↔ Reaches isStatic links seed j := by
  constructor
  · intro hj
    obtain ⟨i, hi, hij⟩ := exists_reaches_of_mem_reach hj
    rwa [List.mem_singleton.1 hi] at hij
  · intro hj
    induction hj with
    | refl => exact mem_reach_of_mem_stack List.mem_cons_self
    | tail hi hs ih =>
      -- Nothing that the walk comes to is gone, because `unseen` is closed.
      refine mem_reach_of_joins ih hs.1 hs.2 ?_
      exact (List.perm_cons_erase hseed).mem_iff.1 (h _ (h.mem_of_reaches hseed hi) hs.1 _ hs.2)

theorem nodup_reach (hn : unseen.Nodup) (hseed : seed ∈ unseen) :
    (reach isStatic links [seed] (unseen.erase seed)).Nodup := by
  obtain ⟨l, hl, hsub⟩ := reach_subperm isStatic links [seed] (unseen.erase seed)
  exact hl.nodup_iff.1 (((List.perm_cons_erase hseed).nodup_iff.1 hn).sublist hsub)

/-- Taking away what a body reaches, but for static bodies, leaves a closed list. -/
theorem Closed.filter (h : Closed isStatic links unseen)
    (hreached : ∀ j, j ∈ reached ↔ Reaches isStatic links seed j) :
    Closed isStatic links (unseen.filter fun i ↦ isStatic i || i ∉ reached) := by
  intro i hi hmov j hij
  simp only [List.mem_filter, hmov, Bool.false_or, decide_eq_true_eq] at hi
  refine List.mem_filter.2 ⟨h i hi.1 hmov j hij, ?_⟩
  by_cases hj : isStatic j = true
  · simp [hj]
  · have hj : isStatic j = false := by simpa using hj
    simp only [hj, Bool.false_or, decide_eq_true_eq]
    -- If `j` had been reached, the walk would have gone on to `i`.
    intro hjr
    exact hi.2 ((hreached i).2 (((hreached j).1 hjr).tail ⟨hj, hij.symm⟩))

/-- An island in the graph: what its bodies are, and what its contacts are. -/
structure IsComponent (isStatic : BodyId → Bool) (links : List Link) (I : Island) : Prop where
  nodup : I.bodies.Nodup
  ordered : ∃ moving static, I.bodies = moving ++ static ∧ (∀ i ∈ moving, isStatic i = false) ∧
    ∀ i ∈ static, isStatic i = true
  inhabited : ∃ i ∈ I.bodies, isStatic i = false
  mem_iff : ∀ i ∈ I.bodies, isStatic i = false →
    ∀ j, j ∈ I.bodies ↔ Reaches isStatic links i j
  /-- No walk begins at a static body, so one has come to it. -/
  static : ∀ j ∈ I.bodies, isStatic j = true →
    ∃ i ∈ I.bodies, isStatic i = false ∧ Joins links i j
  contacts : ∀ h, h ∈ I.contacts ↔
    ∃ l ∈ links, l.handle = h ∧ ∃ i ∈ I.bodies, isStatic i = false ∧ l.touches i = true
  sublist : I.contacts.Sublist (links.map (·.handle))

theorem mem_bodies_ofReached :
    i ∈ (ofReached isStatic links reached).bodies ↔ i ∈ reached := by
  cases hi : isStatic i <;> simp [ofReached, hi]

theorem mem_contacts_ofReached {h : Handle} :
    h ∈ (ofReached isStatic links reached).contacts ↔
      ∃ l ∈ links, l.handle = h ∧ ∃ i ∈ reached, isStatic i = false ∧ l.touches i = true := by
  simp only [ofReached, List.mem_map, List.mem_filter, List.any_eq_true, Bool.not_eq_true',
    and_assoc]
  refine exists_congr fun l ↦ and_congr_right fun _ ↦ ?_
  rw [and_comm]

theorem isComponent_ofReached (hmov : isStatic seed = false) (hn : reached.Nodup)
    (hreached : ∀ j, j ∈ reached ↔ Reaches isStatic links seed j) :
    IsComponent isStatic links (ofReached isStatic links reached) where
  nodup := by
    refine (hn.filter _).append (hn.filter _) fun i hi hi' ↦ ?_
    have h := (List.mem_filter.1 hi).2
    rw [(List.mem_filter.1 hi').2] at h
    cases h
  ordered := by
    refine ⟨_, _, rfl, fun i hi ↦ ?_, fun i hi ↦ (List.mem_filter.1 hi).2⟩
    simpa using (List.mem_filter.1 hi).2
  inhabited := ⟨seed, mem_bodies_ofReached.2 ((hreached seed).2 .refl), hmov⟩
  mem_iff i hi hi' j := by
    rw [mem_bodies_ofReached, hreached] at hi ⊢
    exact ⟨(reaches_symm hi hi').trans, hi.trans⟩
  static j hj hj' := by
    rw [mem_bodies_ofReached, hreached] at hj
    rcases Relation.ReflTransGen.cases_tail hj with rfl | ⟨i, hi, hs⟩
    · rw [hmov] at hj'
      cases hj'
    · exact ⟨i, mem_bodies_ofReached.2 ((hreached i).2 hi), hs⟩
  contacts h := by
    simp only [mem_contacts_ofReached, mem_bodies_ofReached]
  sublist := List.filter_sublist.map _

/-- All ends of a contact of an island are in the island. -/
theorem IsComponent.mem_of_touches {I : Island} (h : IsComponent isStatic links I)
    (hi : i ∈ I.bodies) (hmov : isStatic i = false) {l : Link} (hl : l ∈ links)
    (hli : l.touches i = true) (hlj : l.touches j = true) : j ∈ I.bodies := by
  rcases joins_of_touches hl hli hlj with rfl | hij
  · exact hi
  · exact (h.mem_iff i hi hmov j).2 (.single ⟨hmov, hij⟩)

theorem isComponent_of_mem_collect (hc : Closed isStatic links unseen) (hn : unseen.Nodup)
    {I : Island} (hI : I ∈ collect isStatic links seeds unseen) :
    IsComponent isStatic links I ∧ ∀ i ∈ I.bodies, i ∈ unseen := by
  induction seeds generalizing unseen with
  | nil => cases hI
  | cons seed seeds ih =>
    rw [collect] at hI
    split at hI
    next => exact ih hc hn hI
    next hseed =>
      obtain ⟨hmov, hseed⟩ : isStatic seed = false ∧ seed ∈ unseen := by simpa using hseed
      have hreached := fun j ↦ mem_reach_iff (j := j) hc hseed
      rcases List.mem_cons.1 hI with rfl | hI
      · refine ⟨isComponent_ofReached hmov (nodup_reach hn hseed) hreached, fun i hi ↦ ?_⟩
        rw [mem_bodies_ofReached, hreached] at hi
        exact hc.mem_of_reaches hseed hi
      · obtain ⟨hcomp, hsub⟩ := ih (hc.filter hreached) (hn.filter _) hI
        exact ⟨hcomp, fun i hi ↦ (List.mem_filter.1 (hsub i hi)).1⟩

/-- Islands share static bodies only. -/
theorem pairwise_collect (hc : Closed isStatic links unseen) (hn : unseen.Nodup) :
    (collect isStatic links seeds unseen).Pairwise fun I J ↦
      ∀ i, isStatic i = false → i ∈ I.bodies → i ∉ J.bodies := by
  induction seeds generalizing unseen with
  | nil => exact .nil
  | cons seed seeds ih =>
    rw [collect]
    split
    next => exact ih hc hn
    next hseed =>
      obtain ⟨hmov, hseed⟩ : isStatic seed = false ∧ seed ∈ unseen := by simpa using hseed
      have hreached := fun j ↦ mem_reach_iff (j := j) hc hseed
      refine .cons (fun J hJ i hmov hi hi' ↦ ?_) (ih (hc.filter hreached) (hn.filter _))
      have hleft := (isComponent_of_mem_collect (hc.filter hreached) (hn.filter _) hJ).2 i hi'
      simp only [List.mem_filter, hmov, Bool.false_or, decide_eq_true_eq] at hleft
      exact hleft.2 (mem_bodies_ofReached.1 hi)

theorem exists_mem_collect (hmov : isStatic i = false) (hi : i ∈ seeds) (hi' : i ∈ unseen) :
    ∃ I ∈ collect isStatic links seeds unseen, i ∈ I.bodies := by
  induction seeds generalizing unseen with
  | nil => cases hi
  | cons seed seeds ih =>
    rw [collect]
    split
    next hseed =>
      rcases List.mem_cons.1 hi with rfl | hi
      · simp [hmov, hi'] at hseed
      · exact ih hi hi'
    next hseed =>
      by_cases hr : i ∈ reach isStatic links [seed] (unseen.erase seed)
      · exact ⟨_, List.mem_cons_self, mem_bodies_ofReached.2 hr⟩
      · rcases List.mem_cons.1 hi with rfl | hi
        · exact absurd (mem_reach_of_mem_stack List.mem_cons_self) hr
        · have hleft : i ∈ unseen.filter fun j ↦
              isStatic j || j ∉ reach isStatic links [seed] (unseen.erase seed) := by
            simp [hi', hr]
          obtain ⟨I, hI, hiI⟩ := ih hi hleft
          exact ⟨I, List.mem_cons_of_mem _ hI, hiI⟩

end Collect

/-! ## Bodies and contacts -/

variable {α : Type} {bodies : Array (Body α)} {r : Registry α} {i j : BodyId} {h : Handle}

/-- The body exists and is not static. -/
def IsMoving (bodies : Array (Body α)) (i : BodyId) : Prop :=
  ∃ b, bodies[i]? = some b ∧ b.isStatic = false

/-- The contact is to be solved, and these are its bodies, in either order. Both exist. -/
def Binds (bodies : Array (Body α)) (r : Registry α) (h : Handle) (i j : BodyId) : Prop :=
  ∃ c, r.get? h = some c ∧ c.isSolvable = true ∧ c.bodyA < bodies.size ∧ c.bodyB < bodies.size ∧
    (c.bodyA = i ∧ c.bodyB = j ∨ c.bodyA = j ∧ c.bodyB = i)

/-- The bodies move, and some contact binds them to each other. -/
def Acts (bodies : Array (Body α)) (r : Registry α) (i j : BodyId) : Prop :=
  IsMoving bodies i ∧ IsMoving bodies j ∧ ∃ h, Binds bodies r h i j

/-- The islands are the components of the bodies and contacts. -/
structure IsPartition (bodies : Array (Body α)) (r : Registry α) (islands : List Island) :
    Prop where
  /-- Each body that moves occurs once. -/
  count_body : ∀ i, IsMoving bodies i → (islands.flatMap (·.bodies)).count i = 1
  /-- Bodies that move are together if they act on each other, directly or through others. -/
  together : ∀ i j, IsMoving bodies i → IsMoving bodies j →
    ((∃ I ∈ islands, i ∈ I.bodies ∧ j ∈ I.bodies) ↔
      Relation.ReflTransGen (Acts bodies r) i j)
  /-- Each contact to be solved that has a body that moves occurs once. -/
  count_contact : ∀ h i j, Binds bodies r h i j → IsMoving bodies i →
    (islands.flatMap (·.contacts)).count h = 1
  /-- No other contact occurs. -/
  of_mem_contacts : ∀ I ∈ islands, ∀ h ∈ I.contacts,
    ∃ i j, Binds bodies r h i j ∧ IsMoving bodies i
  /-- A contact is in the island of its bodies. -/
  mem_bodies : ∀ I ∈ islands, ∀ h ∈ I.contacts, ∀ i j, Binds bodies r h i j → i ∈ I.bodies
  /-- A static body is in the islands whose contacts it has. -/
  static : ∀ I ∈ islands, ∀ i, ¬ IsMoving bodies i →
    (i ∈ I.bodies ↔ ∃ h ∈ I.contacts, ∃ j, Binds bodies r h i j)
  nodup : ∀ I ∈ islands, I.bodies.Nodup
  inhabited : ∀ I ∈ islands, ∃ i ∈ I.bodies, IsMoving bodies i
  /-- The bodies that move come first. -/
  ordered : ∀ I ∈ islands, ∃ moving static, I.bodies = moving ++ static ∧
    (∀ i ∈ moving, IsMoving bodies i) ∧ ∀ i ∈ static, ¬ IsMoving bodies i
  /-- Contacts are in the order of their slots. -/
  ascending : ∀ I ∈ islands, I.contacts.Pairwise (·.index < ·.index)

/-- What the walks take for static.  Bodies that do not exist are not met. -/
def isStaticAt (bodies : Array (Body α)) (i : BodyId) : Bool := bodies[i]?.any (·.isStatic)

theorem isMoving_iff : IsMoving bodies i ↔ i < bodies.size ∧ isStaticAt bodies i = false := by
  constructor
  · rintro ⟨b, hb, hs⟩
    refine ⟨(Array.getElem?_eq_some_iff.1 hb).1, ?_⟩
    rw [isStaticAt, hb]
    exact hs
  · rintro ⟨hi, hs⟩
    rw [isStaticAt, Array.getElem?_eq_getElem hi] at hs
    exact ⟨bodies[i], Array.getElem?_eq_getElem hi, hs⟩

theorem mem_links {l : Link} : l ∈ links bodies r ↔ ∃ c, r.get? l.handle = some c ∧
    c.isSolvable = true ∧ c.bodyA < bodies.size ∧ c.bodyB < bodies.size ∧
      c.bodyA = l.a ∧ c.bodyB = l.b := by
  obtain ⟨h, a, b⟩ := l
  simp only [links, List.mem_filterMap, Prod.exists, Registry.mem_entries]
  constructor
  · rintro ⟨h', c, hc, hl⟩
    obtain ⟨⟨hs, ha, hb⟩, hl⟩ := Option.ite_some_none_eq_some.1 hl
    cases hl
    exact ⟨c, hc, hs, ha, hb, rfl, rfl⟩
  · rintro ⟨c, hc, hs, ha, hb, rfl, rfl⟩
    exact ⟨h, c, hc, if_pos ⟨hs, ha, hb⟩⟩

theorem pairwise_links : (links bodies r).Pairwise (·.handle.index < ·.handle.index) := by
  rw [links, List.pairwise_filterMap]
  refine Registry.pairwise_entries.imp ?_
  rintro ⟨h, c⟩ ⟨h', c'⟩ hlt l hl l' hl'
  obtain ⟨-, rfl⟩ := Option.ite_some_none_eq_some.1 hl
  obtain ⟨-, rfl⟩ := Option.ite_some_none_eq_some.1 hl'
  exact hlt

/-- A link is known by its handle. -/
theorem link_eq {l l' : Link} (hl : l ∈ links bodies r) (hl' : l' ∈ links bodies r)
    (he : l.handle = l'.handle) : l = l' :=
  Link.eq_of_pairwise pairwise_links hl hl' (congrArg (·.index) he)

theorem binds_iff : Binds bodies r h i j ↔
    ∃ l ∈ links bodies r, l.handle = h ∧ (l.a = i ∧ l.b = j ∨ l.a = j ∧ l.b = i) := by
  constructor
  · rintro ⟨c, hc, hs, ha, hb, he⟩
    exact ⟨⟨h, c.bodyA, c.bodyB⟩, mem_links.2 ⟨c, hc, hs, ha, hb, rfl, rfl⟩, rfl, he⟩
  · rintro ⟨l, hl, rfl, he⟩
    obtain ⟨c, hc, hs, ha, hb, hA, hB⟩ := mem_links.1 hl
    rw [← hA, ← hB] at he
    exact ⟨c, hc, hs, ha, hb, he⟩

theorem joins_iff : Joins (links bodies r) i j ↔ ∃ h, Binds bodies r h i j := by
  simp only [binds_iff, Joins]
  constructor
  · rintro ⟨l, hl, he⟩
    exact ⟨l.handle, l, hl, rfl, he⟩
  · rintro ⟨h, l, hl, -, he⟩
    exact ⟨l, hl, he⟩

theorem exists_binds_iff : (∃ j, Binds bodies r h i j) ↔
    ∃ l ∈ links bodies r, l.handle = h ∧ l.touches i = true := by
  simp only [binds_iff, Link.touches_iff]
  constructor
  · rintro ⟨j, l, hl, he, ⟨ha, -⟩ | ⟨-, hb⟩⟩
    · exact ⟨l, hl, he, .inl ha⟩
    · exact ⟨l, hl, he, .inr hb⟩
  · rintro ⟨l, hl, he, ha | hb⟩
    · exact ⟨l.b, l, hl, he, .inl ⟨ha, rfl⟩⟩
    · exact ⟨l.a, l, hl, he, .inr ⟨rfl, hb⟩⟩

theorem Binds.symm (hb : Binds bodies r h i j) : Binds bodies r h j i := by
  obtain ⟨c, hc, hs, hA, hB, he⟩ := hb
  exact ⟨c, hc, hs, hA, hB, he.symm⟩

theorem Binds.lt_size (hb : Binds bodies r h i j) : i < bodies.size ∧ j < bodies.size := by
  obtain ⟨c, -, -, hA, hB, ⟨rfl, rfl⟩ | ⟨rfl, rfl⟩⟩ := hb
  · exact ⟨hA, hB⟩
  · exact ⟨hB, hA⟩

/-! ## The partition -/

/-- No contact is marked at first, so marks can be left out of account. -/
theorem partition_eq (bodies : Array (Body α)) (r : Registry α) : partition bodies r =
    collect (isStaticAt bodies) (links bodies r) (.range bodies.size) (.range bodies.size) :=
  gather_eq_collect pairwise_links List.nodup_range fun _ _ h ↦ absurd h List.not_mem_nil

theorem closed_range : Closed (isStaticAt bodies) (links bodies r) (.range bodies.size) := by
  intro i _ _ j hij
  obtain ⟨h, hb⟩ := joins_iff.1 hij
  exact List.mem_range.2 hb.lt_size.2

theorem isComponent_of_mem_partition {I : Island} (hI : I ∈ partition bodies r) :
    IsComponent (isStaticAt bodies) (links bodies r) I ∧
      ∀ i ∈ I.bodies, (IsMoving bodies i ↔ isStaticAt bodies i = false) := by
  rw [partition_eq] at hI
  obtain ⟨hcomp, hrange⟩ := isComponent_of_mem_collect closed_range List.nodup_range hI
  refine ⟨hcomp, fun i hi ↦ ?_⟩
  rw [isMoving_iff, and_iff_right (List.mem_range.1 (hrange i hi))]

theorem exists_mem_partition (hi : IsMoving bodies i) : ∃ I ∈ partition bodies r, i ∈ I.bodies := by
  obtain ⟨hlt, hs⟩ := isMoving_iff.1 hi
  rw [partition_eq]
  exact exists_mem_collect hs (List.mem_range.2 hlt) (List.mem_range.2 hlt)

/-- A walk between bodies that move leads over bodies that move. -/
theorem reaches_iff_acts (hj : IsMoving bodies j) :
    Reaches (isStaticAt bodies) (links bodies r) i j ↔
      Relation.ReflTransGen (Acts bodies r) i j := by
  constructor
  · intro h
    induction h with
    | refl => exact .refl
    | @tail k j _ hs ih =>
      obtain ⟨h, hb⟩ := joins_iff.1 hs.2
      have hk : IsMoving bodies k := isMoving_iff.2 ⟨hb.lt_size.1, hs.1⟩
      exact (ih hk).tail ⟨hk, hj, h, hb⟩
  · refine Relation.ReflTransGen.mono (fun k l hkl ↦ ?_) i j
    obtain ⟨hk, -, h, hb⟩ := hkl
    exact ⟨(isMoving_iff.1 hk).2, joins_iff.2 ⟨h, hb⟩⟩

theorem mem_contacts_iff {I : Island} (hI : I ∈ partition bodies r) : h ∈ I.contacts ↔
    ∃ i ∈ I.bodies, IsMoving bodies i ∧ ∃ j, Binds bodies r h i j := by
  obtain ⟨hcomp, hmov⟩ := isComponent_of_mem_partition hI
  simp only [exists_binds_iff]
  rw [hcomp.contacts]
  constructor
  · rintro ⟨l, hl, he, i, hi, hs, ht⟩
    exact ⟨i, hi, (hmov i hi).2 hs, l, hl, he, ht⟩
  · rintro ⟨i, hi, hs, l, hl, he, ht⟩
    exact ⟨l, hl, he, i, hi, (hmov i hi).1 hs, ht⟩

/-- A contact is in an island with both of its bodies. -/
theorem mem_bodies_of_mem_contacts {I : Island} (hI : I ∈ partition bodies r)
    (hh : h ∈ I.contacts) (hb : Binds bodies r h i j) : i ∈ I.bodies := by
  have hcomp := (isComponent_of_mem_partition hI).1
  obtain ⟨l, hl, he, k, hk, hs, ht⟩ := (hcomp.contacts h).1 hh
  obtain ⟨l', hl', he', ht'⟩ := exists_binds_iff.1 ⟨j, hb⟩
  cases link_eq hl hl' (he.trans he'.symm)
  exact hcomp.mem_of_touches hk hs hl ht ht'

/-- Islands share no body that moves. -/
theorem pairwise_partition (bodies : Array (Body α)) (r : Registry α) :
    (partition bodies r).Pairwise fun I J ↦
      ∀ i, IsMoving bodies i → i ∈ I.bodies → i ∉ J.bodies := by
  rw [partition_eq]
  refine (pairwise_collect closed_range List.nodup_range).imp fun hIJ i hi ↦ ?_
  exact hIJ i (isMoving_iff.1 hi).2

theorem count_bodies (hi : IsMoving bodies i) :
    ((partition bodies r).flatMap (·.bodies)).count i = 1 := by
  obtain ⟨I, hI, hiI⟩ := exists_mem_partition (r := r) hi
  refine count_flatMap_eq_one (fun J hJ ↦ (isComponent_of_mem_partition hJ).1.nodup) ?_ hI hiI
  exact (pairwise_partition bodies r).imp fun h ↦ h i hi

theorem pairwise_contacts {I : Island} (hI : I ∈ partition bodies r) :
    I.contacts.Pairwise (·.index < ·.index) := by
  refine List.Pairwise.sublist (isComponent_of_mem_partition hI).1.sublist ?_
  exact List.pairwise_map.2 pairwise_links

theorem count_contacts (hb : Binds bodies r h i j) (hi : IsMoving bodies i) :
    ((partition bodies r).flatMap (·.contacts)).count h = 1 := by
  obtain ⟨I, hI, hiI⟩ := exists_mem_partition (r := r) hi
  have hhI := (mem_contacts_iff hI).2 ⟨i, hiI, hi, j, hb⟩
  refine count_flatMap_eq_one (fun J hJ ↦ ?_) ?_ hI hhI
  · refine List.Pairwise.imp ?_ (pairwise_contacts hJ)
    rintro h _ hlt rfl
    exact Nat.lt_irrefl _ hlt
  · refine (pairwise_partition bodies r).imp_of_mem fun {I J} hI hJ hIJ hhI hhJ ↦ ?_
    exact hIJ i hi (mem_bodies_of_mem_contacts hI hhI hb) (mem_bodies_of_mem_contacts hJ hhJ hb)

/-- **The islands are the components** of the bodies that move and the contacts to be solved. -/
theorem isPartition_partition (bodies : Array (Body α)) (r : Registry α) :
    IsPartition bodies r (partition bodies r) where
  count_body i := count_bodies
  together i j hi hj := by
    rw [← reaches_iff_acts hj]
    constructor
    · rintro ⟨I, hI, hiI, hjI⟩
      obtain ⟨hcomp, hmov⟩ := isComponent_of_mem_partition hI
      exact (hcomp.mem_iff i hiI ((hmov i hiI).1 hi) j).1 hjI
    · intro hij
      obtain ⟨I, hI, hiI⟩ := exists_mem_partition hi
      obtain ⟨hcomp, hmov⟩ := isComponent_of_mem_partition hI
      exact ⟨I, hI, hiI, (hcomp.mem_iff i hiI ((hmov i hiI).1 hi) j).2 hij⟩
  count_contact h i j := count_contacts
  of_mem_contacts I hI h hh := by
    obtain ⟨i, -, hi, j, hb⟩ := (mem_contacts_iff hI).1 hh
    exact ⟨i, j, hb, hi⟩
  mem_bodies I hI h hh i j := mem_bodies_of_mem_contacts hI hh
  static I hI j hj := by
    obtain ⟨hcomp, hmov⟩ := isComponent_of_mem_partition hI
    constructor
    · intro hjI
      rw [hmov j hjI, Bool.not_eq_false] at hj
      obtain ⟨i, hi, hs, hij⟩ := hcomp.static j hjI hj
      obtain ⟨h, hb⟩ := joins_iff.1 hij
      have hh := (mem_contacts_iff hI).2 ⟨i, hi, (hmov i hi).2 hs, j, hb⟩
      exact ⟨h, hh, i, hb.symm⟩
    · rintro ⟨h, hh, i, hb⟩
      exact mem_bodies_of_mem_contacts hI hh hb
  nodup I hI := (isComponent_of_mem_partition hI).1.nodup
  inhabited I hI := by
    obtain ⟨hcomp, hmov⟩ := isComponent_of_mem_partition hI
    obtain ⟨i, hi, hs⟩ := hcomp.inhabited
    exact ⟨i, hi, (hmov i hi).2 hs⟩
  ordered I hI := by
    obtain ⟨hcomp, hmov⟩ := isComponent_of_mem_partition hI
    obtain ⟨moving, static, he, hm, hs⟩ := hcomp.ordered
    refine ⟨moving, static, he, fun i hi ↦ ?_, fun i hi ↦ ?_⟩
    · rw [hmov i (he ▸ List.mem_append_left _ hi)]
      exact hm i hi
    · rw [hmov i (he ▸ List.mem_append_right _ hi), Bool.not_eq_false]
      exact hs i hi
  ascending I := pairwise_contacts

end Island

end PlanarDynamics
