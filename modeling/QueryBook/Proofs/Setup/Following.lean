import QueryBook.Proofs.Setup.Routine
import QueryBook.Proofs.Setup.Walk

/-!
# Setup follows the walk

A setup routine does two things that do not touch each other: it marks names, and it runs queries
against the databases with values drawn from the byte source. Which queries it runs, and in which
order, is decided by the marks and the dependencies alone. So the routine amounts to setting up the
queries of a walk one after the other, up to the first failure, whatever the database answers.

The depth of calls plays no part in this as long as it is larger than the number of names without a
mark. `setup_follows` says so for every state.
-/

namespace QueryBook

open Setup

/-! ## The queries that are set up -/

namespace Book

variable {b : Book} {q : Query} {g : Backend} {name : String}

/-- The dependencies of a query of the book. -/
def dependenciesOf (b : Book) (name : String) : List String :=
  match b.find? name with
  | some q => q.dependencyNames
  | none => []

/-- The names of the queries for a backend that have a setup routine. -/
def targets (b : Book) (g : Backend) : List String :=
  (b.setupTargets.filter fun q => q.backend == g).map Query.name

/-- The queries of these names. -/
def named (b : Book) (names : List String) : List Query := names.filterMap b.find?

theorem mem_targets_iff :
    name ∈ b.targets g ↔ ∃ q ∈ b.setupTargets, q.backend = g ∧ q.name = name := by
  simp only [targets, List.mem_map, List.mem_filter, beq_iff_eq, and_assoc]

theorem dependenciesOf_eq (h : b.names.Nodup) (hq : q ∈ b.queries) :
    b.dependenciesOf q.name = q.dependencyNames := by
  rw [dependenciesOf, find?_of_mem h hq]

/-- A dependency has a setup routine, for the same backend. -/
theorem mem_targets_of_dependency (hq : q ∈ b.queries) (hsound : b.Sound q)
    (h : name ∈ q.dependencyNames) : name ∈ b.targets q.backend := by
  obtain ⟨target, ht, hbackend⟩ := hsound.dependencies name h
  obtain ⟨hmem, rfl⟩ := find?_eq_some ht
  refine mem_targets_iff.mpr ⟨target, List.mem_filter.mpr ⟨hmem, ?_⟩, hbackend, rfl⟩
  have hreferenced : target.name ∈ b.queries.flatMap Query.dependencyNames :=
    List.mem_flatMap.mpr ⟨q, hq, h⟩
  simp only [List.contains_iff_mem.mpr hreferenced, Bool.or_true]

theorem targets_closed (hb : b.check = .ok ()) (h : name ∈ b.targets g) :
    ∀ d ∈ b.dependenciesOf name, d ∈ b.targets g := by
  obtain ⟨hnames, hsound⟩ := check_eq_ok_iff.mp hb
  obtain ⟨q, hq, rfl, rfl⟩ := mem_targets_iff.mp h
  have hmem := mem_setupTargets hq
  rw [dependenciesOf_eq hnames hmem]
  exact fun d hd => mem_targets_of_dependency hmem (hsound q hmem) hd

theorem targets_length_le (b : Book) (g : Backend) : (b.targets g).length ≤ b.queries.length := by
  rw [targets, List.length_map]
  exact (List.length_filter_le _ _).trans (List.length_filter_le _ _)

end Book

/-! ## Whole walks -/

namespace Program

/-- Sets up queries one after the other, up to the first failure. -/
def setUpAll (p : Program) (c : Nat) :
    List Query → World × ByteSource → EStateM.Result Failure (World × ByteSource) Unit
  | [], s => .ok () s
  | q :: rest, s =>
    match p.setUp c q s with
    | .ok _ s' => setUpAll p c rest s'
    | .error e s' => .error e s'

theorem setUpAll_append (p : Program) (c : Nat) (l l' : List Query) (s : World × ByteSource) :
    p.setUpAll c (l ++ l') s =
      match p.setUpAll c l s with
      | .ok _ s' => p.setUpAll c l' s'
      | .error e s' => .error e s' := by
  induction l generalizing s with
  | nil => rfl
  | cons q l ih =>
    rw [List.cons_append, setUpAll, setUpAll]
    cases p.setUp c q s with
    | ok _ s' => exact ih s'
    | error e s' => rfl

/-- `r` is what becomes of `s` when the queries of `order` are set up to the first failure, and `V`
is marked if there is none. -/
def Follows (p : Program) (c : Nat) (m : Memory) (u k : Nat) (order : List Query) (V : List String)
    (s : SetupState) (r : EStateM.Result Failure Memory Unit) : Prop :=
  match p.setUpAll c order (s.world, s.source) with
  | .ok _ t => r = .ok () ((⟨t.1, t.2, V⟩ : SetupState).within m u k)
  | .error e t => ∃ W, r = .error e ((⟨t.1, t.2, W⟩ : SetupState).within m u k)

theorem forM_cons_apply (p : Program) (depth : Nat) (args : List Object) (n : String)
    (ns : List String) (m : Memory) :
    (n :: ns).forM (p.routine depth args) m =
      match p.routine depth args n m with
      | .ok _ m' => ns.forM (p.routine depth args) m'
      | .error e m' => .error e m' := by
  show (p.routine depth args n >>= fun _ => ns.forM (p.routine depth args)) m = _
  rw [Session.bind_apply]
  cases p.routine depth args n m <;> rfl

variable {config : Config} {b : Book} {p : Program} {m : Memory} {u k : Nat}

/-- Routines that are called one after the other follow one order and then the other. -/
theorem Follows.forM_cons {args : List Object} {c bound : Nat} {n : String} {ns : List String}
    {first rest : List Query} {V V' : List String} {s : SetupState}
    {r : EStateM.Result Failure Memory Unit} (h : Follows p c m u k first V s r)
    (hrest : ∀ s' : SetupState, s'.visited = V → ∃ r', Follows p c m u k rest V' s' r' ∧
      ∀ depth, bound < depth → ns.forM (p.routine depth args) (s'.within m u k) = r') :
    ∃ r', Follows p c m u k (first ++ rest) V' s r' ∧ ∀ depth, bound < depth →
      p.routine depth args n (s.within m u k) = r →
        (n :: ns).forM (p.routine depth args) (s.within m u k) = r' := by
  unfold Follows at h ⊢
  rw [setUpAll_append]
  cases hall : p.setUpAll c first (s.world, s.source) with
  | error e t =>
    simp only [hall] at h ⊢
    obtain ⟨W, rfl⟩ := h
    refine ⟨_, ⟨W, rfl⟩, fun depth _ hfirst => ?_⟩
    rw [forM_cons_apply, hfirst]
  | ok _ t =>
    simp only [hall] at h ⊢
    subst h
    obtain ⟨r', hr', hrun⟩ := hrest ⟨t.1, t.2, V⟩ rfl
    refine ⟨r', hr', fun depth hdepth hfirst => ?_⟩
    rw [forM_cons_apply, hfirst]
    exact hrun depth hdepth

/-- A routine whose query is not marked follows the order of its dependencies and the query. -/
theorem Of.routine_follows (hp : p.Of config b) (htests : config.emitTests = true) (hm : m.Has u k)
    {q : Query} (hq : q ∈ b.setupTargets) {c : Nat} {s : SetupState} (hn : q.name ∉ s.visited)
    {order : List Query} {V : List String} {r : EStateM.Result Failure Memory Unit}
    (h : Follows p c m u k order V { s with visited := s.visited ++ [q.name] } r) :
    ∃ r', Follows p c m u k (order ++ [q]) V s r' ∧ ∀ depth,
      q.dependencyNames.forM (p.routine (depth + 1) (Setup.arguments u k q.backend c))
        (({ s with visited := s.visited ++ [q.name] } : SetupState).within m u k) = r →
      p.routine (depth + 2) (Setup.arguments u k q.backend c) q.name (s.within m u k) = r' := by
  have hroutine := hp.routine_of_not_mem (c := c) htests hq hm hn
  unfold Follows at h ⊢
  rw [setUpAll_append]
  cases hall : p.setUpAll c order (s.world, s.source) with
  | error e t =>
    simp only [hall] at h ⊢
    obtain ⟨W, rfl⟩ := h
    exact ⟨_, ⟨W, rfl⟩, fun depth hdeps => (hroutine depth).1 _ _ hdeps⟩
  | ok _ t =>
    simp only [hall] at h ⊢
    subst h
    refine ⟨(⟨t.1, t.2, V⟩ : SetupState).resume m u k (p.setUp c q t), ?_,
      fun depth hdeps => (hroutine depth).2 _ hdeps⟩
    rw [setUpAll]
    cases p.setUp c q t with
    | error e t' => exact ⟨V, rfl⟩
    | ok _ t' => rfl

/-- **Routines follow the walk of their names.** The result is the same for any depth that is larger
than the number of names without a mark. -/
theorem Of.forM_follows (hp : p.Of config b) (htests : config.emitTests = true) (hm : m.Has u k)
    (g : Backend) (c : Nat) {V ns o V' : List String} (h : Walk b.dependenciesOf V ns o V') :
    ∀ s : SetupState, s.visited = V → (∀ n ∈ ns, n ∈ b.targets g) →
      ∃ r, Follows p c m u k (b.named o) V' s r ∧ ∀ depth, unmarked (b.targets g) V < depth →
        ns.forM (p.routine depth (Setup.arguments u k g c)) (s.within m u k) = r := by
  induction h with
  | nil V =>
    rintro s rfl _
    exact ⟨.ok () (s.within m u k), rfl, fun _ _ => rfl⟩
  | @skip n V ns o V' hn _ ih =>
    rintro s rfl hns
    obtain ⟨q, hq, rfl, rfl⟩ := Book.mem_targets_iff.mp (hns n List.mem_cons_self)
    obtain ⟨r, hr, hrun⟩ := ih s rfl fun m hm => hns m (List.mem_cons_of_mem _ hm)
    refine ⟨r, hr, fun depth hdepth => ?_⟩
    obtain ⟨d, rfl⟩ := Nat.exists_eq_succ_of_ne_zero (Nat.ne_zero_of_lt hdepth)
    rw [forM_cons_apply, hp.routine_of_mem htests hq hm hn]
    exact hrun _ hdepth
  | @enter n V ns o₁ V₁ o₂ V₂ hn h₁ h₂ ih₁ ih₂ =>
    rintro s rfl hns
    have hname := hns n List.mem_cons_self
    obtain ⟨q, hq, rfl, rfl⟩ := Book.mem_targets_iff.mp hname
    have hmem := mem_setupTargets hq
    rw [Book.dependenciesOf_eq hp.nodup hmem] at h₁ ih₁
    -- the dependencies are one call deeper, and one name more is marked
    have hlt := unmarked_append_lt hname hn
    have hle := unmarked_mono (U := b.targets q.backend) fun x hx => h₁.marked_of_mem hx
    obtain ⟨r₁, hr₁, hrun₁⟩ := ih₁ { s with visited := s.visited ++ [q.name] } rfl
      fun d hd => Book.mem_targets_of_dependency hmem (hp.sound hmem) hd
    obtain ⟨r, hr, hroutine⟩ := hp.routine_follows htests hm hq hn hr₁
    obtain ⟨r', hr', hrun⟩ := hr.forM_cons (n := q.name) fun s' hs' =>
      ih₂ s' hs' fun x hx => hns x (List.mem_cons_of_mem _ hx)
    have hqueries : b.named (o₁ ++ q.name :: o₂) = b.named o₁ ++ [q] ++ b.named o₂ := by
      simp [Book.named, Book.find?_of_mem hp.nodup hmem]
    refine ⟨r', hqueries ▸ hr', fun depth hdepth => ?_⟩
    obtain ⟨d, rfl⟩ : ∃ d, depth = d + 2 := ⟨depth - 2, by omega⟩
    exact hrun _ (by omega) (hroutine d (hrun₁ (d + 1) (by omega)))

theorem Of.invoke_routine (hp : p.Of config b) (htests : config.emitTests = true) {q : Query}
    (hq : q ∈ b.setupTargets) (depth : Nat) (args : List Object) :
    (p.invoke depth (Role.testSetup.ident q.name) args >>= fun _ => pure ()) =
      p.routine depth args q.name := by
  rw [invoke_function (hp.find?_routine htests hq), Program.routine,
    lookup_function (hp.find?_routine htests hq), pure_bind]

/-- **Setup of a query follows a walk from its name**, at every depth that is larger than the number
of queries. -/
theorem Of.setup_follows (hp : p.Of config b) (htests : config.emitTests = true) (hm : m.Has u k)
    {q : Query} (hq : q ∈ b.setupTargets) (c : Nat) (s : SetupState) {o V' : List String}
    (h : Walk b.dependenciesOf s.visited [q.name] o V') :
    ∃ r, Follows p c m u k (b.named o) V' s r ∧ ∀ depth, b.queries.length < depth →
      (p.invoke depth (Role.testSetup.ident q.name) (Setup.arguments u k q.backend c) >>=
        fun _ => pure ()) (s.within m u k) = r := by
  have htarget : q.name ∈ b.targets q.backend := Book.mem_targets_iff.mpr ⟨q, hq, rfl, rfl⟩
  obtain ⟨r, hr, hrun⟩ := hp.forM_follows htests hm q.backend c h s rfl
    fun n hn => List.mem_singleton.mp hn ▸ htarget
  refine ⟨r, hr, fun depth hdepth => ?_⟩
  have hbound := (unmarked_le_length _ s.visited).trans (b.targets_length_le q.backend)
  rw [hp.invoke_routine htests hq, ← hrun depth (Nat.lt_of_le_of_lt hbound hdepth),
    forM_cons_apply]
  cases p.routine depth (Setup.arguments u k q.backend c) q.name (s.within m u k) <;> rfl

end Program

namespace Book

variable {b : Book} {g : Backend} {V V' ns o : List String}

/-- A walk starts from every query that has a setup routine. -/
theorem exists_walk_of_target (hb : b.check = .ok ()) {name : String} (h : name ∈ b.targets g)
    (V : List String) : ∃ o V', Walk b.dependenciesOf V [name] o V' :=
  exists_walk (U := b.targets g) (fun _ hx => targets_closed hb hx) V [name]
    fun _ hn => List.mem_singleton.mp hn ▸ h

/-- A walk enters queries of one backend only. -/
theorem mem_targets_of_walk (hb : b.check = .ok ()) (h : Walk b.dependenciesOf V ns o V')
    (hns : ∀ n ∈ ns, n ∈ b.targets g) : ∀ x ∈ o, x ∈ b.targets g := by
  intro x hx
  obtain ⟨n, hn, _, hpath⟩ := h.reaches_of_mem x hx
  clear hx
  induction hpath with
  | refl => exact hns n hn
  | tail _ hstep ih => exact targets_closed hb ih _ hstep.1

theorem named_of_targets (hb : b.check = .ok ()) (h : ∀ x ∈ o, x ∈ b.targets g) :
    (b.named o).map Query.name = o ∧ ∀ q ∈ b.named o, q ∈ b.setupTargets ∧ q.backend = g := by
  induction o with
  | nil => exact ⟨rfl, nofun⟩
  | cons x o ih =>
    obtain ⟨q, hq, hg, rfl⟩ := mem_targets_iff.mp (h x List.mem_cons_self)
    obtain ⟨hnames, hall⟩ := ih fun y hy => h y (List.mem_cons_of_mem _ hy)
    have hfind := find?_of_mem (check_eq_ok_iff.mp hb).1 (mem_setupTargets hq)
    rw [named, List.filterMap_cons_some hfind]
    exact ⟨congrArg (q.name :: ·) hnames, List.forall_mem_cons.mpr ⟨⟨hq, hg⟩, hall⟩⟩

end Book

end QueryBook
