import QueryBook.Proofs.Setup.Once

/-!
# Setup runs dependencies first

A query has its turn when the walk of its dependencies is over. A dependency that was found marked
at that time was marked before the whole walk began, or it had its turn already, or its own walk is
still under way. Only in the last case does it come later, and then the query is reached from it:
the two lie on a circle. So the order of a run breaks a dependency nowhere but on circles, and
without circles it breaks none.
-/

namespace QueryBook

namespace Setup

/-- `x` comes before `y` in a list. -/
def Precedes (l : List String) (x y : String) : Prop := List.Sublist [x, y] l

/-- No name depends on itself, directly or through others. -/
def Acyclic (deps : String → List String) : Prop :=
  ∀ x, ¬ Relation.TransGen (fun x y => y ∈ deps x) x x

/-- No name comes before one of its dependencies. -/
def Topological (deps : String → List String) (l : List String) : Prop :=
  l.Pairwise fun x y => y ∉ deps x

variable {deps : String → List String} {V V' ns o : List String}

theorem precedes_append {l l' : List String} {x y : String} (hx : x ∈ l) (hy : y ∈ l') :
    Precedes (l ++ l') x y :=
  (List.singleton_sublist.mpr hx).append (List.singleton_sublist.mpr hy)

/-- Of two names in a list without repetition only one comes first. -/
theorem Precedes.asymm {l : List String} (hl : l.Nodup) {x y : String} (h : Precedes l x y) :
    ¬ Precedes l y x := by
  intro h'
  induction l with
  | nil => cases h
  | cons z l ih =>
    obtain ⟨hz, hl⟩ := List.nodup_cons.mp hl
    cases h with
    | cons _ h =>
      cases h' with
      | cons _ h' => exact ih hl h h'
      | cons_cons _ _ => exact hz (h.subset (by simp))
    | cons_cons _ _ =>
      -- `x` is the head, so that it cannot come behind `y`
      cases h' with
      | cons _ h' => exact hz (h'.subset (by simp))
      | cons_cons _ h' => exact hz (List.singleton_sublist.mp h')

/-- **A dependency has its turn first**, unless it was marked in the beginning or lies on a
circle. -/
theorem Walk.precedes (h : Walk deps V ns o V') :
    ∀ a ∈ o, ∀ d ∈ deps a, d ∈ V ∨ Reaches deps V d a ∨ Precedes o d a := by
  induction h with
  | nil V => intro a ha; cases ha
  | skip _ _ ih => exact ih
  | @enter n V ns o₁ V₁ o₂ V₂ hn h₁ h₂ ih₁ ih₂ =>
    have hmono : ∀ x ∈ V, x ∈ V ++ [n] := fun x hx => List.mem_append_left _ hx
    have hbegin : ∀ x ∈ V ++ [n], x ∈ V ∨ x = n := by simp
    have hright : List.Sublist (n :: o₂) (o₁ ++ n :: o₂) := List.sublist_append_right _ _
    intro a ha d hd
    rcases List.mem_append.mp ha with ha₁ | ha
    · -- below `n` the mark on `n` counts as one of the beginning
      rcases ih₁ a ha₁ d hd with hV | hr | hp
      · rcases hbegin d hV with hV | rfl
        · exact .inl hV
        obtain ⟨m, hm, hr⟩ := h₁.reaches_of_mem a ha₁
        have hr := hr.mono hmono
        exact .inr (.inl ⟨hn, .head ⟨hm, hr.1⟩ hr.2⟩)
      · exact .inr (.inl (hr.mono hmono))
      · exact .inr (.inr (hp.trans (List.sublist_append_left _ _)))
    rcases List.mem_cons.mp ha with rfl | ha₂
    · -- the walk of its dependencies is over, so they are all marked
      rcases (h₁.mem_marked d).mp (h₁.closed.1 d hd) with hV | ho
      · rcases hbegin d hV with hV | rfl
        · exact .inl hV
        · exact .inr (.inl ⟨hn, .refl⟩)
      · exact .inr (.inr (precedes_append ho List.mem_cons_self))
    · rcases ih₂ a ha₂ d hd with hV | hr | hp
      · rcases (h₁.mem_marked d).mp hV with hV | ho
        · rcases hbegin d hV with hV | rfl
          · exact .inl hV
          · exact .inr (.inr (((List.singleton_sublist.mpr ha₂).cons_cons d).trans hright))
        · exact .inr (.inr (precedes_append ho (List.mem_cons_of_mem _ ha₂)))
      · refine .inr (.inl (hr.mono fun x hx => ?_))
        exact h₁.marked_of_mem (hmono x hx)
      · exact .inr (.inr ((hp.cons n).trans hright))

/-- Without circles every dependency has its turn first. -/
theorem Walk.topological (h : Walk deps V ns o V') (hdeps : Acyclic deps) :
    Topological deps o := by
  refine List.pairwise_iff_forall_sublist.mpr fun {x y} hxy hy => ?_
  have hx : x ∈ o := hxy.subset (by simp)
  have hyo : y ∈ o := hxy.subset (by simp)
  rcases h.precedes x hx y hy with hV | ⟨_, hpath⟩ | hp
  · exact h.not_mem_of_order y hyo hV
  · -- from `x` to its dependency `y` and back
    have hback := Relation.ReflTransGen.mono (fun _ _ hstep => hstep.1) y x hpath
    exact hdeps x (Relation.TransGen.head' hy hback)
  · exact Precedes.asymm h.nodup hxy hp

/-- The name that a walk starts from has its turn last. -/
theorem Walk.getLast?_eq {n : String} (h : Walk deps V [n] o V') (hn : n ∉ V) :
    o.getLast? = some n := by
  cases h with
  | skip hV _ => exact absurd hV hn
  | enter _ _ h₂ =>
    cases h₂
    simp

end Setup

open Setup

namespace Program

/-- **Setup runs dependencies first.** Of two queries in a run the dependency comes first unless
the other is reached from it; without circles the run is in topological order; and the query that
is set up comes last. -/
theorem setup_runs_dependencies_first {config : Config} {b : Book} {m : Module}
    (hb : b.check = .ok ()) (hm : (Module.build config .standard b).outcome = .ok m)
    (htests : config.emitTests = true) {q : Query} (hq : q ∈ b.setupTargets) (c : Nat)
    (memory : Memory) {u k : Nat} {source : ByteSource} {visited : List String}
    (hsource : memory.sources[u]? = some source)
    (hvisited : memory.nameSets[k]? = some visited)
    (hruns : ∀ x ∈ b.queries, Reaches b.dependenciesOf visited q.name x.name → b.Runs x)
    (hdriver : memory.world.Undisturbed
      (((ofModule m).invoke (ofModule m).depth (Role.testSetup.ident q.name)
        [.source u, .names k, .connection q.backend c]).after memory).world) :
    ∃ (order : List Query) (names : List String) (commands : List Command) (memory' : Memory)
        (new : List Event),
      (∃ r, (ofModule m).invoke (ofModule m).depth (Role.testSetup.ident q.name)
        [.source u, .names k, .connection q.backend c] memory = .ok r memory') ∧
      memory'.world.events = memory.world.events ++ new ∧
      (new.filterMap Event.sent? = commands.map fun command => (c, command)) ∧
      Query.attempts config order source = commands.map .send ∧
      (∀ x ∈ order, x ∈ b.queries) ∧
      order.map Query.name = names ∧
      names.Nodup ∧
      (∀ n, n ∈ names ↔ Reaches b.dependenciesOf visited q.name n) ∧
      (∀ a ∈ names, ∀ d ∈ names, d ∈ b.dependenciesOf a →
        ¬ Reaches b.dependenciesOf visited d a → Precedes names d a) ∧
      (Acyclic b.dependenciesOf → Topological b.dependenciesOf names) ∧
      (q.name ∉ visited → names.getLast? = some q.name) := by
  have hp := of_build hb hm
  obtain ⟨o, V', commands, memory', new, hwalk, hmem, hnames, hrun, -, hcommands, hevents, hsent⟩ :=
    hp.setup_of_undisturbed htests hq c hsource hvisited hruns hdriver
  refine ⟨b.named o, o, commands, memory', new, hrun _ hp.length_lt_depth, hevents, hsent,
    hcommands, hmem, hnames, hwalk.nodup, ?_, ?_, hwalk.topological, hwalk.getLast?_eq⟩
  · intro n
    rw [hwalk.mem_order_iff]
    simp
  · intro a ha d hd hdep hnot
    rcases hwalk.precedes a ha d hdep with hV | hr | hp
    · exact absurd hV (hwalk.not_mem_of_order d hd)
    · exact absurd hr hnot
    · exact hp

end Program

/-- If every dependency has a lower rank there are no circles. -/
theorem Book.acyclic_of_rank {b : Book} (rank : String → Nat)
    (h : ∀ q ∈ b.queries, ∀ d ∈ q.dependencyNames, rank d < rank q.name) :
    Acyclic b.dependenciesOf := by
  have hstep : ∀ x y, y ∈ b.dependenciesOf x → rank y < rank x := by
    intro x y hy
    unfold Book.dependenciesOf at hy
    split at hy
    · rename_i q hq
      obtain ⟨hmem, rfl⟩ := Book.find?_eq_some hq
      exact h q hmem y hy
    · cases hy
  have hpath : ∀ {x y}, Relation.TransGen (fun x y => y ∈ b.dependenciesOf x) x y →
      rank y < rank x := by
    intro x y h
    induction h with
    | single h => exact hstep _ _ h
    | tail _ h ih => exact (hstep _ _ h).trans ih
  exact fun x hx => Nat.lt_irrefl _ (hpath hx)

/-- A query that needs two others, which both need a fourth. -/
def Book.diamond : Book :=
  let query (name : String) (dependencies : List String) (line : Nat) : Query :=
    { name, backend := .embedded, named := false, parameters := [], outputs := []
      statement := "insert into t default values", dependencies := some dependencies, line }
  { queries := [query "top" ["left", "right"] 1, query "left" ["base"] 2,
      query "right" ["base"] 3, query "base" [] 4]
    sourceName := "diamond" }

namespace Program

theorem setup_runs_dependencies_first_diamond :
    Book.diamond.check = .ok () ∧
    ∃ (m : Module) (names : List String) (memory' : Memory),
      (Module.build {} .standard Book.diamond).outcome = .ok m ∧
      (∃ r, (ofModule m).invoke (ofModule m).depth "testsetup_top"
        [.source 0, .names 0, .connection .embedded 1] .unmarked = .ok r memory') ∧
      (∀ n, n ∈ names ↔ Reaches Book.diamond.dependenciesOf [] "top" n) ∧
      Topological Book.diamond.dependenciesOf names ∧ names.getLast? = some "top" := by
  have hb : Book.diamond.check = .ok () := rfl
  have hq : Book.diamond.queries.get ⟨0, by decide⟩ ∈ Book.diamond.setupTargets := by decide
  have hruns : ∀ x ∈ Book.diamond.queries, Book.diamond.Runs x := by decide
  have hacyclic : Acyclic Book.diamond.dependenciesOf :=
    Book.acyclic_of_rank (fun n => if n = "top" then 2 else if n = "base" then 0 else 1) (by decide)
  obtain ⟨m, hm, hdriver⟩ : ∃ m, (Module.build {} .standard Book.diamond).outcome = .ok m ∧
      Memory.unmarked.world.Undisturbed (((ofModule m).invoke (ofModule m).depth "testsetup_top"
        [.source 0, .names 0, .connection .embedded 1]).after .unmarked).world :=
    exists_ok_of_any (by decide +kernel)
  obtain ⟨_, names, _, memory', _, hrun, _, _, _, _, _, _, hreached, _, htopological, hlast⟩ :=
    setup_runs_dependencies_first hb hm rfl hq 1 .unmarked rfl rfl (fun x hx _ => hruns x hx)
      hdriver
  exact ⟨hb, m, names, memory', hm, hrun, hreached, htopological hacyclic,
    hlast List.not_mem_nil⟩

end Program

/-- A tested query that needs one whose function is replaced by the prepared form of another
query. -/
def Book.halted : Book :=
  let query (name statement : String) (dependencies : Option (List String)) : Query :=
    { name, backend := .network, named := false, parameters := [], outputs := [], statement
      dependencies, line := 1 }
  { queries := [query "top" "t" (some ["prepared_x"]), query "prepared_x" "a" none,
      query "x" "b" none]
    sourceName := "halted" }

/-- **The query that is set up need not come last**: it is not run at all if the function of a
dependency is replaced, though nothing is wrong with the database. -/
theorem Program.setup_of_halted_is_not_last :
    Book.halted.check = .ok () ∧ Acyclic Book.halted.dependenciesOf ∧
    ∃ (m : Module) (memory' : Memory),
      (Module.build {} .standard Book.halted).outcome = .ok m ∧
      (ofModule m).invoke (ofModule m).depth "testsetup_top"
        [.source 0, .names 0, .connection .network 2] .unmarked =
          .error (.language "TypeError"
            "execute_prepared_x() missing 1 required positional argument: 'stmt'") memory' ∧
      memory'.world.events = [] ∧ memory'.nameSets = [["top", "prepared_x"]] := by
  have hb : Book.halted.check = .ok () := rfl
  obtain ⟨m, hm⟩ := Module.exists_build_of_check hb {} rfl
  have hdefinitions := (of_build hb hm).definitions
  refine ⟨hb, ?_, m, { Memory.unmarked with nameSets := [["top", "prepared_x"]] }, hm, ?_, rfl,
    rfl⟩
  · exact Book.acyclic_of_rank (fun n => if n = "top" then 1 else 0) (by decide)
  generalize ofModule m = p at hdefinitions
  obtain ⟨ds, es⟩ := p
  subst hdefinitions
  rfl

end QueryBook
