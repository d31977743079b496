import QueryBook.Proofs.Setup.Course

/-!
# Setup runs what it reaches, once

The queries that setup has to run are those that the setup query depends on, directly or through
others, except where the way there leads over a query that was marked before. For a checked book
this is what happens, whatever circles the dependencies form: each of these queries is run once,
no other is run, and exactly these have become marked. An error of the database is one thing that
can cut a run short. The other is a name: the routine calls what is called `execute_` with the name
of the query behind it, and that may be the prepared form of another query.
-/

namespace QueryBook

open Setup

/-! ## Queries that can be set up -/

/-- The statement is a text whatever is drawn for the parameters: a parameter that is called like
the statement text stands for one. -/
def Query.DrawsText (q : Query) : Prop :=
  ∀ p ∈ q.parameters, p.name = Role.sql.ident q.name → p.type = ⟨"str", []⟩

instance (q : Query) : Decidable q.DrawsText := inferInstanceAs (Decidable (∀ p ∈ _, _))

/-- Setup can run the query: its function has not been replaced, and what the function sends is a
text. -/
def Book.Runs (b : Book) (q : Query) : Prop := ¬ b.Replaced q ∧ q.DrawsText

instance (b : Book) (q : Query) : Decidable (b.Runs q) := inferInstanceAs (Decidable (_ ∧ _))

namespace Query

/-- A value that is drawn for a parameter of type `str` is a text. -/
theorem lookup_drawn {name : String} {ps : List Parameter} {cs : List ColumnType}
    (hcs : (ps.map Parameter.type).mapM ColumnType.ofTypeExpr? = some cs)
    (hps : ∀ p ∈ ps, p.name = name → p.type = ⟨"str", []⟩) (source : ByteSource) {v : Value}
    (hv : ((ps.map Parameter.name).zip (source.drawAll cs).1).lookup name = some v) :
    ∃ t, v = .text t := by
  induction ps generalizing cs source with
  | nil => cases hv
  | cons p ps ih =>
    rw [List.map_cons, List.mapM_cons] at hcs
    obtain ⟨c, hc, hcs⟩ := Option.bind_eq_some_iff.mp hcs
    obtain ⟨cs, hrest, hcs⟩ := Option.bind_eq_some_iff.mp hcs
    cases hcs
    have hzip : (p :: ps).map Parameter.name = p.name :: ps.map Parameter.name := rfl
    have hdrawn : (source.drawAll (c :: cs)).1 =
        (source.draw c).1 :: ((source.draw c).2.drawAll cs).1 := rfl
    rw [hzip, hdrawn, List.zip_cons_cons, List.lookup_cons] at hv
    split at hv
    · rename_i hname
      rw [hps p List.mem_cons_self (beq_iff_eq.mp hname).symm] at hc
      cases hc
      cases hv
      exact ⟨_, rfl⟩
    · exact ih hrest (fun p hp => hps p (List.mem_cons_of_mem _ hp)) _ hv

theorem statementValue_drawn {q : Query} (htyped : q.Typed) (hq : q.DrawsText) (text : String)
    (source : ByteSource) : ∃ t, q.statementValue text (source.drawAll q.inputs).1 = .text t := by
  unfold statementValue
  cases hv : (q.parameterNames.zip (source.drawAll q.inputs).1).lookup (Role.sql.ident q.name) with
  | none => exact ⟨text, rfl⟩
  | some v => exact lookup_drawn htyped.routine_values.1 hq source hv

/-- Queries that can be set up all send something. -/
theorem attempts_eq_sends (config : Config) {order : List Query}
    (h : ∀ q ∈ order, q.Typed ∧ q.DrawsText) (source : ByteSource) :
    ∃ commands : List Command, attempts config order source = commands.map .send ∧
      (statements order (commands.map .send)).map TestStatement.command = commands := by
  induction order generalizing source with
  | nil => exact ⟨[], rfl, rfl⟩
  | cons q order ih =>
    obtain ⟨htyped, hdraws⟩ := h q List.mem_cons_self
    obtain ⟨commands, hcommands, hsent⟩ :=
      ih (fun x hx => h x (List.mem_cons_of_mem _ hx)) (source.drawAll q.inputs).2
    obtain ⟨t, ht⟩ := statementValue_drawn htyped hdraws (q.text config) source
    refine ⟨q.command t (source.drawAll q.inputs).1 :: commands, ?_, congrArg (_ :: ·) hsent⟩
    rw [attempts, q.attempt_of_text ht, hcommands]
    rfl

/-- Queries that have not been replaced make their own attempts. -/
theorem eq_attempts_of_kept {b : Book} {config : Config} {order : List Query}
    (h : ∀ q ∈ order, ¬ b.Replaced q) {source : ByteSource} {as : List Attempt}
    (has : List.Forall₂ (fun own a => ¬ b.Replaced own.1 → a = own.2)
      (order.zip (attempts config order source)) as) : as = attempts config order source := by
  induction order generalizing source as with
  | nil =>
    cases has
    rfl
  | cons q order ih =>
    cases has with
    | cons hown hrest =>
      rw [attempts, hown (h q List.mem_cons_self),
        ih (fun x hx => h x (List.mem_cons_of_mem _ hx)) hrest]

end Query

theorem Attempt.refusal?_map_send (commands : List Command) :
    refusal? (commands.map send) = none := by
  induction commands with
  | nil => rfl
  | cons command commands ih => exact ih

/-! ## Setup -/

namespace Run

variable {α : Type} {x : Run α} {m m' : Memory}

theorem after_of_ended {r : Except Failure Unit}
    (h : ended ((x >>= fun _ => pure ()) m) = (r, m')) : x.after m = m' := by
  rw [Session.bind_apply] at h
  unfold after
  cases hx : x m with
  | ok a m'' =>
    rw [hx] at h
    exact congrArg Prod.snd h
  | error e m'' =>
    rw [hx] at h
    exact congrArg Prod.snd h

theorem ok_of_ended (h : ended ((x >>= fun _ => pure ()) m) = (.ok (), m')) :
    ∃ a, x m = .ok a m' := by
  rw [Session.bind_apply] at h
  cases hx : x m with
  | ok a m'' =>
    rw [hx] at h
    exact ⟨a, congrArg _ (congrArg Prod.snd h)⟩
  | error e m'' =>
    rw [hx] at h
    cases congrArg Prod.fst h

end Run

/-- No statement sent between two worlds came back with an error. -/
def World.Undisturbed (before after : World) : Prop :=
  ∀ x ∈ after.events.drop before.events.length, x.refused = false

instance (before after : World) : Decidable (before.Undisturbed after) :=
  inferInstanceAs (Decidable (∀ _ ∈ _, _))

/-- A memory with its own byte source and set of names put back. -/
theorem SetupState.within_self {m : Memory} {u k : Nat} {source : ByteSource}
    {visited : List String} (hsource : m.sources[u]? = some source)
    (hvisited : m.nameSets[k]? = some visited) :
    m.Has u k ∧ (⟨m.world, source, visited⟩ : SetupState).within m u k = m := by
  obtain ⟨hu, rfl⟩ := List.getElem?_eq_some_iff.mp hsource
  obtain ⟨hk, rfl⟩ := List.getElem?_eq_some_iff.mp hvisited
  refine ⟨⟨hu, hk⟩, ?_⟩
  unfold within
  rw [List.set_getElem_self, List.set_getElem_self]

namespace Program.Of

variable {config : Config} {b : Book} {p : Program} {q : Query} {u k c : Nat} {memory : Memory}
  {source : ByteSource} {visited : List String}

/-- A module has a definition for each query. -/
theorem length_le_definitions (hp : p.Of config b) : b.queries.length ≤ p.definitions.length := by
  have hlength : ∀ qs : List Query, (∀ q ∈ qs, q.HasSection config) →
      qs.length ≤ (qs.flatMap (Query.definitions config)).length := by
    intro qs hqs
    induction qs with
    | nil => exact Nat.le_refl 0
    | cons q qs ih =>
      obtain ⟨text, columns, access, -, -, -, heq⟩ := (hqs q List.mem_cons_self).eq
      have hrest := ih fun x hx => hqs x (List.mem_cons_of_mem _ hx)
      have hpos : 0 < (q.definitions config).length := by simp [heq, Query.constants]
      rw [List.flatMap_cons, List.length_append, List.length_cons]
      omega
  rw [hp.definitions, List.length_append]
  exact (hlength b.queries hp.sections).trans (Nat.le_add_right _ _)

/-- The routines of all queries can be under way at once. -/
theorem length_lt_depth (hp : p.Of config b) : b.queries.length < p.depth :=
  Nat.lt_add_right 1 (Nat.lt_succ_of_le hp.length_le_definitions)

/-- **A run of setup that no error cuts short sends the statements of the queries of a walk.** -/
theorem setup_of_undisturbed (hp : p.Of config b) (htests : config.emitTests = true)
    (hq : q ∈ b.setupTargets) (c : Nat) (hsource : memory.sources[u]? = some source)
    (hvisited : memory.nameSets[k]? = some visited)
    (hruns : ∀ x ∈ b.queries, Reaches b.dependenciesOf visited q.name x.name → b.Runs x)
    (hdriver : memory.world.Undisturbed
      ((p.invoke p.depth (Role.testSetup.ident q.name)
        (Setup.arguments u k q.backend c)).after memory).world) :
    ∃ (o V' : List String) (commands : List Command) (memory' : Memory) (new : List Event),
      Walk b.dependenciesOf visited [q.name] o V' ∧
      (∀ x ∈ b.named o, x ∈ b.queries) ∧ (b.named o).map Query.name = o ∧
      (∀ depth, b.queries.length < depth → ∃ r,
        p.invoke depth (Role.testSetup.ident q.name) (Setup.arguments u k q.backend c) memory =
          .ok r memory') ∧
      memory'.nameSets[k]? = some V' ∧
      Query.attempts config (b.named o) source = commands.map .send ∧
      memory'.world.events = memory.world.events ++ new ∧
      new.filterMap Event.sent? = commands.map fun command => (c, command) := by
  obtain ⟨hmemory, hwithin⟩ := SetupState.within_self hsource hvisited
  have htarget : q.name ∈ b.targets q.backend := Book.mem_targets_iff.mpr ⟨q, hq, rfl, rfl⟩
  obtain ⟨o, V', hwalk⟩ := Book.exists_walk_of_target hp.checked htarget visited
  obtain ⟨hnames, hnamed⟩ := Book.named_of_targets hp.checked (Book.mem_targets_of_walk hp.checked
    hwalk fun n hn => List.mem_singleton.mp hn ▸ htarget)
  have hmem : ∀ x ∈ b.named o, x ∈ b.queries := fun x hx => mem_setupTargets (hnamed x hx).1
  have hall : ∀ x ∈ b.named o, b.Runs x := by
    intro x hx
    refine hruns x (hmem x hx) ?_
    obtain ⟨n, hn, hreaches⟩ := hwalk.reaches_of_mem x.name (hnames ▸ List.mem_map_of_mem hx)
    rwa [List.mem_singleton.mp hn] at hreaches
  -- no function is replaced and every statement is a text, so that each query sends its own
  obtain ⟨as, hmakes, hown⟩ := hp.exists_makes hmem source
  obtain rfl := Query.eq_attempts_of_kept (fun x hx => (hall x hx).1) hown
  obtain ⟨commands, hcommands, hsent⟩ := Query.attempts_eq_sends config
    (fun x hx => ⟨(hp.sound (hmem x hx)).supported, (hall x hx).2⟩) source
  obtain ⟨r, memory', hcourse, hmarked, hrun⟩ :=
    hp.setup_course htests hmemory hq c ⟨memory.world, source, visited⟩ hwalk hmakes
  rw [hwithin] at hrun
  rw [hcommands, Attempt.refusal?_map_send] at hcourse
  obtain ⟨n, errors, hn, htrace, hclean, -⟩ := hcourse.sends_beginning
  obtain ⟨new, hevents, hnew, -, hanswers⟩ := htrace.events
  have hquiet : ∀ x ∈ new, x.refused = false := by
    intro x hx
    refine hdriver x ?_
    rw [Run.after_of_ended (hrun p.depth hp.length_lt_depth), hevents, List.drop_left]
    exact hx
  -- a beginning of the statements that no error ends is all of them
  have htake : (List.take n (Query.statements (b.named o) (commands.map .send))).length = n := by
    rw [List.length_take, Nat.min_eq_left hn]
  obtain ⟨rfl, rfl, -⟩ := hclean fun i hi => hanswers hquiet i (htake.symm ▸ hi)
  rw [List.take_length] at hnew
  refine ⟨o, V', commands, memory', new, hwalk, hmem, hnames,
    fun depth hdepth => Run.ok_of_ended (hrun depth hdepth), hmarked rfl, hcommands, hevents, ?_⟩
  rw [hnew, ← congrArg (List.map fun command => (c, command)) hsent, List.map_map]
  rfl

end Program.Of

namespace Program

/-- **Setup runs what it reaches, once.** The queries that are reached past the marks are run with
values drawn in turn, each once, and have become marked; no other is run or marked. Allowing more
calls to be under way makes no difference, so that circles end by themselves. -/
theorem setup_runs_reached_once {config : Config} {b : Book} {m : Module}
    (hb : b.check = .ok ()) (hm : (Module.build config .standard b).outcome = .ok m)
    (htests : config.emitTests = true) {q : Query} (hq : q ∈ b.setupTargets) (c : Nat)
    (memory : Memory) {u k : Nat} {source : ByteSource} {visited : List String}
    (hsource : memory.sources[u]? = some source)
    (hvisited : memory.nameSets[k]? = some visited)
    (hruns : ∀ x ∈ b.queries, Reaches b.dependenciesOf visited q.name x.name → b.Runs x)
    (hdriver : memory.world.Undisturbed
      (((ofModule m).invoke (ofModule m).depth (Role.testSetup.ident q.name)
        [.source u, .names k, .connection q.backend c]).after memory).world) :
    ∃ (order : List Query) (commands : List Command) (memory' : Memory) (visited' : List String)
        (new : List Event),
      b.queries.length < (ofModule m).depth ∧
      (∀ depth, b.queries.length < depth → ∃ r,
        (ofModule m).invoke depth (Role.testSetup.ident q.name)
          [.source u, .names k, .connection q.backend c] memory = .ok r memory') ∧
      (∀ x ∈ order, x ∈ b.queries) ∧
      (order.map Query.name).Nodup ∧
      (∀ n, n ∈ order.map Query.name ↔ Reaches b.dependenciesOf visited q.name n) ∧
      Query.attempts config order source = commands.map .send ∧
      memory'.world.events = memory.world.events ++ new ∧
      (new.filterMap Event.sent? = commands.map fun command => (c, command)) ∧
      memory'.nameSets[k]? = some visited' ∧
      ∀ n, n ∈ visited' ↔ n ∈ visited ∨ Reaches b.dependenciesOf visited q.name n := by
  have hp := of_build hb hm
  obtain ⟨o, V', commands, memory', new, hwalk, hmem, hnames, hrun, hmarked, hcommands, hevents,
    hsent⟩ := hp.setup_of_undisturbed htests hq c hsource hvisited hruns hdriver
  have horder : ∀ n, n ∈ o ↔ Reaches b.dependenciesOf visited q.name n := by
    intro n
    rw [hwalk.mem_order_iff]
    simp
  refine ⟨b.named o, commands, memory', V', new, hp.length_lt_depth, hrun, hmem, ?_, ?_, hcommands,
    hevents, hsent, hmarked, ?_⟩
  · rw [hnames]
    exact hwalk.nodup
  · rw [hnames]
    exact horder
  · intro n
    rw [← horder]
    exact hwalk.mem_marked n

end Program

/-- Queries that need each other and themselves, and one of them another query twice. -/
def Book.circular : Book :=
  { queries := [
      { name := "a", backend := .embedded, named := false
        parameters := [⟨"x", ⟨"Optional", [⟨"int", []⟩]⟩⟩], outputs := []
        statement := "insert into t values (:x)", dependencies := some ["b", "a"], line := 1 },
      { name := "b", backend := .embedded, named := false, parameters := []
        outputs := [⟨"int", []⟩], statement := "select 1"
        dependencies := some ["c", "a", "c"], line := 2 },
      { name := "c", backend := .embedded, named := false, parameters := [], outputs := []
        statement := "create table t (x)", dependencies := some ["d"], line := 3 },
      { name := "d", backend := .embedded, named := false, parameters := [], outputs := []
        statement := "drop table t", dependencies := none, line := 4 }]
    sourceName := "circular" }

/-- A memory in which `d` is marked, and one of the statements to come returns rows. -/
def Memory.circular : Memory :=
  { world := { answers := [{}, { rows := some [[.int 1]] }], environment := [] }
    sources := [.ofBytes [1, 7, 0, 0, 0]], nameSets := [["d"]] }

namespace Program

theorem setup_runs_reached_once_circular :
    Book.circular.check = .ok () ∧
    ∃ (m : Module) (order : List Query) (memory' : Memory) (visited' : List String),
      (Module.build {} .standard Book.circular).outcome = .ok m ∧
      (∃ r, (ofModule m).invoke 5 "testsetup_a" [.source 0, .names 0, .connection .embedded 1]
        .circular = .ok r memory') ∧
      (order.map Query.name).Nodup ∧
      (∀ n, n ∈ order.map Query.name ↔ Reaches Book.circular.dependenciesOf ["d"] "a" n) ∧
      memory'.nameSets[0]? = some visited' ∧
      ∀ n, n ∈ visited' ↔ n ∈ ["d"] ∨ Reaches Book.circular.dependenciesOf ["d"] "a" n := by
  have hb : Book.circular.check = .ok () := rfl
  have hq : Book.circular.queries.get ⟨0, by decide⟩ ∈ Book.circular.setupTargets := by decide
  have hruns : ∀ x ∈ Book.circular.queries, Book.circular.Runs x := by decide
  obtain ⟨m, hm, hdriver⟩ : ∃ m, (Module.build {} .standard Book.circular).outcome = .ok m ∧
      Memory.circular.world.Undisturbed (((ofModule m).invoke (ofModule m).depth "testsetup_a"
        [.source 0, .names 0, .connection .embedded 1]).after .circular).world :=
    exists_ok_of_any (by decide +kernel)
  obtain ⟨order, _, memory', visited', _, _, hrun, _, hnodup, horder, _, _, _, hmarked,
      hvisited⟩ :=
    setup_runs_reached_once hb hm rfl hq 1 .circular rfl rfl (fun x hx _ => hruns x hx) hdriver
  exact ⟨hb, m, order, memory', visited', hm, hrun 5 (by decide), hnodup, horder, hmarked,
    hvisited⟩

end Program

/-- A tested query whose function is replaced by the prepared form of another query. -/
def Book.replaced : Book :=
  let query (name statement : String) (dependencies : Option (List String)) : Query :=
    { name, backend := .network, named := false, parameters := [], outputs := [], statement
      dependencies, line := 1 }
  { queries := [query "prepared_x" "a" (some []), query "x" "b" none], sourceName := "replaced" }

/-- A memory in which nothing is marked. -/
def Memory.unmarked : Memory :=
  { world := { answers := [], environment := [] }, sources := [.ofBytes []], nameSets := [[]] }

/-- **Setup of a query whose function is replaced runs nothing**, though the book is checked and
nothing is wrong with the database. -/
theorem Program.setup_of_replaced_runs_nothing :
    Book.replaced.check = .ok () ∧
    ∃ (m : Module) (memory' : Memory),
      (Module.build {} .standard Book.replaced).outcome = .ok m ∧
      (ofModule m).invoke (ofModule m).depth "testsetup_prepared_x"
        [.source 0, .names 0, .connection .network 2] .unmarked =
          .error (.language "TypeError"
            "execute_prepared_x() missing 1 required positional argument: 'stmt'") memory' ∧
      memory'.world.events = [] ∧ memory'.nameSets = [["prepared_x"]] := by
  have hb : Book.replaced.check = .ok () := rfl
  obtain ⟨m, hm⟩ := Module.exists_build_of_check hb {} rfl
  have hdefinitions := (of_build hb hm).definitions
  refine ⟨hb, m, { Memory.unmarked with nameSets := [["prepared_x"]] }, hm, ?_, rfl, rfl⟩
  generalize ofModule m = p at hdefinitions
  obtain ⟨ds, es⟩ := p
  subst hdefinitions
  rfl

end QueryBook
