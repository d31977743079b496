import QueryBook.Code.Module
import QueryBook.Proofs.Query.Meanings

/-!
# A checked book has a module

Generating code asks many things again that the check has settled: that a type name is known, at
every depth and for hints and column types alike, that a backend has a generator, that a
dependency is there. None of them can fail on a checked book. What is left is the one thing that
the check does not look at, a marker in a statement that is no parameter, and only the strict mode
refuses it.
-/

namespace QueryBook

/-! ## Outcomes of journaled work -/

namespace Journaled

variable {ε α β : Type}

@[simp] theorem outcome_bind (x : Journaled ε α) (f : α → Journaled ε β) :
    (x >>= f).outcome = x.outcome >>= fun a => (f a).outcome := by
  show (Journaled.bind x f).outcome = _
  unfold Journaled.bind
  cases x.outcome with
  | ok a => rfl
  | error e => rfl

@[simp] theorem outcome_pure (a : α) : (Pure.pure a : Journaled ε α).outcome = .ok a := rfl

@[simp] theorem outcome_lift (x : Except ε α) : (Journaled.lift x).outcome = x := rfl

@[simp] theorem outcome_log (level : Level) (logger message : String) :
    (Journaled.log level logger message : Journaled ε Unit).outcome = .ok () := rfl

end Journaled

/-! ## The definitions of a query -/

namespace Query

/-- All types of a query are supported throughout. -/
def Typed (q : Query) : Prop := ∀ t ∈ Book.types q, t.Supported

variable {q : Query}

theorem Typed.parameter (h : q.Typed) {p : Parameter} (hp : p ∈ q.parameters) :
    p.type.Supported := h _ (List.mem_append_left _ (List.mem_map_of_mem hp))

theorem Typed.output (h : q.Typed) {t : TypeExpr} (ht : t ∈ q.outputs) : t.Supported :=
  h _ (List.mem_append_right _ ht)

theorem argumentsOf_ok {ps : List Parameter} (h : ∀ p ∈ ps, p.type.Supported) :
    ∃ as, argumentsOf ps = .ok as := by
  refine traversal_ok (F := argumentsOf) (f := fun p => (p.type.hint false).map fun hint =>
    { name := p.name, hint := some hint }) rfl ?_ fun p hp => ?_
  · intro p ps a as ha has
    obtain ⟨hint, hhint, rfl⟩ := map_eq_ok_iff.mp ha
    rw [argumentsOf, hhint, has]
    rfl
  · obtain ⟨hint, hhint⟩ := (h p hp).hint_ok false
    exact ⟨_, by rw [hhint]; rfl⟩

theorem Typed.arguments_ok (h : q.Typed) : ∃ as, q.arguments = .ok as := by
  obtain ⟨as, has⟩ := argumentsOf_ok fun p hp => h.parameter hp
  exact ⟨as, by rw [arguments, has]; rfl⟩

theorem Typed.outputHints_ok (h : q.Typed) : ∃ hs, q.outputHints = .ok hs := by
  obtain ⟨hs, hhs⟩ := TypeExpr.hints_ok fun t ht => (h.output ht).hint_ok true
  exact ⟨hs, by rw [outputHints, hhs]; rfl⟩

theorem Typed.outputTuple_ok (h : q.Typed) : ∃ x, q.outputTuple = .ok x := by
  obtain ⟨xs, hxs⟩ := TypeExpr.columns_ok fun t ht => (h.output ht).column_ok typeLibrary
  exact ⟨.tuple xs, by rw [outputTuple, hxs]; rfl⟩

theorem Typed.drawnArguments_ok (h : q.Typed) (source : String) :
    ∃ x, q.drawnArguments source = .ok x := by
  have hcolumns : ∀ t ∈ q.parameters.map Parameter.type, ∃ x, t.column typeLibrary = .ok x := by
    intro t ht
    obtain ⟨p, hp, rfl⟩ := List.mem_map.mp ht
    exact (h.parameter hp).column_ok typeLibrary
  obtain ⟨xs, hxs⟩ := TypeExpr.columns_ok hcolumns
  exact ⟨_, by rw [drawnArguments, hxs]; rfl⟩

theorem Typed.accessDefinitions_ok (h : q.Typed) (g : Backend) :
    ∃ ds, g.accessDefinitions q = .ok ds := by
  obtain ⟨as, has⟩ := h.arguments_ok
  obtain ⟨hs, hhs⟩ := h.outputHints_ok
  cases g with
  | embedded =>
    rw [Backend.accessDefinitions, Embedded.definitions, has, mapperHint, rowHint, hhs]
    exact ⟨_, rfl⟩
  | network =>
    rw [Backend.accessDefinitions, Network.definitions, has, rowHint, hhs]
    exact ⟨_, rfl⟩

/-- **The statement decides**: a query whose types are supported has its definitions as soon as it
has its statement text. -/
theorem Typed.definitions_outcome (h : q.Typed) (config : Config) (g : Backend) :
    ∃ f : String → List Definition,
      (g.definitions config q).outcome = (g.statementText config q).outcome.map f := by
  obtain ⟨x, hx⟩ := h.outputTuple_ok
  obtain ⟨ds, hds⟩ := h.accessDefinitions_ok g
  refine ⟨fun text => Definition.constant (Role.sql.ident q.name) (.literal text) ::
    (if q.hasOutputs then [Definition.constant (Role.outputs.ident q.name) x] else []) ++ ds, ?_⟩
  simp only [Backend.definitions, Journaled.outcome_bind, Journaled.outcome_log,
    Journaled.outcome_lift, Journaled.outcome_pure, hx, hds]
  cases (g.statementText config q).outcome with
  | ok text => rfl
  | error e => rfl

/-- The strict mode refuses a marker of the statement, and `e` says which. -/
def Misspelt (config : Config) (q : Query) (e : CodeError) : Prop :=
  config.strictPlaceholders = true ∧ q.backend = .network ∧ q.named = true ∧
    ∃ name, Placeholder.firstUnmatched? (q.parameterNames.map String.toList) q.statement.toList =
        some name ∧
      e = .refused { fault := .unmatchedPlaceholder (.ofList name) q.parameterNames
                     query := some q.name, line := none }

theorem statementText_error {config : Config} {e : CodeError}
    (h : (q.backend.statementText config q).outcome = .error e) : q.Misspelt config e := by
  unfold Backend.statementText at h
  split at h
  · rename_i hb hn
    simp only [Journaled.outcome_bind, Journaled.outcome_log, Journaled.outcome_lift,
      Journaled.outcome_pure, Placeholder.toPositions] at h
    split at h
    · rename_i name hstrict hname
      cases h
      exact ⟨hstrict, hb, hn, name, hname, rfl⟩
    · cases h
  · cases h

end Query

/-! ## The sections of a book -/

namespace Module

/-- A query that has a generator gets its section from it. -/
theorem sections_cons {config : Config} {generators : List (Backend × Backend)} {q : Query}
    {g : Backend} {qs : List Query} (hg : generators.lookup q.backend = some g) :
    (sections config generators (q :: qs)).outcome =
      (g.definitions config q).outcome >>= fun ds =>
        (sections config generators qs).outcome >>= fun others => .ok ((q.name, ds) :: others) := by
  simp only [sections, hg, Option.elim_some, Journaled.outcome_bind, Journaled.outcome_lift,
    Journaled.outcome_pure]
  rfl

/-- The sections are there if all statement texts are; else one of these is what is wrong. -/
theorem sections_outcome (config : Config) {generators : List (Backend × Backend)}
    {qs : List Query} (htyped : ∀ q ∈ qs, q.Typed)
    (hgenerators : ∀ q ∈ qs, generators.lookup q.backend = some q.backend) :
    (∃ ss, (sections config generators qs).outcome = .ok ss ∧
      ∀ q ∈ qs, ∃ text, (q.backend.statementText config q).outcome = .ok text) ∨
    ∃ q ∈ qs, ∃ e, (sections config generators qs).outcome = .error e ∧
      (q.backend.statementText config q).outcome = .error e := by
  induction qs with
  | nil => exact .inl ⟨[], rfl, nofun⟩
  | cons q qs ih =>
    obtain ⟨f, hf⟩ := (htyped q List.mem_cons_self).definitions_outcome config q.backend
    have hsections : (sections config generators (q :: qs)).outcome =
        (q.backend.statementText config q).outcome.map f >>= fun ds =>
          (sections config generators qs).outcome >>= fun others =>
            .ok ((q.name, ds) :: others) := by
      rw [sections_cons (hgenerators q List.mem_cons_self), hf]
    rw [hsections]
    cases htext : (q.backend.statementText config q).outcome with
    | error e =>
      -- the first statement text that is missing stops the others
      exact .inr ⟨q, List.mem_cons_self, e, rfl, htext⟩
    | ok text =>
      obtain ⟨ss, hss, hall⟩ | ⟨r, hr, e, hss, he⟩ :=
        ih (fun r hr => htyped r (List.mem_cons_of_mem _ hr))
          (fun r hr => hgenerators r (List.mem_cons_of_mem _ hr))
      · refine .inl ⟨_, by rw [hss]; rfl, fun r hr => ?_⟩
        rcases List.mem_cons.mp hr with rfl | hr
        · exact ⟨text, htext⟩
        · exact hall r hr
      · exact .inr ⟨r, List.mem_cons_of_mem _ hr, e, by rw [hss]; rfl, he⟩

/-! ## Generators -/

theorem generatorsFor_standard (ks : List Backend) :
    generatorsFor .standard ks = .ok (ks.map fun k => (k, k)) := by
  induction ks with
  | nil => rfl
  | cons k ks ih =>
    have hk : Registry.standard.find? k = some k := by cases k <;> rfl
    rw [generatorsFor, hk, ih]
    rfl

theorem lookup_standard {ks : List Backend} {k : Backend} (h : k ∈ ks) :
    (ks.map fun k => (k, k)).lookup k = some k := by
  induction ks with
  | nil => cases h
  | cons j ks ih =>
    rw [List.map_cons, List.lookup_cons]
    split
    · rename_i hj
      rw [eq_of_beq hj]
    · rename_i hj
      refine ih ((List.mem_cons.mp h).resolve_left ?_)
      rintro rfl
      simp at hj

end Module

theorem Book.backend_mem {b : Book} {q : Query} (h : q ∈ b.queries) : q.backend ∈ b.backends := by
  refine List.mem_filter.mpr ⟨by cases q.backend <;> decide, ?_⟩
  have hq : q ∈ b.forBackend q.backend := List.mem_filter.mpr ⟨h, by simp⟩
  simp [List.ne_nil_of_mem hq]

/-! ## Test setup -/

namespace Setup

theorem knownDependencies_of_found {b : Book} {names : List String}
    (h : ∀ d ∈ names, (b.find? d).isSome = true) : knownDependencies b names = (names, none) := by
  induction names with
  | nil => rfl
  | cons name names ih =>
    rw [knownDependencies, if_pos (h name List.mem_cons_self),
      ih fun d hd => h d (List.mem_cons_of_mem _ hd)]

theorem andThen_error {first second : Written} (h₁ : first.error = none)
    (h₂ : second.error = none) : (first.andThen second).error = none := by
  rw [Written.andThen, h₁]
  exact h₂

theorem writeAll_error {α : Type} {write : α → Written} {as : List α}
    (h : ∀ a ∈ as, (write a).error = none) : (writeAll write as).error = none := by
  induction as with
  | nil => rfl
  | cons a as ih =>
    exact andThen_error (h a List.mem_cons_self) (ih fun r hr => h r (List.mem_cons_of_mem _ hr))

theorem writeRoutine_error {generators : Generators} {b : Book} {q : Query}
    (hg : generators q.backend = some q.backend) (hq : q.Typed)
    (hd : ∀ d ∈ q.dependencyNames, (b.find? d).isSome = true) :
    (writeRoutine generators b q).error = none := by
  obtain ⟨values, hvalues⟩ := hq.drawnArguments_ok "u"
  rw [writeRoutine, hg]
  simp only [hvalues, knownDependencies_of_found hd]
  rfl

theorem mem_setupTargets {b : Book} {q : Query} (h : q ∈ b.setupTargets) : q ∈ b.queries :=
  (List.mem_filter.mp h).1

theorem tested_eq_nil {b : Book} (h : b.setupTargets = []) : b.tested = [] := by
  refine List.filter_eq_nil_iff.mpr fun q hq ht => ?_
  have : q ∈ b.setupTargets := List.mem_filter.mpr ⟨hq, by simp [ht]⟩
  simp [h] at this

/-- Nothing stops the writing of the scaffolding of a checked book. -/
theorem outcome_of_sound {generators : Generators} {b : Book}
    (hg : ∀ q ∈ b.queries, generators q.backend = some q.backend)
    (hb : ∀ q ∈ b.queries, b.Sound q) :
    (outcome generators b).outcome = .ok (entryPointNames b) := by
  have hroutines : (writeAll (writeRoutine generators b) b.setupTargets).error = none := by
    refine writeAll_error fun q hq => ?_
    have hsound := hb q (mem_setupTargets hq)
    refine writeRoutine_error (hg q (mem_setupTargets hq)) hsound.supported fun d hd => ?_
    obtain ⟨target, ht, _⟩ := hsound.dependencies d hd
    simp [ht]
  have hentries : (writeAll (writeEntryPoint generators) b.tested).error = none := by
    refine writeAll_error fun q hq => ?_
    rw [writeEntryPoint, hg q (List.mem_filter.mp hq).1]
    rfl
  have hwrite : (write generators b).error = none :=
    andThen_error rfl (andThen_error hroutines (andThen_error rfl (andThen_error hentries rfl)))
  rw [outcome, hwrite]
  rfl

end Setup

/-! ## The module of a checked book -/

namespace Module

/-- A module is assembled from its sections and its entry points. -/
theorem build_eq_ok_iff {config : Config} {registry : Registry} {b : Book} {m : Module} :
    (build config registry b).outcome = .ok m ↔
      ∃ generators ss entryPoints, generatorsFor registry b.backends = .ok generators ∧
        (sections config generators b.queries).outcome = .ok ss ∧
        (entryPointsOf config generators b).outcome = .ok entryPoints ∧
        assemble config generators b ss entryPoints = m := by
  simp only [build, Journaled.outcome_bind, Journaled.outcome_lift, Journaled.outcome_log,
    Journaled.outcome_pure, bind_eq_ok_iff, Except.ok.injEq]
  simp

/-- The entry points of a checked book; without a setup routine it has none. -/
theorem entryPointsOf_of_check {b : Book} (hb : b.check = .ok ()) (config : Config) :
    (entryPointsOf config (b.backends.map fun k => (k, k)) b).outcome =
      .ok (if config.emitTests then Setup.entryPointNames b else []) := by
  unfold entryPointsOf withTests
  cases config.emitTests with
  | false => rfl
  | true =>
    cases htargets : b.setupTargets with
    | nil =>
      rw [Setup.entryPointNames, Setup.tested_eq_nil htargets]
      rfl
    | cons q qs =>
      exact Setup.outcome_of_sound (fun q hq => lookup_standard (Book.backend_mem hq))
        (Book.check_eq_ok_iff.mp hb).2

/-- **A checked book has a module unless a statement is refused**, and the module has the queries
and the entry points of the book. -/
theorem build_of_check {b : Book} (hb : b.check = .ok ()) (config : Config) :
    (∃ m, (build config .standard b).outcome = .ok m ∧ m.queries = b.names ∧
      m.entryPoints = (if config.emitTests then Setup.entryPointNames b else []) ∧
      ∀ q ∈ b.queries, ∃ text, (q.backend.statementText config q).outcome = .ok text) ∨
    ∃ q ∈ b.queries, ∃ e, (build config .standard b).outcome = .error e ∧ q.Misspelt config e := by
  obtain ⟨_, hsound⟩ := Book.check_eq_ok_iff.mp hb
  obtain ⟨ss, hss, htexts⟩ | ⟨q, hq, e, hss, he⟩ :=
    sections_outcome config (fun q hq => (hsound q hq).supported)
      fun q hq => lookup_standard (Book.backend_mem hq)
  · exact .inl ⟨_, build_eq_ok_iff.mpr ⟨_, ss, _, generatorsFor_standard _, hss,
      entryPointsOf_of_check hb config, rfl⟩, rfl, rfl, htexts⟩
  · refine .inr ⟨q, hq, e, ?_, Query.statementText_error he⟩
    simp only [build, Journaled.outcome_bind, Journaled.outcome_lift, generatorsFor_standard]
    show (sections config (b.backends.map fun k => (k, k)) b.queries).outcome >>= _ = _
    rw [hss]
    rfl

/-- Without the strict rule on placeholders, every checked book has a module. -/
theorem exists_build_of_check {b : Book} (hb : b.check = .ok ()) (config : Config)
    (hlenient : config.strictPlaceholders = false) :
    ∃ m, (build config .standard b).outcome = .ok m := by
  obtain ⟨m, hm, -⟩ | ⟨-, -, -, -, hstrict, -⟩ := build_of_check hb config
  · exact ⟨m, hm⟩
  · cases hlenient.symm.trans hstrict

end Module

/-! ## The module of a text -/

/-- Whether a declaration asks for a test. -/
def Declaration.isFlagged (d : Declaration) : Bool := d.attributes.any fun a => a.name == "test"

/-- A query has the name of its declaration, and is tested if the declaration asks for it. -/
theorem Query.ofDeclaration_ok {d : Declaration} {q : Query} (h : ofDeclaration d = .ok q) :
    q.name = d.name ∧ q.isTested = d.isFlagged := by
  obtain ⟨m, hattributes, rfl⟩ := map_eq_ok_iff.mp h
  obtain ⟨-, -, -, -, hdependencies⟩ := Meaning.ofAttributes_eq_ok_iff.mp hattributes
  refine ⟨rfl, ?_⟩
  show m.dependencies.isSome = d.isFlagged
  rw [hdependencies, Declaration.isFlagged, Bool.eq_iff_iff, List.any_eq_true]
  simp only [beq_iff_eq]
  split
  · simpa
  · rename_i hnone
    simpa using hnone

namespace Book

theorem queriesOf_ok {ds : List Declaration} {qs : List Query} (h : queriesOf ds = .ok qs) :
    qs.map Query.name = ds.map Declaration.name ∧
      (qs.filter Query.isTested).map Query.name =
        (ds.filter Declaration.isFlagged).map Declaration.name := by
  induction ds generalizing qs with
  | nil =>
    cases h
    exact ⟨rfl, rfl⟩
  | cons d ds ih =>
    rw [queriesOf] at h
    obtain ⟨q, hq, hrest⟩ := bind_eq_ok_iff.mp h
    obtain ⟨rest, hqs, heq⟩ := bind_eq_ok_iff.mp hrest
    cases heq
    obtain ⟨hname, htested⟩ := Query.ofDeclaration_ok hq
    obtain ⟨hnames, hflagged⟩ := ih hqs
    refine ⟨by rw [List.map_cons, List.map_cons, hname, hnames], ?_⟩
    rw [List.filter_cons, List.filter_cons, htested]
    split
    · rw [List.map_cons, List.map_cons, hname, hflagged]
    · exact hflagged

/-- A text gives a book if it has declarations, these declare queries, and the queries pass the
check. -/
theorem read_eq_ok_iff {text sourceName : String} {b : Book} :
    read text sourceName = .ok b ↔ ∃ ds, Declaration.readAll text = .ok ds ∧
      queriesOf ds = .ok b.queries ∧ b.check = .ok () ∧ b.sourceName = sourceName := by
  constructor
  · intro h
    obtain ⟨book, hparse, hrest⟩ := bind_eq_ok_iff.mp h
    obtain ⟨_, hcheck, heq⟩ := bind_eq_ok_iff.mp hrest
    cases heq
    obtain ⟨ds, hds, hqueries⟩ := bind_eq_ok_iff.mp hparse
    obtain ⟨qs, hqs, heq⟩ := bind_eq_ok_iff.mp hqueries
    cases heq
    exact ⟨ds, mapError_eq_ok_iff.mp hds, mapError_eq_ok_iff.mp hqs, mapError_eq_ok_iff.mp hcheck,
      rfl⟩
  · rintro ⟨ds, hds, hqs, hcheck, rfl⟩
    refine bind_eq_ok_iff.mpr ⟨b, ?_, bind_eq_ok_iff.mpr ⟨(), mapError_eq_ok_iff.mpr hcheck, rfl⟩⟩
    exact bind_eq_ok_iff.mpr ⟨ds, mapError_eq_ok_iff.mpr hds,
      bind_eq_ok_iff.mpr ⟨b.queries, mapError_eq_ok_iff.mpr hqs, rfl⟩⟩

end Book

/-- **A text that is read has a module.** Only the strict mode may refuse it, for a marker that is
no parameter. The module has the declared queries in order, and an entry point for each
declaration that asks for a test, if tests are generated at all. -/
theorem Module.build_of_read {text sourceName : String} {b : Book}
    (h : Book.read text sourceName = .ok b) (config : Config) :
    ∃ ds, Declaration.readAll text = .ok ds ∧
      ((∃ m, (build config .standard b).outcome = .ok m ∧
        m.queries = ds.map Declaration.name ∧
        m.entryPoints =
          if config.emitTests then
            (ds.filter Declaration.isFlagged).map fun d => "auto_" ++ d.name
          else []) ∨
      ∃ q ∈ b.queries, ∃ e, (build config .standard b).outcome = .error e ∧
        q.Misspelt config e) := by
  obtain ⟨ds, hds, hqs, hcheck, _⟩ := Book.read_eq_ok_iff.mp h
  obtain ⟨hnames, hflagged⟩ := Book.queriesOf_ok hqs
  refine ⟨ds, hds, ?_⟩
  obtain ⟨m, hm, hqueries, hentries, _⟩ | hrefused := build_of_check hcheck config
  · refine .inl ⟨m, hm, hqueries.trans hnames, ?_⟩
    have hentry : Setup.entryPointNames b =
        (ds.filter Declaration.isFlagged).map fun d => "auto_" ++ d.name := by
      calc Setup.entryPointNames b
          = ((b.queries.filter Query.isTested).map Query.name).map ("auto_" ++ ·) := by
            rw [List.map_map]
            rfl
        _ = ((ds.filter Declaration.isFlagged).map Declaration.name).map ("auto_" ++ ·) := by
            rw [hflagged]
        _ = (ds.filter Declaration.isFlagged).map fun d => "auto_" ++ d.name := by
            rw [List.map_map]
            rfl
    rw [hentries, hentry]
  · exact .inr hrefused

/-- The text of a query and of a tested one that depends on it. -/
def Module.testedText : String :=
  "#[postgres] a()\x7b\"x\"\x7d #[postgres,named,test(with=[a])] b(p:Optional[int])\x7b\":p\"\x7d"

theorem Module.build_of_read_tested :
    ∃ b, Book.read testedText "book" = .ok b ∧
      ∃ m, (build {} .standard b).outcome = .ok m ∧ m.queries = ["a", "b"] ∧
        m.entryPoints = ["auto_b"] := by
  obtain ⟨ds, hds, hnames, hflagged⟩ : ∃ ds, Declaration.readAll testedText = .ok ds ∧
      ds.map Declaration.name = ["a", "b"] ∧
      ((ds.filter Declaration.isFlagged).map fun d => "auto_" ++ d.name) = ["auto_b"] :=
    exists_ok_of_any (by decide +kernel)
  obtain ⟨b, hread, _⟩ : ∃ b, Book.read testedText "book" = .ok b ∧ b.sourceName = "book" :=
    exists_ok_of_any (by decide +kernel)
  obtain ⟨ds', hds', ⟨m, hm, hqueries, hentries⟩ | ⟨q, _, e, _, hstrict, _⟩⟩ :=
    build_of_read hread {}
  · cases hds.symm.trans hds'
    exact ⟨b, hread, m, hm, hqueries.trans hnames, hentries.trans hflagged⟩
  · cases hstrict

end QueryBook
