import QueryBook.Proofs.Code.Built

/-!
# What a module defines

The definitions of a module come from three places: the section of each query, the setup routines,
and the entry points. `Content` keeps them apart, and `build_content` says that the text of a module
is its head and its content, written down in order. What a query contributes depends on its
backend, on whether it has outputs and on whether it is tested, and on nothing else: `Book.defined`
lists the roles and query names that get a definition.
-/

namespace QueryBook

/-! ## Roles -/

/-- The roles of the access functions that a backend generates, in order. -/
def Backend.accessRoles (outputs : Bool) : Backend → List Role
  | .embedded =>
    [.statementOps, .statement, .cachedStatement, .prepare, .prepareCached, .execute] ++
      if outputs then [.queryRow] else []
  | .network =>
    (if outputs then [.fromRow] else []) ++
      [.prepare, .prepareCached, .execute, .executePrepared] ++
      if outputs then
        [.queue, .queueOne, .queueOpt, .queuePrepared, .queueOnePrepared, .queueOptPrepared]
      else []

/-- The roles in which a backend defines something for a query, in order. -/
def Backend.roles (outputs : Bool) (g : Backend) : List Role :=
  .sql :: (if outputs then [.outputs] else []) ++ g.accessRoles outputs

namespace Query

/-- The roles in which a query has an access definition, in order. -/
def roles (q : Query) : List Role := q.backend.roles q.hasOutputs

/-- The setup routine of a query. -/
def routine (q : Query) : SetupRoutine :=
  { query := q.name, backend := q.backend, dependencies := q.dependencyNames
    values := match q.drawnArguments "u" with
      | .ok values => values
      | .error _ => [] }

/-- The entry point of a query. -/
def entryPoint (q : Query) : EntryPoint := { query := q.name, backend := q.backend }

end Query

namespace Book

/-- The roles and queries that the scaffolding has a definition for. -/
def scaffolded (config : Config) (b : Book) : List (Role × String) :=
  if config.emitTests then
    (b.setupTargets.map fun q => (.testSetup, q.name)) ++ b.tested.map fun q => (.test, q.name)
  else []

/-- The roles and queries that the module of a book has a definition for. -/
def defined (config : Config) (b : Book) : List (Role × String) :=
  (b.queries.flatMap fun q => q.roles.map fun r => (r, q.name)) ++ b.scaffolded config

end Book

/-! ## The definitions of a section -/

theorem Backend.accessDefinitions_names {g : Backend} {q : Query} {ds : List Definition}
    (h : g.accessDefinitions q = .ok ds) :
    ds.map Definition.name = (g.accessRoles q.hasOutputs).map fun r => r.ident q.name := by
  cases g with
  | embedded =>
    obtain ⟨parameters, -, h⟩ := bind_eq_ok_iff.mp h
    obtain ⟨mapper, -, h⟩ := bind_eq_ok_iff.mp h
    obtain ⟨row, -, h⟩ := bind_eq_ok_iff.mp h
    cases h
    cases q.hasOutputs <;> rfl
  | network =>
    obtain ⟨parameters, -, h⟩ := bind_eq_ok_iff.mp h
    obtain ⟨row, -, h⟩ := bind_eq_ok_iff.mp h
    cases h
    cases q.hasOutputs <;> rfl

/-- A section defines the query in its roles, in order. -/
theorem Backend.definitions_names {config : Config} {g : Backend} {q : Query}
    {ds : List Definition} (h : (g.definitions config q).outcome = .ok ds) :
    ds.map Definition.name = (g.roles q.hasOutputs).map fun r => r.ident q.name := by
  simp only [Backend.definitions, Journaled.outcome_bind, Journaled.outcome_log,
    Journaled.outcome_lift, Journaled.outcome_pure] at h
  obtain ⟨-, -, h⟩ := bind_eq_ok_iff.mp h
  obtain ⟨text, -, h⟩ := bind_eq_ok_iff.mp h
  obtain ⟨outputs, -, h⟩ := bind_eq_ok_iff.mp h
  obtain ⟨access, haccess, h⟩ := bind_eq_ok_iff.mp h
  cases h
  rw [Backend.roles, List.map_append, List.map_append, accessDefinitions_names haccess]
  cases q.hasOutputs <;> rfl

theorem Module.sections_names {config : Config} {generators : List (Backend × Backend)}
    {qs : List Query} {ss : List (String × List Definition)}
    (hgenerators : ∀ q ∈ qs, generators.lookup q.backend = some q.backend)
    (h : (sections config generators qs).outcome = .ok ss) :
    (ss.flatMap fun s => s.2.map Definition.name) =
      qs.flatMap fun q => q.roles.map fun r => r.ident q.name := by
  induction qs generalizing ss with
  | nil =>
    cases h
    rfl
  | cons q qs ih =>
    rw [sections_cons (hgenerators q List.mem_cons_self)] at h
    obtain ⟨ds, hds, h⟩ := bind_eq_ok_iff.mp h
    obtain ⟨others, hothers, h⟩ := bind_eq_ok_iff.mp h
    cases h
    rw [List.flatMap_cons, List.flatMap_cons, Backend.definitions_names hds,
      ih (fun r hr => hgenerators r (List.mem_cons_of_mem _ hr)) hothers]
    rfl

/-! ## The scaffolding of a checked book -/

namespace Setup

/-- Functions one after the other. -/
def written (fs : List Function) : Written where
  items := fs.flatMap fun f => (Definition.functionDef f).items
  definitions := fs.map Definition.functionDef
  error := none

theorem writeAll_eq {α : Type} {write : α → Written} {f : α → Function} {as : List α}
    (h : ∀ a ∈ as, write a = .ofFunction (f a)) : writeAll write as = written (as.map f) := by
  induction as with
  | nil => rfl
  | cons a as ih =>
    rw [writeAll, h a List.mem_cons_self, ih fun r hr => h r (List.mem_cons_of_mem _ hr)]
    rfl

theorem writeRoutine_eq {generators : Generators} {b : Book} {q : Query}
    (hg : generators q.backend = some q.backend) (hq : b.Sound q) :
    writeRoutine generators b q = .ofFunction q.routine.function := by
  have hd : ∀ d ∈ q.dependencyNames, (b.find? d).isSome = true := by
    intro d hd
    obtain ⟨target, ht, _⟩ := hq.dependencies d hd
    simp [ht]
  obtain ⟨values, hvalues⟩ := Query.Typed.drawnArguments_ok hq.supported "u"
  simp only [writeRoutine, hg, hvalues, knownDependencies_of_found hd, Query.routine]

/-- What is written for a checked book: its routines, its entry points and their registry. -/
theorem write_eq {generators : Generators} {b : Book}
    (hg : ∀ q ∈ b.queries, generators q.backend = some q.backend)
    (hb : ∀ q ∈ b.queries, b.Sound q) :
    write generators b = (Written.just [.banner "test setup"]).andThen
      ((written (b.setupTargets.map fun q => q.routine.function)).andThen
        ((Written.just [.banner "test entry points"]).andThen
          ((written (b.tested.map fun q => q.entryPoint.function)).andThen
            (.just (registryItems (b.tested.map fun q => q.entryPoint.name)))))) := by
  have hroutines : writeAll (writeRoutine generators b) b.setupTargets =
      written (b.setupTargets.map fun q => q.routine.function) := writeAll_eq fun q hq =>
    writeRoutine_eq (hg q (mem_setupTargets hq)) (hb q (mem_setupTargets hq))
  have hentries : writeAll (writeEntryPoint generators) b.tested =
      written (b.tested.map fun q => q.entryPoint.function) := writeAll_eq fun q hq => by
    rw [writeEntryPoint, hg q (List.mem_filter.mp hq).1]
    rfl
  rw [write, hroutines, hentries]
  rfl

end Setup

/-! ## Modules -/

namespace Module

/-- The definitions of a module. -/
structure Content where
  /-- The definitions for each query. -/
  sections : List (String × List Definition)
  routines : List SetupRoutine
  entryPoints : List EntryPoint

namespace Content

/-- The names that are defined, in order. -/
def names (c : Content) : List String :=
  c.sections.flatMap (fun s => s.2.map Definition.name) ++ c.routines.map SetupRoutine.name ++
    c.entryPoints.map EntryPoint.name

/-- The definitions, in order. -/
def definitions (c : Content) : List Definition :=
  c.sections.flatMap Prod.snd ++ c.routines.map (fun r => .functionDef r.function) ++
    c.entryPoints.map fun e => .functionDef e.function

/-- What writes the scaffolding. Without a routine there is none. -/
def scaffolding (c : Content) : List Item :=
  if c.routines.isEmpty then []
  else
    .banner "test setup" ::
      c.routines.flatMap (fun r => (Definition.functionDef r.function).items) ++
      .banner "test entry points" ::
      c.entryPoints.flatMap (fun e => (Definition.functionDef e.function).items) ++
      Setup.registryItems (c.entryPoints.map EntryPoint.name)

/-- The text of the module of a book with this content. -/
def source (config : Config) (b : Book) (c : Content) : String :=
  let header := headerItems config b.sourceName b.backends (!c.routines.isEmpty)
  let sections := c.sections.flatMap fun s => sectionItems s.1 s.2
  (Writer.empty.writeAll (header ++ sections ++ c.scaffolding)).render

/-- The content of the module of a book. -/
structure Of (config : Config) (b : Book) (c : Content) : Prop where
  sections : (Module.sections config (b.backends.map fun k => (k, k)) b.queries).outcome =
    .ok c.sections
  routines : c.routines = if config.emitTests then b.setupTargets.map Query.routine else []
  entryPoints : c.entryPoints = if config.emitTests then b.tested.map Query.entryPoint else []

end Content

variable {config : Config} {b : Book}

theorem lookup_of_mem : ∀ q ∈ b.queries,
    (b.backends.map fun k => (k, k)).lookup q.backend = some q.backend :=
  fun _ hq => lookup_standard (Book.backend_mem hq)

/-- Scaffolding is written if tests are asked for and there is a routine. -/
theorem Content.Of.withTests_eq {c : Content} (hc : c.Of config b) :
    withTests config b = !c.routines.isEmpty := by
  rw [hc.routines, withTests]
  cases config.emitTests <;> simp

/-- Without a routine there is no entry point either. -/
theorem Content.Of.entryPoints_eq_nil {c : Content} (hc : c.Of config b)
    (h : c.routines = []) : c.entryPoints = [] := by
  rw [hc.routines] at h
  rw [hc.entryPoints]
  split
  · rename_i htests
    rw [if_pos htests] at h
    rw [Setup.tested_eq_nil (List.map_eq_nil_iff.mp h)]
    rfl
  · rfl

/-- What is written behind the sections is the scaffolding, and it defines the routines and the
entry points. -/
theorem Content.Of.written_eq {c : Content} (hc : c.Of config b)
    (hb : ∀ q ∈ b.queries, b.Sound q) :
    (Module.scaffolding config (b.backends.map fun k => (k, k)) b).items = c.scaffolding ∧
    (Module.scaffolding config (b.backends.map fun k => (k, k)) b).definitions =
      c.routines.map (fun r => .functionDef r.function) ++
        c.entryPoints.map fun e => .functionDef e.function := by
  rw [Module.scaffolding, hc.withTests_eq, Content.scaffolding]
  cases hroutines : c.routines.isEmpty with
  | true =>
    have hnil := List.isEmpty_iff.mp hroutines
    rw [hnil, hc.entryPoints_eq_nil hnil]
    exact ⟨rfl, rfl⟩
  | false =>
    -- there are routines, so that tests are asked for
    have htests : config.emitTests = true := by
      have hboth := hc.withTests_eq
      rw [hroutines] at hboth
      exact (Bool.and_eq_true_iff.mp hboth).1
    rw [hc.routines, hc.entryPoints, htests, Bool.not_false, if_pos rfl,
      Setup.write_eq lookup_of_mem hb]
    constructor
    · simp [Written.andThen, Written.just, Setup.written, List.flatMap_map, List.map_map,
        Function.comp_def]
    · simp [Written.andThen, Written.just, Setup.written, List.map_map, Function.comp_def]

/-- **The text of a module is its content**, and so is what the module defines. -/
theorem build_content {m : Module} (hb : b.check = .ok ())
    (hm : (build config .standard b).outcome = .ok m) :
    ∃ c : Content, c.Of config b ∧ m.source = c.source config b ∧
      m.definitions = c.definitions := by
  obtain ⟨_, ss, entryPoints, hgenerators, hss, -, rfl⟩ := build_eq_ok_iff.mp hm
  cases (generatorsFor_standard b.backends).symm.trans hgenerators
  obtain ⟨c, hc, rfl⟩ : ∃ c : Content, c.Of config b ∧ c.sections = ss :=
    ⟨⟨ss, _, _⟩, ⟨hss, rfl, rfl⟩, rfl⟩
  obtain ⟨hitems, hdefinitions⟩ := hc.written_eq (Book.check_eq_ok_iff.mp hb).2
  have hbackends : (b.backends.map fun k => (k, k)).map Prod.snd = b.backends := by
    rw [List.map_map]
    exact List.map_id _
  refine ⟨c, hc, ?_, ?_⟩
  · rw [assemble, Content.source, hitems, hbackends, hc.withTests_eq]
  · rw [Content.definitions, List.append_assoc, ← hdefinitions]
    rfl

/-- A module defines a name for each role and query, in order. -/
theorem Content.Of.names_eq {c : Content} (hc : c.Of config b) :
    c.names = (b.defined config).map fun d => d.1.ident d.2 := by
  rw [Content.names, sections_names lookup_of_mem hc.sections, hc.routines, hc.entryPoints,
    Book.defined, Book.scaffolded, List.map_append, List.map_flatMap, List.append_assoc]
  congr 1
  · simp only [List.map_map]
    rfl
  · cases config.emitTests with
    | true =>
      rw [if_pos rfl, if_pos rfl, if_pos rfl, List.map_append]
      simp only [List.map_map]
      rfl
    | false => rfl

end Module

end QueryBook
