import QueryBook.Proofs.Code.Distinct

/-!
# What names mean inside a function

The body of a generated function refers to definitions and imports of the module by name. A name
that is also an argument of the function means the argument instead, so the parameters of the
query, which its author names, must keep clear of two kinds of names: those of the other arguments
and those of the module that the body refers to. A function is hygienic if they do.

The check of a book refuses the other arguments and every name that starts as the runtime libraries
do, with an underscore. It does not know the names that are made from the query's own name. The
statement text, the output types and the row decoder of a query are referred to beside its
parameters, and `hygienic_iff` says that a parameter called like one of them is the only way to
lose hygiene. The scaffolding is left out: its routines take no parameters of a query.
-/

namespace QueryBook

/-! ## Scopes -/

/-- The functions and methods of a definition. -/
def Definition.functions : Definition → List Function
  | .constant _ _ => []
  | .functionDef f => [f]
  | .classDef c => c.methods

/-- The variable that a line sets. -/
def BodyLine.assigned? : BodyLine → Option String
  | .assign name _ | .whileOpen _ name _ => some name
  | _ => none

namespace Function

/-- The names of the arguments beside the parameters. -/
def others (f : Function) : List String := (f.leading ++ f.trailing).map Argument.name

/-- The names that a function binds itself: its other arguments and its variables. -/
def own (f : Function) : List String := f.others ++ f.body.filterMap BodyLine.assigned?

/-- What a name stands for inside a function. -/
inductive Meaning where
  /-- The value that the caller gives for a parameter of the query. -/
  | parameter
  /-- Another argument, or a variable. -/
  | own
  /-- What the module defines or imports under the name. -/
  | definition
deriving DecidableEq, Repr

/-- The meaning of a name: a name that the function does not bind is looked up in the module. -/
def meaning (f : Function) (name : String) : Meaning :=
  if name ∈ f.parameters.map Argument.name then .parameter
  else if name ∈ f.own then .own
  else .definition

/-- The parameters of the query are kept apart from all other names of the function. -/
structure Hygienic (f : Function) : Prop where
  /-- No two arguments share a name. -/
  distinct : (f.arguments.map Argument.name).Nodup
  /-- No parameter is called like something of the module that the body refers to. -/
  free : ∀ p ∈ f.parameters, p.name ∉ f.references
  /-- So what the body refers to is found in the module. -/
  found : ∀ name ∈ f.references, f.meaning name = .definition

theorem arguments_perm (f : Function) :
    (f.arguments.map Argument.name).Perm (f.parameters.map Argument.name ++ f.others) := by
  simp only [arguments, others, List.map_append, ← List.append_assoc]
  exact List.perm_append_comm.append_right _

end Function

/-! ## The functions for a query -/

/-- The runtime libraries, under the names that generated code imports them by. -/
def runtimeNames : List String := ["_t", "_res", "_sqlite"]

/-- The roles whose definitions the functions for a query refer to. -/
def Role.referred : List Role := [sql, outputs, fromRow, statement, cachedStatement]

theorem isReserved_of_runtime : ∀ name ∈ runtimeNames, isReserved name = true := by decide

/-- A definition is never called like an argument or variable that functions bind themselves. -/
theorem Role.ident_notMem_own {r : Role} (hr : r ∈ referred) (name : String) :
    r.ident name ∉ "row" :: reservedNames := by
  have hleads : ∀ r ∈ referred, ∀ x ∈ "row" :: reservedNames, ¬ r.lead.toList <+: x.toList := by
    decide +kernel
  refine fun h => hleads r hr _ h ?_
  rw [ident, String.toList_append]
  exact List.prefix_append _ _

namespace Query

/-- The definitions for a query that are referred to where its parameters can be seen. -/
def referred (q : Query) : List Role :=
  .sql :: if q.hasOutputs then
    match q.backend with
    | .embedded => [.outputs]
    | .network => [.fromRow]
  else []

/-- A parameter has the name of one of these definitions. -/
def Captures (q : Query) : Prop := ∃ r ∈ q.referred, r.ident q.name ∈ q.parameterNames

instance (q : Query) : Decidable q.Captures := inferInstanceAs (Decidable (∃ r ∈ _, _))

/-- A name of a runtime library, or of a definition for the query in one of these roles. -/
def Refers (q : Query) (roles : List Role) (name : String) : Prop :=
  name ∈ runtimeNames ∨ ∃ r ∈ roles, name = r.ident q.name

/-- What is known of the functions for a query, whatever its parameters are called. -/
structure Emits (q : Query) (f : Function) : Prop where
  others_nodup : f.others.Nodup
  /-- The name `row` is not reserved: a parameter may have it. It is an argument only of the row
  decoder, which has no parameters, and a variable only after the parameters have been read. -/
  own : ∀ name ∈ f.own, name ∈ "row" :: reservedNames
  references : ∀ name ∈ f.references, q.Refers Role.referred name
  /-- A function that has the parameters has no other argument than the reserved ones, and refers
  to fewer definitions. -/
  parameters : f.parameters = [] ∨ f.parameters.map Argument.name = q.parameterNames ∧
    (∀ name ∈ f.others, name ∈ reservedNames) ∧ ∀ name ∈ f.references, q.Refers q.referred name

variable {b : Book} {q : Query} {f : Function}

theorem referred_subset : ∀ r ∈ q.referred, r ∈ Role.referred := by
  unfold referred
  cases q.backend <;> cases q.hasOutputs <;> decide

theorem outputs_mem_referred (hg : q.backend = .embedded) (h : q.hasOutputs = true) :
    Role.outputs ∈ q.referred := by
  rw [referred, hg, h]
  decide

theorem fromRow_mem_referred (hg : q.backend = .network) (h : q.hasOutputs = true) :
    Role.fromRow ∈ q.referred := by
  rw [referred, hg, h]
  decide

theorem refers_runtime {roles : List Role} {name : String} (h : name ∈ runtimeNames) :
    q.Refers roles name := .inl h

theorem refers_ident {roles : List Role} {r : Role} (h : r ∈ roles) :
    q.Refers roles (r.ident q.name) := .inr ⟨r, h, rfl⟩

theorem refers_sql : q.Refers q.referred (Role.sql.ident q.name) :=
  refers_ident List.mem_cons_self

namespace Emits

/-- A function without the parameters. -/
theorem of_bare (others : List String) (hps : f.parameters = []) (hothers : f.others = others)
    (hnodup : others.Nodup) (hown : ∀ name ∈ others, name ∈ "row" :: reservedNames)
    (hvariables : f.body.filterMap BodyLine.assigned? = [])
    (hrefers : ∀ name ∈ f.references, q.Refers Role.referred name) : q.Emits f where
  others_nodup := hothers ▸ hnodup
  own := by
    rw [Function.own, hothers, hvariables, List.append_nil]
    exact hown
  references := hrefers
  parameters := .inl hps

/-- A function with the parameters. -/
theorem of_parameters (others : List String)
    (hps : f.parameters.map Argument.name = q.parameterNames) (hothers : f.others = others)
    (hnodup : others.Nodup) (hreserved : ∀ name ∈ others, name ∈ reservedNames)
    (hvariables : ∀ name ∈ f.body.filterMap BodyLine.assigned?, name = "row")
    (hrefers : ∀ name ∈ f.references, q.Refers q.referred name) : q.Emits f where
  others_nodup := hothers ▸ hnodup
  own := by
    intro name hname
    rcases List.mem_append.mp hname with hname | hname
    · exact List.mem_cons_of_mem _ (hreserved name (hothers ▸ hname))
    · exact hvariables name hname ▸ List.mem_cons_self
  references := by
    intro name hname
    rcases hrefers name hname with hruntime | ⟨r, hr, heq⟩
    · exact .inl hruntime
    · exact .inr ⟨r, referred_subset r hr, heq⟩
  parameters := .inr ⟨hps, hothers ▸ hreserved, hrefers⟩

/-- The arguments of a function for a checked query have different names. -/
theorem arguments_nodup (hf : q.Emits f) (hq : b.Sound q) :
    (f.arguments.map Argument.name).Nodup := by
  rw [f.arguments_perm.nodup_iff]
  rcases hf.parameters with hnone | ⟨hps, hothers, -⟩
  · rw [hnone]
    exact hf.others_nodup
  · rw [hps]
    -- the other arguments are reserved, and a parameter of a checked query is not
    refine List.nodup_append.mpr ⟨hq.distinct, hf.others_nodup, ?_⟩
    rintro name hname _ hother rfl
    have hreserved : isReserved name = true := by
      simp [isReserved, hothers name hother]
    rw [(hq.usable name hname).2] at hreserved
    cases hreserved

/-- What a function refers to is found in the module, or it is a parameter. -/
theorem meaning_eq (hf : q.Emits f) {name : String} (h : name ∈ f.references)
    (hp : name ∉ f.parameters.map Argument.name) : f.meaning name = .definition := by
  -- neither a library nor a definition is called like something the function binds itself
  have hown : name ∉ f.own := by
    intro hmem
    rcases hf.references name h with hruntime | ⟨r, hr, rfl⟩
    · have hapart : ∀ x ∈ runtimeNames, x ∉ "row" :: reservedNames := by decide
      exact hapart name hruntime (hf.own name hmem)
    · exact Role.ident_notMem_own hr q.name (hf.own _ hmem)
  rw [Function.meaning, if_neg hp, if_neg hown]

/-- A parameter of a checked query that a function refers to is captured. -/
theorem captures (hf : q.Emits f) (hq : b.Sound q) {name : String}
    (hp : name ∈ f.parameters.map Argument.name) (h : name ∈ f.references) : q.Captures := by
  rcases hf.parameters with hnone | ⟨hps, -, href⟩
  · rw [hnone] at hp
    cases hp
  · rw [hps] at hp
    rcases href name h with hruntime | ⟨r, hr, rfl⟩
    · have hreserved := isReserved_of_runtime name hruntime
      rw [(hq.usable name hp).2] at hreserved
      cases hreserved
    · exact ⟨r, hr, hp⟩

theorem hygienic (hf : q.Emits f) (hq : b.Sound q) (h : ¬ q.Captures) : f.Hygienic where
  distinct := hf.arguments_nodup hq
  free _ hp href := h (hf.captures hq (List.mem_map_of_mem hp) href)
  found _ hname := hf.meaning_eq hname fun hp => h (hf.captures hq hp hname)

end Emits

theorem names_of_argumentsOf {ps : List Parameter} {as : List Argument}
    (h : argumentsOf ps = .ok as) : as.map Argument.name = ps.map Parameter.name := by
  induction ps generalizing as with
  | nil =>
    cases h
    rfl
  | cons p ps ih =>
    obtain ⟨_, -, h⟩ := bind_eq_ok_iff.mp h
    obtain ⟨rest, hrest, h⟩ := bind_eq_ok_iff.mp h
    cases h
    rw [List.map_cons, List.map_cons, ih hrest]

theorem names_of_arguments {as : List Argument} (h : q.arguments = .ok as) :
    as.map Argument.name = q.parameterNames :=
  names_of_argumentsOf (mapError_eq_ok_iff.mp h)

@[simp]
theorem globals_valueTuple : q.valueTuple.globals = [] := by
  have harguments : ∀ names : List String, Expr.globalsOf (names.map Expr.argument) = [] := by
    intro names
    induction names with
    | nil => rfl
    | cons _ names ih => exact ih
  exact harguments q.parameterNames

@[simp]
theorem globals_valueMapping : q.valueMapping.globals = [] := rfl

end Query

namespace Network

variable {q : Query} {parameters : List Argument}

theorem emits_function (form : Form) {role : Role} {result : String} {doc : Option String}
    {body : List BodyLine} (hps : parameters.map Argument.name = q.parameterNames)
    (hvariables : ∀ name ∈ body.filterMap BodyLine.assigned?, name = "row")
    (hrefers : ∀ l ∈ body, ∀ name ∈ l.globals, q.Refers q.referred name) :
    q.Emits (function q role form.arguments parameters result doc body) := by
  have hreferences : ∀ name ∈ body.flatMap BodyLine.globals, q.Refers q.referred name := by
    intro name hname
    obtain ⟨l, hl, hname⟩ := List.mem_flatMap.mp hname
    exact hrefers l hl name hname
  cases form with
  | plain => exact .of_parameters ["client"] hps rfl (by decide) (by decide) hvariables hreferences
  | prepared =>
    exact .of_parameters ["client", "stmt"] hps rfl (by decide) (by decide) hvariables hreferences

theorem Form.target_refers (form : Form) :
    ∀ name ∈ (form.target q).globals, q.Refers q.referred name := by
  cases form with
  | plain => simpa [Form.target, sql, Expr.globals] using Query.refers_sql
  | prepared => simp [Form.target, Expr.globals]

theorem Form.mentioned_refers (form : Form) :
    ∀ name ∈ (form.mentioned q).globals, q.Refers q.referred name := by
  cases form with
  | plain => simpa [Form.mentioned, sql, Expr.globals] using Query.refers_sql
  | prepared => simp [Form.mentioned, Expr.globals]

theorem emits_queueFamily (hg : q.backend = .network) (houtputs : q.hasOutputs = true)
    (hps : parameters.map Argument.name = q.parameterNames) {row : String}
    {many one opt : Role} {form : Form} :
    ∀ f ∈ queueFamily q parameters row many one opt form, q.Emits f := by
  have hfromRow : q.Refers q.referred (Role.fromRow.ident q.name) :=
    Query.refers_ident (Query.fromRow_mem_referred hg houtputs)
  have hres : q.Refers q.referred "_res" := Query.refers_runtime (by decide)
  have htarget := form.target_refers (q := q)
  have hmentioned := form.mentioned_refers (q := q)
  intro f hf
  simp only [queueFamily, List.mem_cons, List.not_mem_nil, or_false] at hf
  rcases hf with rfl | rfl | rfl
  · refine emits_function form hps (by simp [BodyLine.assigned?]) ?_
    simpa [BodyLine.globals, Expr.globals, Expr.globalsOf, client, hfromRow] using htarget
  · refine emits_function form hps (by simp [BodyLine.assigned?]) ?_
    simpa [BodyLine.globals, Expr.globals, Expr.globalsOf, client, hfromRow, hres, or_imp,
      forall_and] using And.intro htarget hmentioned
  · refine emits_function form hps (by simp [BodyLine.assigned?]) ?_
    simpa [BodyLine.globals, Expr.globals, Expr.globalsOf, client, hfromRow, hres, or_imp,
      forall_and] using And.intro htarget hmentioned

theorem emits_fromRow (row : String) : q.Emits (fromRow q row) := by
  refine .of_bare ["row"] rfl rfl (by decide) (by decide) rfl ?_
  have hlibrary : q.Refers Role.referred "_t" := Query.refers_runtime (by decide)
  have houtputs : q.Refers Role.referred (Role.outputs.ident q.name) :=
    Query.refers_ident (by decide)
  simp [Function.references, fromRow, BodyLine.globals, Expr.globals, Expr.globalsOf, hlibrary,
    houtputs]

theorem emits_prepare : q.Emits (prepare q) ∧ q.Emits (prepareCached q) := by
  have hsql : q.Refers Role.referred (Role.sql.ident q.name) := Query.refers_ident (by decide)
  constructor
  · refine .of_bare ["client"] rfl rfl (by decide) (by decide) rfl ?_
    simpa [Function.references, prepare, function, BodyLine.globals, Expr.globals, Expr.globalsOf,
      client, sql] using hsql
  · refine .of_bare ["client", "cache"] rfl rfl (by decide) (by decide) rfl ?_
    simpa [Function.references, prepareCached, function, BodyLine.globals, Expr.globals,
      Expr.globalsOf, client, sql] using hsql

theorem emits_execute (hps : parameters.map Argument.name = q.parameterNames) :
    q.Emits (execute q parameters) ∧ q.Emits (executePrepared q parameters) := by
  constructor
  · refine emits_function .plain hps (by simp [BodyLine.assigned?]) ?_
    simpa [BodyLine.globals, Expr.globals, Expr.globalsOf, client, sql] using Query.refers_sql
  · refine emits_function .prepared hps (by simp [BodyLine.assigned?]) ?_
    simp [BodyLine.globals, Expr.globals, Expr.globalsOf, client]

theorem functions_of_definitions {ds : List Definition} (h : definitions q = .ok ds) :
    ∃ parameters row, parameters.map Argument.name = q.parameterNames ∧
      ds.flatMap Definition.functions =
        (if q.hasOutputs then [fromRow q row] else []) ++
          [prepare q, prepareCached q, execute q parameters, executePrepared q parameters] ++
          if q.hasOutputs then rowFunctions q parameters row else [] := by
  obtain ⟨parameters, hparameters, h⟩ := bind_eq_ok_iff.mp h
  obtain ⟨row, -, h⟩ := bind_eq_ok_iff.mp h
  cases h
  refine ⟨parameters, row, Query.names_of_arguments hparameters, ?_⟩
  rw [List.flatMap_map]
  exact List.flatMap_singleton' _

/-- The functions for a network query. -/
theorem emits_definitions (hg : q.backend = .network) {ds : List Definition}
    (h : definitions q = .ok ds) : ∀ f ∈ ds.flatMap Definition.functions, q.Emits f := by
  obtain ⟨parameters, row, hps, hfunctions⟩ := functions_of_definitions h
  intro f hf
  rw [hfunctions, List.mem_append, List.mem_append] at hf
  rcases hf with (hf | hf) | hf
  · split at hf
    · exact List.mem_singleton.mp hf ▸ emits_fromRow row
    · cases hf
  · simp only [List.mem_cons, List.not_mem_nil, or_false] at hf
    rcases hf with rfl | rfl | rfl | rfl
    · exact emits_prepare.1
    · exact emits_prepare.2
    · exact (emits_execute hps).1
    · exact (emits_execute hps).2
  · split at hf
    · rename_i houtputs
      rcases List.mem_append.mp hf with hf | hf
      · exact emits_queueFamily hg houtputs hps f hf
      · exact emits_queueFamily hg houtputs hps f hf
    · cases hf

/-- Each definition that may be captured is referred to beside the parameters. -/
theorem exists_refers (hg : q.backend = .network) {ds : List Definition}
    (h : definitions q = .ok ds) : ∀ r ∈ q.referred, ∃ f ∈ ds.flatMap Definition.functions,
      f.parameters.map Argument.name = q.parameterNames ∧ r.ident q.name ∈ f.references := by
  obtain ⟨parameters, row, hps, hfunctions⟩ := functions_of_definitions h
  intro r hr
  rw [hfunctions]
  rw [Query.referred, hg] at hr
  rcases List.mem_cons.mp hr with rfl | hr
  · refine ⟨execute q parameters, by simp, hps, ?_⟩
    simp [Function.references, execute, function, BodyLine.globals, Expr.globals, Expr.globalsOf,
      sql]
  · split at hr
    · rename_i houtputs
      obtain rfl := List.mem_singleton.mp hr
      have hqueue : ∃ f ∈ rowFunctions q parameters row, f.parameters = parameters ∧
          Role.fromRow.ident q.name ∈ f.references :=
        ⟨_, List.mem_cons_self, rfl, List.mem_cons_self⟩
      obtain ⟨f, hf, hparameters, href⟩ := hqueue
      exact ⟨f, by simp [houtputs, hf], hparameters ▸ hps, href⟩
    · cases hr

end Network

namespace Embedded

variable {q : Query} {parameters : List Argument}

theorem emits_method {name result operation : String} {args : List Expr}
    {trailing : List Argument} (htrailing : trailing = [] ∨ ∃ hint, trailing = [⟨"f", hint⟩])
    (hps : parameters.map Argument.name = q.parameterNames) (hargs : Expr.globalsOf args = []) :
    q.Emits (method name parameters trailing result [onSelf operation args]) := by
  have hrefers : ∀ name ∈ (Expr.call (.field (.argument "self") operation) args).globals ++ [],
      q.Refers q.referred name := by
    simp [Expr.globals, hargs]
  rcases htrailing with rfl | ⟨hint, rfl⟩
  · exact .of_parameters ["self"] hps rfl (by decide) (by decide) nofun hrefers
  · exact .of_parameters ["self", "f"] hps rfl (by decide) (by decide) nofun hrefers

theorem emits_operations (hps : parameters.map Argument.name = q.parameterNames)
    {mapper row : String} : ∀ f ∈ (operations q parameters mapper row).methods, q.Emits f := by
  intro f hf
  rcases List.mem_append.mp hf with hf | hf
  · split at hf
    · simp only [rowMethods, List.mem_cons, List.not_mem_nil, or_false] at hf
      rcases hf with rfl | rfl | rfl
      · exact emits_method (.inr ⟨_, rfl⟩) hps rfl
      · exact emits_method (.inr ⟨_, rfl⟩) hps rfl
      · exact emits_method (.inl rfl) hps rfl
    · cases hf
  · obtain rfl := List.mem_singleton.mp hf
    exact emits_method (.inl rfl) hps rfl

theorem emits_prepare {role handle : Role} (h : handle ∈ Role.referred) :
    q.Emits (prepare q role handle) := by
  refine .of_bare ["conn"] rfl rfl (by decide) (by decide) rfl ?_
  have hsql : q.Refers Role.referred (Role.sql.ident q.name) := Query.refers_ident (by decide)
  have hhandle : q.Refers Role.referred (handle.ident q.name) := Query.refers_ident h
  simp [Function.references, prepare, BodyLine.globals, Expr.globals, Expr.globalsOf, hsql, hhandle]

theorem emits_execute (hps : parameters.map Argument.name = q.parameterNames) :
    q.Emits (execute q parameters) := by
  refine .of_parameters ["conn"] hps rfl (by decide) (by decide) nofun ?_
  have hlibrary : q.Refers q.referred "_sqlite" := Query.refers_runtime (by decide)
  simpa [Function.references, execute, library, BodyLine.globals, Expr.globals, Expr.globalsOf,
    hlibrary] using Query.refers_sql

theorem emits_queryRow (hg : q.backend = .embedded) (houtputs : q.hasOutputs = true)
    (hps : parameters.map Argument.name = q.parameterNames) {mapper : String} :
    q.Emits (queryRow q parameters mapper) := by
  refine .of_parameters ["conn", "f"] hps rfl (by decide) (by decide) nofun ?_
  have hlibrary : q.Refers q.referred "_sqlite" := Query.refers_runtime (by decide)
  have htypes : q.Refers q.referred (Role.outputs.ident q.name) :=
    Query.refers_ident (Query.outputs_mem_referred hg houtputs)
  simpa [Function.references, queryRow, library, BodyLine.globals, Expr.globals, Expr.globalsOf,
    hlibrary, htypes] using Query.refers_sql

theorem functions_of_definitions {ds : List Definition} (h : definitions q = .ok ds) :
    ∃ parameters mapper row, parameters.map Argument.name = q.parameterNames ∧
      ds.flatMap Definition.functions =
        (operations q parameters mapper row).methods ++
          [prepare q .prepare .statement, prepare q .prepareCached .cachedStatement,
            execute q parameters] ++
          if q.hasOutputs then [queryRow q parameters mapper] else [] := by
  obtain ⟨parameters, hparameters, h⟩ := bind_eq_ok_iff.mp h
  obtain ⟨mapper, -, h⟩ := bind_eq_ok_iff.mp h
  obtain ⟨row, -, h⟩ := bind_eq_ok_iff.mp h
  cases h
  refine ⟨parameters, mapper, row, Query.names_of_arguments hparameters, ?_⟩
  cases q.hasOutputs <;> simp [Definition.functions, handle]

/-- The functions and methods for an embedded query. -/
theorem emits_definitions (hg : q.backend = .embedded) {ds : List Definition}
    (h : definitions q = .ok ds) : ∀ f ∈ ds.flatMap Definition.functions, q.Emits f := by
  obtain ⟨parameters, mapper, row, hps, hfunctions⟩ := functions_of_definitions h
  intro f hf
  rw [hfunctions, List.mem_append, List.mem_append] at hf
  rcases hf with (hf | hf) | hf
  · exact emits_operations hps f hf
  · simp only [List.mem_cons, List.not_mem_nil, or_false] at hf
    rcases hf with rfl | rfl | rfl
    · exact emits_prepare (by decide)
    · exact emits_prepare (by decide)
    · exact emits_execute hps
  · split at hf
    · rename_i houtputs
      exact List.mem_singleton.mp hf ▸ emits_queryRow hg houtputs hps
    · cases hf

theorem exists_refers (hg : q.backend = .embedded) {ds : List Definition}
    (h : definitions q = .ok ds) : ∀ r ∈ q.referred, ∃ f ∈ ds.flatMap Definition.functions,
      f.parameters.map Argument.name = q.parameterNames ∧ r.ident q.name ∈ f.references := by
  obtain ⟨parameters, mapper, row, hps, hfunctions⟩ := functions_of_definitions h
  intro r hr
  rw [hfunctions]
  rw [Query.referred, hg] at hr
  rcases List.mem_cons.mp hr with rfl | hr
  · refine ⟨execute q parameters, by simp, hps, ?_⟩
    simp [Function.references, execute, BodyLine.globals, Expr.globals, Expr.globalsOf]
  · split at hr
    · rename_i houtputs
      obtain rfl := List.mem_singleton.mp hr
      refine ⟨queryRow q parameters mapper, by simp [houtputs], hps, ?_⟩
      simp [Function.references, queryRow, BodyLine.globals, Expr.globals, Expr.globalsOf]
    · cases hr

end Embedded

/-! ## Sections -/

namespace Query

variable {config : Config} {b : Book} {q : Query} {ds : List Definition}

/-- The statement text and the output types are no functions. -/
theorem functions_of_definitions (h : (q.backend.definitions config q).outcome = .ok ds) :
    ∃ access, q.backend.accessDefinitions q = .ok access ∧
      ds.flatMap Definition.functions = access.flatMap Definition.functions := by
  simp only [Backend.definitions, Journaled.outcome_bind, Journaled.outcome_log,
    Journaled.outcome_lift, Journaled.outcome_pure] at h
  obtain ⟨-, -, h⟩ := bind_eq_ok_iff.mp h
  obtain ⟨text, -, h⟩ := bind_eq_ok_iff.mp h
  obtain ⟨outputs, -, h⟩ := bind_eq_ok_iff.mp h
  obtain ⟨access, haccess, h⟩ := bind_eq_ok_iff.mp h
  cases h
  refine ⟨access, haccess, ?_⟩
  cases q.hasOutputs <;> rfl

theorem emits_definitions (h : (q.backend.definitions config q).outcome = .ok ds) :
    ∀ f ∈ ds.flatMap Definition.functions, q.Emits f := by
  obtain ⟨access, haccess, hfunctions⟩ := functions_of_definitions h
  rw [hfunctions]
  cases hg : q.backend with
  | embedded =>
    rw [hg] at haccess
    exact Embedded.emits_definitions hg haccess
  | network =>
    rw [hg] at haccess
    exact Network.emits_definitions hg haccess

/-- Each definition that a parameter may be called like is referred to beside the parameters. -/
theorem exists_refers (h : (q.backend.definitions config q).outcome = .ok ds) :
    ∀ r ∈ q.referred, ∃ f ∈ ds.flatMap Definition.functions,
      f.parameters.map Argument.name = q.parameterNames ∧ r.ident q.name ∈ f.references := by
  obtain ⟨access, haccess, hfunctions⟩ := functions_of_definitions h
  rw [hfunctions]
  cases hg : q.backend with
  | embedded =>
    rw [hg] at haccess
    exact Embedded.exists_refers hg haccess
  | network =>
    rw [hg] at haccess
    exact Network.exists_refers hg haccess

/-- **The functions for a checked query are hygienic if no parameter captures, and only then.** -/
theorem hygienic_of_definitions (hq : b.Sound q)
    (h : (q.backend.definitions config q).outcome = .ok ds) :
    (∀ f ∈ ds.flatMap Definition.functions, f.Hygienic) ↔ ¬ q.Captures := by
  constructor
  · rintro hall ⟨r, hr, hcaptured⟩
    obtain ⟨f, hf, hps, href⟩ := exists_refers h r hr
    rw [← hps] at hcaptured
    obtain ⟨p, hp, hname⟩ := List.mem_map.mp hcaptured
    exact (hall f hf).free p hp (hname ▸ href)
  · intro hnone f hf
    exact (emits_definitions h f hf).hygienic hq hnone

end Query

namespace Module

theorem forall₂_sections {config : Config} {generators : List (Backend × Backend)}
    {qs : List Query} {ss : List (String × List Definition)}
    (hgenerators : ∀ q ∈ qs, generators.lookup q.backend = some q.backend)
    (h : (sections config generators qs).outcome = .ok ss) :
    List.Forall₂ (fun q s => q ∈ qs ∧ s.1 = q.name ∧
      (q.backend.definitions config q).outcome = .ok s.2) qs ss := by
  induction qs generalizing ss with
  | nil =>
    cases h
    exact .nil
  | cons q qs ih =>
    rw [sections_cons (hgenerators q List.mem_cons_self)] at h
    obtain ⟨ds, hds, h⟩ := bind_eq_ok_iff.mp h
    obtain ⟨others, hothers, h⟩ := bind_eq_ok_iff.mp h
    cases h
    refine .cons ⟨List.mem_cons_self, rfl, hds⟩ ?_
    refine (ih (fun r hr => hgenerators r (List.mem_cons_of_mem _ hr)) hothers).imp ?_
    rintro r s ⟨hr, hs⟩
    exact ⟨List.mem_cons_of_mem _ hr, hs⟩

/-- **The functions that a module has for a checked query keep their arguments apart. They are
hygienic if no parameter is called like a definition for the query that is referred to beside it,
and only then.** -/
theorem hygienic_iff {config : Config} {b : Book} {m : Module} (hb : b.check = .ok ())
    (hm : (build config .standard b).outcome = .ok m) :
    ∃ c : Content, c.Of config b ∧ m.source = c.source config b ∧
      List.Forall₂ (fun q s => s.1 = q.name ∧
        (∀ f ∈ s.2.flatMap Definition.functions, (f.arguments.map Argument.name).Nodup) ∧
        ((∀ f ∈ s.2.flatMap Definition.functions, f.Hygienic) ↔ ¬ q.Captures))
        b.queries c.sections := by
  obtain ⟨c, hc, hsource, -⟩ := build_content hb hm
  refine ⟨c, hc, hsource, (forall₂_sections lookup_of_mem hc.sections).imp ?_⟩
  rintro q s ⟨hq, hname, hs⟩
  have hsound := (Book.check_eq_ok_iff.mp hb).2 q hq
  exact ⟨hname, fun f hf => (Query.emits_definitions hs f hf).arguments_nodup hsound,
    Query.hygienic_of_definitions hsound hs⟩

/-- A query whose parameters are called like a variable of its functions, like a definition that
only the other backend has beside the parameters, and like a definition for another query. -/
def lookalikes : Book :=
  { queries := [
      { name := "x", backend := .network, named := false
        parameters := ["row", "OUTPUTS_x", "SQL_y"].map fun name => ⟨name, ⟨"int", []⟩⟩
        outputs := [⟨"int", []⟩], statement := "SELECT $1 + $2 + $3", dependencies := none
        line := 1 }]
    sourceName := "book" }

theorem hygienic_iff_lookalikes :
    lookalikes.check = .ok () ∧ ∃ m, (build {} .standard lookalikes).outcome = .ok m ∧
      ∃ c : Content, c.Of {} lookalikes ∧ m.source = c.source {} lookalikes ∧
        ∀ s ∈ c.sections, ∀ f ∈ s.2.flatMap Definition.functions, f.Hygienic := by
  have hb : lookalikes.check = .ok () := rfl
  obtain ⟨m, hm⟩ := exists_build_of_check hb {} rfl
  obtain ⟨c, hc, hsource, hsections⟩ := hygienic_iff hb hm
  obtain ⟨s, _, ⟨-, -, hiff⟩, hrest, hcs⟩ := List.forall₂_cons_left_iff.mp hsections
  obtain rfl := List.forall₂_nil_left_iff.mp hrest
  refine ⟨hb, m, hm, c, hc, hsource, ?_⟩
  rw [hcs, List.forall_mem_singleton]
  exact hiff.mpr (by decide)

/-- A query whose parameter is called like its statement text. -/
def capturedText : String :=
  "#[sqlite] q(SQL_q: str)\x7b\"DELETE FROM t\"\x7d"

theorem statement_text_captured :
    ∃ b, Book.read capturedText "<string>" = .ok b ∧
      ∃ m, (build {} .standard b).outcome = .ok m ∧
        ∃ c : Content, c.Of {} b ∧ m.source = c.source {} b ∧
          ∃ s ∈ c.sections, ∃ f ∈ s.2.flatMap Definition.functions, f.name = "execute_q" ∧
            "SQL_q" ∈ f.references ∧ f.meaning "SQL_q" = .parameter := by
  obtain ⟨b, hread, hsections⟩ : ∃ b, Book.read capturedText "<string>" = .ok b ∧
      ((sections {} (b.backends.map fun k => (k, k)) b.queries).outcome.toOption.any fun ss =>
        ∃ s ∈ ss, ∃ f ∈ s.2.flatMap Definition.functions, f.name = "execute_q" ∧
          "SQL_q" ∈ f.references ∧ f.meaning "SQL_q" = .parameter) = true :=
    exists_ok_of_any (by decide +kernel)
  obtain ⟨_, _, _, hb, _⟩ := Book.read_eq_ok_iff.mp hread
  obtain ⟨m, hm⟩ := exists_build_of_check hb {} rfl
  obtain ⟨c, hc, hsource, -⟩ := build_content hb hm
  refine ⟨b, hread, m, hm, c, hc, hsource, ?_⟩
  obtain ⟨ss, hss, hcaptured⟩ := exists_ok_of_any hsections
  obtain rfl : ss = c.sections := Except.ok.inj (hss.symm.trans hc.sections)
  exact hcaptured

end Module

end QueryBook
