import QueryBook.Proofs.Code.Hygiene
import QueryBook.Proofs.Session.Evaluation

/-!
# What the names of a module stand for

A name of a module stands for the last definition that has it. In most roles a query of a checked
book has its name for itself, since no lead of another role can be confused with the lead of these.
In the other roles the name may be that of another query's definition too. `execute_` is the one of
them that test setup depends on: it stands for the query's own function, unless the prepared form of
a query further down has the same name.
-/

namespace QueryBook

/-! ## Roles -/

namespace Role

theorem lead_injective {r r' : Role} (h : r.lead = r'.lead) : r = r' := by
  have hempty : ∀ e ∈ extensions, e.2.1 ≠ "" := by decide
  rcases extension_of_lead (s := "") (h.symm.trans String.append_empty.symm) with hsame | hext
  · exact hsame.1
  · exact absurd rfl (hempty _ hext)

/-- The definitions for one query have different names. -/
theorem ident_left_injective {r r' : Role} {name : String} (h : r.ident name = r'.ident name) :
    r = r' := by
  have hchars : r.lead.toList ++ name.toList = r'.lead.toList ++ name.toList := by
    rw [← String.toList_append, ← String.toList_append]
    exact congrArg String.toList h
  exact lead_injective (String.toList_inj.mp (List.append_cancel_right hchars))

/-- The lead of the role is not confused with that of another one. -/
def Solitary (r : Role) : Prop := ∀ e ∈ extensions, e.1 ≠ r ∧ e.2.2 ≠ r

instance (r : Role) : Decidable r.Solitary := inferInstanceAs (Decidable (∀ e ∈ _, _))

theorem Solitary.of_ident {r r' : Role} {p q : String} (hr : r.Solitary)
    (h : r'.ident p = r.ident q) : r' = r ∧ p = q := by
  rcases ident_eq_ident_iff.mp h with hsame | ⟨s, hext, _⟩ | ⟨s, hext, _⟩
  · exact hsame
  · exact absurd rfl (hr _ hext).2
  · exact absurd rfl (hr _ hext).1

/-- A name that starts as no definition does. -/
def Foreign (name : String) : Prop := ∀ r ∈ all, ¬ r.lead.toList <+: name.toList

instance (name : String) : Decidable (Foreign name) := inferInstanceAs (Decidable (∀ r ∈ _, _))

theorem Foreign.ident_ne {name : String} (h : Foreign name) (r : Role) (q : String) :
    r.ident q ≠ name := by
  rintro rfl
  refine h r (mem_all r) ?_
  rw [ident, String.toList_append]
  exact List.prefix_append _ _

end Role

/-! ## Queries that have a name for themselves -/

namespace Book

/-- No other query has a definition of the name of this query's definition in a role. -/
def Sole (b : Book) (r : Role) (q : Query) : Prop :=
  ∀ p ∈ b.queries, ∀ r' ∈ p.roles, r'.ident p.name = r.ident q.name → p = q

/-- The definitions of the query collide with those of no other. -/
def CollisionFree (b : Book) (q : Query) : Prop := ∀ p ∈ b.queries, ¬ p.Collides q ∧ ¬ q.Collides p

instance (b : Book) (q : Query) : Decidable (b.CollisionFree q) :=
  inferInstanceAs (Decidable (∀ p ∈ _, _))

variable {b : Book} {q : Query}

theorem eq_of_name (h : b.names.Nodup) {p : Query} (hp : p ∈ b.queries) (hq : q ∈ b.queries)
    (hname : p.name = q.name) : p = q := List.inj_on_of_nodup_map h hp hq hname

theorem find?_of_mem (h : b.names.Nodup) (hq : q ∈ b.queries) : b.find? q.name = some q := by
  have hsome : (b.find? q.name).isSome = true :=
    List.find?_isSome.mpr ⟨q, hq, beq_self_eq_true q.name⟩
  obtain ⟨p, hp⟩ := Option.isSome_iff_exists.mp hsome
  obtain ⟨hmem, hname⟩ := find?_eq_some hp
  rw [hp, eq_of_name h hmem hq hname]

theorem sole_of_solitary {r : Role} (hr : r.Solitary) (h : b.names.Nodup) (hq : q ∈ b.queries) :
    b.Sole r q := fun _ hp _ _ hident => eq_of_name h hp hq (hr.of_ident hident).2

theorem CollisionFree.sole (hq : b.CollisionFree q) (h : b.names.Nodup) (hmem : q ∈ b.queries)
    {r : Role} (hr : r ∈ q.roles) : b.Sole r q := by
  intro p hp r' hr' hident
  rcases Role.ident_eq_ident_iff.mp hident with ⟨_, hname⟩ | ⟨s, hext, hname⟩ | ⟨s, hext, hname⟩
  · exact eq_of_name h hp hmem hname
  · exact absurd (Query.collides_iff.mpr ⟨r', s, r, hext, hr', hr, hname⟩) (hq p hp).1
  · exact absurd (Query.collides_iff.mpr ⟨r, s, r', hext, hr, hr', hname⟩) (hq p hp).2

end Book

/-! ## The definitions of a section -/

namespace Query

variable {config : Config} {q : Query}

/-- The definitions of the section of a query; none if it cannot have one. -/
def definitions (config : Config) (q : Query) : List Definition :=
  match (q.backend.definitions config q).outcome with
  | .ok ds => ds
  | .error _ => []

/-- What a section of either backend starts with. -/
def constants (q : Query) (text : String) (columns : Expr) : List Definition :=
  .constant (Role.sql.ident q.name) (.literal text) ::
    if q.hasOutputs then [.constant (Role.outputs.ident q.name) columns] else []

/-- The section of the query was written. -/
def HasSection (config : Config) (q : Query) : Prop :=
  (q.backend.definitions config q).outcome = .ok (q.definitions config)

theorem HasSection.eq (h : q.HasSection config) :
    ∃ text columns access, (q.backend.statementText config q).outcome = .ok text ∧
      q.outputTuple = .ok columns ∧ q.backend.accessDefinitions q = .ok access ∧
      q.definitions config = q.constants text columns ++ access := by
  unfold HasSection at h
  simp only [Backend.definitions, Journaled.outcome_bind, Journaled.outcome_log,
    Journaled.outcome_lift, Journaled.outcome_pure] at h
  obtain ⟨-, -, h⟩ := bind_eq_ok_iff.mp h
  obtain ⟨text, htext, h⟩ := bind_eq_ok_iff.mp h
  obtain ⟨columns, hcolumns, h⟩ := bind_eq_ok_iff.mp h
  obtain ⟨access, haccess, h⟩ := bind_eq_ok_iff.mp h
  exact ⟨text, columns, access, htext, hcolumns, haccess, (Except.ok.inj h).symm⟩

/-- The statement text of a query; empty if it cannot have one. -/
def text (config : Config) (q : Query) : String :=
  match (q.backend.statementText config q).outcome with
  | .ok text => text
  | .error _ => ""

theorem HasSection.text_eq (h : q.HasSection config) :
    (q.backend.statementText config q).outcome = .ok (q.text config) := by
  obtain ⟨text, -, -, htext, -⟩ := h.eq
  rw [Query.text, htext]

theorem HasSection.names (h : q.HasSection config) :
    (q.definitions config).map Definition.name = q.roles.map fun r => r.ident q.name :=
  Backend.definitions_names h

/-- A section has one definition of each name. -/
theorem HasSection.names_nodup (h : q.HasSection config) :
    ((q.definitions config).map Definition.name).Nodup := by
  rw [h.names]
  exact q.roles_nodup.map fun _ _ hident => Role.ident_left_injective hident

theorem HasSection.eq_of_name (h : q.HasSection config) {d d' : Definition}
    (hd : d ∈ q.definitions config) (hd' : d' ∈ q.definitions config) (hname : d.name = d'.name) :
    d = d' := List.inj_on_of_nodup_map h.names_nodup hd hd' hname

theorem HasSection.role_of_mem (h : q.HasSection config) {d : Definition}
    (hd : d ∈ q.definitions config) : ∃ r ∈ q.roles, d.name = r.ident q.name := by
  have hname := List.mem_map_of_mem (f := Definition.name) hd
  rw [h.names] at hname
  obtain ⟨r, hr, heq⟩ := List.mem_map.mp hname
  exact ⟨r, hr, heq.symm⟩

end Query

/-- The definitions of the scaffolding. -/
def Book.scaffold (config : Config) (b : Book) : List Definition :=
  if config.emitTests then
    b.setupTargets.map (fun q => .functionDef q.routine.function) ++
      b.tested.map fun q => .functionDef q.entryPoint.function
  else []

theorem Book.role_of_mem_scaffold {config : Config} {b : Book} {d : Definition}
    (h : d ∈ b.scaffold config) :
    ∃ r : Role, ∃ q ∈ b.queries, ¬ r.IsAccess ∧ d.name = r.ident q.name := by
  unfold scaffold at h
  split at h
  · rcases List.mem_append.mp h with h | h
    · obtain ⟨q, hq, rfl⟩ := List.mem_map.mp h
      exact ⟨.testSetup, q, Setup.mem_setupTargets hq, by decide, rfl⟩
    · obtain ⟨q, hq, rfl⟩ := List.mem_map.mp h
      exact ⟨.test, q, (List.mem_filter.mp hq).1, by decide, rfl⟩
  · cases h

/-- The scaffolding has one definition of each name. -/
theorem Book.scaffold_names_nodup {config : Config} {b : Book} (h : b.names.Nodup) :
    ((b.scaffold config).map Definition.name).Nodup := by
  have hnames : (b.scaffold config).map Definition.name =
      (b.scaffolded config).map fun d => d.1.ident d.2 := by
    unfold scaffold scaffolded
    split
    · simp only [List.map_append, List.map_map]
      rfl
    · rfl
  rw [hnames]
  refine (scaffolded_nodup h).map_on ?_
  rintro ⟨r, x⟩ hx ⟨r', y⟩ - hident
  have hsolitary : r.Solitary := by
    rcases role_of_mem_scaffolded hx with rfl | rfl <;> decide
  obtain ⟨rfl, rfl⟩ := hsolitary.of_ident hident.symm
  rfl

/-! ## Programs -/

theorem Module.sections_eq {config : Config} {generators : List (Backend × Backend)}
    {qs : List Query} {ss : List (String × List Definition)}
    (hgenerators : ∀ q ∈ qs, generators.lookup q.backend = some q.backend)
    (h : (sections config generators qs).outcome = .ok ss) :
    ss.flatMap Prod.snd = qs.flatMap (Query.definitions config) ∧
      ∀ q ∈ qs, q.HasSection config := by
  induction qs generalizing ss with
  | nil =>
    cases h
    exact ⟨rfl, nofun⟩
  | cons q qs ih =>
    rw [sections_cons (hgenerators q List.mem_cons_self)] at h
    obtain ⟨ds, hds, h⟩ := bind_eq_ok_iff.mp h
    obtain ⟨others, hothers, h⟩ := bind_eq_ok_iff.mp h
    cases h
    have hq : q.definitions config = ds := by rw [Query.definitions, hds]
    obtain ⟨hrest, hall⟩ := ih (fun r hr => hgenerators r (List.mem_cons_of_mem _ hr)) hothers
    refine ⟨by rw [List.flatMap_cons, List.flatMap_cons, hrest, hq], ?_⟩
    rw [List.forall_mem_cons]
    exact ⟨hds.trans (congrArg Except.ok hq.symm), hall⟩

namespace Program

/-- The program of the module of a checked book. -/
structure Of (config : Config) (b : Book) (p : Program) : Prop where
  checked : b.check = .ok ()
  sections : ∀ q ∈ b.queries, q.HasSection config
  definitions : p.definitions = b.queries.flatMap (Query.definitions config) ++ b.scaffold config

theorem of_build {config : Config} {b : Book} {m : Module} (hb : b.check = .ok ())
    (hm : (Module.build config .standard b).outcome = .ok m) : (ofModule m).Of config b := by
  obtain ⟨c, hc, -, hdefinitions⟩ := Module.build_content hb hm
  obtain ⟨hsections, hall⟩ := Module.sections_eq Module.lookup_of_mem hc.sections
  refine ⟨hb, hall, ?_⟩
  show m.definitions = _
  rw [hdefinitions, Module.Content.definitions, hsections, hc.routines, hc.entryPoints,
    Book.scaffold, List.append_assoc]
  cases config.emitTests with
  | true => simp only [if_true, List.map_map, Function.comp_def]
  | false => rfl

namespace Of

variable {config : Config} {b : Book} {p : Program} {q : Query} {d : Definition}

theorem nodup (hp : p.Of config b) : b.names.Nodup := (Book.check_eq_ok_iff.mp hp.checked).1

theorem sound (hp : p.Of config b) (hq : q ∈ b.queries) : b.Sound q :=
  (Book.check_eq_ok_iff.mp hp.checked).2 q hq

theorem role_of_mem (hp : p.Of config b) (hd : d ∈ p.definitions) :
    ∃ (r : Role) (name : String), d.name = r.ident name := by
  rw [hp.definitions, List.mem_append, List.mem_flatMap] at hd
  rcases hd with ⟨q, hq, hd⟩ | hd
  · obtain ⟨r, -, hname⟩ := (hp.sections q hq).role_of_mem hd
    exact ⟨r, q.name, hname⟩
  · obtain ⟨r, q, -, -, hname⟩ := Book.role_of_mem_scaffold hd
    exact ⟨r, q.name, hname⟩

/-- What the module imports keeps its name. -/
theorem lookup_foreign (hp : p.Of config b) {name : String} (h : Role.Foreign name) :
    p.lookup name = Object.imported name := by
  have hnone : p.find? name = none := by
    refine List.find?_eq_none.mpr fun d hd => ?_
    obtain ⟨r, q, hname⟩ := hp.role_of_mem (List.mem_reverse.mp hd)
    simpa [hname] using h.ident_ne r q
  rw [lookup, hnone]

/-- A name stands for the definition that is alone in having it. -/
theorem find?_of_sole (hd : d ∈ p.definitions)
    (hsole : ∀ d' ∈ p.definitions, d'.name = d.name → d' = d) : p.find? d.name = some d := by
  have hsome : (p.find? d.name).isSome = true :=
    List.find?_isSome.mpr ⟨d, List.mem_reverse.mpr hd, beq_self_eq_true d.name⟩
  obtain ⟨d', hd'⟩ := Option.isSome_iff_exists.mp hsome
  have hname : d'.name = d.name := by simpa using List.find?_some hd'
  rw [hd', hsole d' (List.mem_reverse.mp (List.mem_of_find?_eq_some hd')) hname]

/-- The scaffolding has no name of a section. -/
theorem name_ne_scaffold (hp : p.Of config b) (hq : q ∈ b.queries) (hd : d ∈ q.definitions config)
    {d' : Definition} (hd' : d' ∈ b.scaffold config) : d.name ≠ d'.name := by
  intro heq
  obtain ⟨r, hr, hname⟩ := (hp.sections q hq).role_of_mem hd
  obtain ⟨r', x, -, hr', hname'⟩ := Book.role_of_mem_scaffold hd'
  -- neither lead of the scaffolding is the beginning of another lead
  have hsolitary : r'.Solitary := by
    revert hr'
    cases r' <;> decide
  have hsame := (hsolitary.of_ident (hname.symm.trans (heq.trans hname'))).1
  exact absurd (hsame ▸ Query.access_of_mem_roles r hr) hr'

/-- **A definition that no other query gets in the way of is what its name stands for.** -/
theorem find?_section (hp : p.Of config b) (hq : q ∈ b.queries) (hd : d ∈ q.definitions config)
    {r : Role} (hname : d.name = r.ident q.name) (hsole : b.Sole r q) :
    p.find? (r.ident q.name) = some d := by
  rw [← hname]
  refine find?_of_sole ?_ fun d' hd' heq => ?_
  · rw [hp.definitions]
    exact List.mem_append_left _ (List.mem_flatMap.mpr ⟨q, hq, hd⟩)
  rw [hp.definitions, List.mem_append, List.mem_flatMap] at hd'
  rcases hd' with ⟨x, hx, hd'⟩ | hd'
  · obtain ⟨r', hr', hname'⟩ := (hp.sections x hx).role_of_mem hd'
    obtain rfl := hsole x hx r' hr' (hname'.symm.trans (heq.trans hname))
    exact (hp.sections x hx).eq_of_name hd' hd heq
  · exact absurd heq.symm (hp.name_ne_scaffold hq hd hd')

theorem find?_of_collisionFree (hp : p.Of config b) (hq : q ∈ b.queries) (hfree : b.CollisionFree q)
    (hd : d ∈ q.definitions config) : p.find? d.name = some d := by
  obtain ⟨r, hr, hname⟩ := (hp.sections q hq).role_of_mem hd
  rw [hname]
  exact hp.find?_section hq hd hname (hfree.sole hp.nodup hq hr)

/-- So is a definition of the scaffolding. -/
theorem find?_scaffold (hp : p.Of config b) (hd : d ∈ b.scaffold config) :
    p.find? d.name = some d := by
  refine find?_of_sole ?_ fun d' hd' heq => ?_
  · rw [hp.definitions]
    exact List.mem_append_right _ hd
  rw [hp.definitions, List.mem_append, List.mem_flatMap] at hd'
  rcases hd' with ⟨x, hx, hd'⟩ | hd'
  · exact absurd heq (hp.name_ne_scaffold hx hd' hd)
  · exact List.inj_on_of_nodup_map (Book.scaffold_names_nodup hp.nodup) hd' hd heq

end Of

/-! ## Constants -/

namespace Of

variable {config : Config} {b : Book} {p : Program} {q : Query}

theorem lookup_sql (hp : p.Of config b) (hq : q ∈ b.queries) {text : String}
    (htext : (q.backend.statementText config q).outcome = .ok text) :
    p.lookup (Role.sql.ident q.name) = pure (.value (.text text)) := by
  obtain ⟨text', columns, access, htext', -, -, heq⟩ := (hp.sections q hq).eq
  obtain rfl := Except.ok.inj (htext.symm.trans htext')
  have hd : Definition.constant (Role.sql.ident q.name) (.literal text) ∈ q.definitions config := by
    rw [heq]
    exact List.mem_append_left _ List.mem_cons_self
  have hfind := hp.find?_section hq hd rfl (Book.sole_of_solitary (by decide) hp.nodup hq)
  rw [lookup, hfind]
  rfl

theorem lookup_outputs (hp : p.Of config b) (hq : q ∈ b.queries) (houtputs : q.hasOutputs = true)
    {types : List ColumnType} (htypes : q.outputs.mapM ColumnType.ofTypeExpr? = some types) :
    p.lookup (Role.outputs.ident q.name) = pure (.tuple (types.map .column)) := by
  obtain ⟨text, columns, access, -, hcolumns, -, heq⟩ := (hp.sections q hq).eq
  obtain ⟨xs, cs, hxs, hcs, -, hdenote⟩ := TypeExpr.columns_denote
    fun t ht => Query.Typed.output (hp.sound hq).supported ht
  obtain rfl := Option.some.inj (htypes.symm.trans hcs)
  obtain rfl : columns = .tuple xs := by
    rw [Query.outputTuple, hxs] at hcolumns
    exact (Except.ok.inj hcolumns).symm
  have hd : Definition.constant (Role.outputs.ident q.name) (.tuple xs) ∈
      q.definitions config := by
    rw [heq, Query.constants, if_pos houtputs]
    simp
  have hfind := hp.find?_section hq hd rfl (Book.sole_of_solitary (by decide) hp.nodup hq)
  rw [lookup, hfind]
  show Expr.eval .outside (.tuple xs) = _
  rw [Expr.eval, Expr.eval_columns hdenote Frame.outside_knowsTypes, pure_bind]

/-! ## Functions -/

theorem find?_routine (hp : p.Of config b) (htests : config.emitTests = true)
    (hq : q ∈ b.setupTargets) :
    p.find? (Role.testSetup.ident q.name) = some (.functionDef q.routine.function) := by
  refine hp.find?_scaffold (d := .functionDef q.routine.function) ?_
  rw [Book.scaffold, if_pos htests]
  exact List.mem_append_left _ (List.mem_map_of_mem hq)

end Of

end Program

/-! ## The function that runs a query for its effect -/

namespace Query

variable {config : Config} {q : Query}

/-- The function that runs a query for its effect, with these parameters. -/
def execute (q : Query) (parameters : List Argument) : Function :=
  match q.backend with
  | .embedded => Embedded.execute q parameters
  | .network => Network.execute q parameters

theorem execute_name (q : Query) (parameters : List Argument) :
    (q.execute parameters).name = Role.execute.ident q.name := by
  unfold execute
  cases q.backend <;> rfl

/-- The functions for a query on a server. -/
theorem HasSection.network_mem (h : q.HasSection config) (hg : q.backend = .network) :
    ∃ ps row, ps.map Argument.name = q.parameterNames ∧
      ∀ f ∈ (if q.hasOutputs then [Network.fromRow q row] else []) ++
          [Network.prepare q, Network.prepareCached q, Network.execute q ps,
            Network.executePrepared q ps] ++
          (if q.hasOutputs then Network.rowFunctions q ps row else []),
        .functionDef f ∈ q.definitions config := by
  obtain ⟨text, columns, access, -, -, haccess, heq⟩ := h.eq
  rw [hg] at haccess
  obtain ⟨ps, hps, haccess⟩ := bind_eq_ok_iff.mp haccess
  obtain ⟨row, -, haccess⟩ := bind_eq_ok_iff.mp haccess
  cases haccess
  refine ⟨ps, row, names_of_arguments hps, fun f hf => ?_⟩
  rw [heq]
  exact List.mem_append_right _ (List.mem_map_of_mem hf)

/-- The classes and functions for an embedded query. -/
theorem HasSection.embedded_mem (h : q.HasSection config) (hg : q.backend = .embedded) :
    ∃ ps mapper row, ps.map Argument.name = q.parameterNames ∧
      ∀ d ∈ [.classDef (Embedded.operations q ps mapper row),
          .classDef (Embedded.handle q .statement "Statement"),
          .classDef (Embedded.handle q .cachedStatement "CachedStatement"),
          .functionDef (Embedded.prepare q .prepare .statement),
          .functionDef (Embedded.prepare q .prepareCached .cachedStatement),
          .functionDef (Embedded.execute q ps)] ++
          (if q.hasOutputs then [.functionDef (Embedded.queryRow q ps mapper)] else []),
        d ∈ q.definitions config := by
  obtain ⟨text, columns, access, -, -, haccess, heq⟩ := h.eq
  rw [hg] at haccess
  obtain ⟨ps, hps, haccess⟩ := bind_eq_ok_iff.mp haccess
  obtain ⟨mapper, -, haccess⟩ := bind_eq_ok_iff.mp haccess
  obtain ⟨row, -, haccess⟩ := bind_eq_ok_iff.mp haccess
  cases haccess
  refine ⟨ps, mapper, row, names_of_arguments hps, fun d hd => ?_⟩
  rw [heq]
  exact List.mem_append_right _ hd

theorem HasSection.execute_mem (h : q.HasSection config) :
    ∃ ps, ps.map Argument.name = q.parameterNames ∧
      .functionDef (q.execute ps) ∈ q.definitions config := by
  cases hg : q.backend with
  | embedded =>
    obtain ⟨ps, mapper, row, hps, hmem⟩ := h.embedded_mem hg
    refine ⟨ps, hps, ?_⟩
    rw [execute, hg]
    exact hmem _ (by simp)
  | network =>
    obtain ⟨ps, row, hps, hmem⟩ := h.network_mem hg
    refine ⟨ps, hps, ?_⟩
    rw [execute, hg]
    exact hmem _ (by simp)

end Query

namespace Book

/-- The queries further down in the book. -/
def behind (b : Book) (q : Query) : List Query :=
  (b.queries.dropWhile fun p => p.name != q.name).tail

/-- The prepared form of a query further down has the name of the function that runs this query
for its effect. -/
def Replaced (b : Book) (q : Query) : Prop :=
  ∃ p ∈ b.behind q, p.backend = .network ∧ q.name = "prepared_" ++ p.name

instance (b : Book) (q : Query) : Decidable (b.Replaced q) :=
  inferInstanceAs (Decidable (∃ p ∈ _, _))

theorem behind_eq {b : Book} (h : b.names.Nodup) {q : Query} {before after : List Query}
    (heq : b.queries = before ++ q :: after) : b.behind q = after := by
  have hbefore : ∀ p ∈ before, (p.name != q.name) = true := by
    intro p hp
    rw [names, heq, List.map_append, List.map_cons, List.nodup_append] at h
    exact bne_iff_ne.mpr (h.2.2 p.name (List.mem_map_of_mem hp) q.name List.mem_cons_self)
  rw [behind, heq, List.dropWhile_append_of_pos hbefore, List.dropWhile_cons]
  simp

end Book

namespace Program.Of

variable {config : Config} {b : Book} {p : Program} {q : Query}

/-- Where a definition with the name of the function that runs a query for its effect comes from. -/
theorem execute_cases (hp : p.Of config b) (hq : q ∈ b.queries) {x : Query} (hx : x ∈ b.queries)
    {d : Definition} (hd : d ∈ x.definitions config) (hname : d.name = Role.execute.ident q.name) :
    x = q ∨ x.backend = .network ∧ q.name = "prepared_" ++ x.name ∧
      d.name = Role.executePrepared.ident x.name := by
  obtain ⟨r, hr, hident⟩ := (hp.sections x hx).role_of_mem hd
  rcases Role.ident_eq_ident_iff.mp (hident.symm.trans hname) with
    ⟨-, hsame⟩ | ⟨s, hext, -⟩ | ⟨s, hext, hshared⟩
  · exact .inl (Book.eq_of_name hp.nodup hx hq hsame)
  · have hnone : ∀ e ∈ Role.extensions, e.2.2 ≠ .execute := by decide
    exact absurd rfl (hnone _ hext)
  · have honly : ∀ e ∈ Role.extensions, e.1 = .execute →
        e.2.1 = "prepared_" ∧ e.2.2 = .executePrepared := by decide
    obtain ⟨hs, hr'⟩ := honly _ hext rfl
    simp only at hs hr'
    subst hs hr'
    exact .inr ⟨Query.executePrepared_mem_roles.mp hr, hshared, hident⟩

/-- A query that is not replaced has its own function: nothing behind it has the name. -/
theorem find?_execute_of_not_replaced (hp : p.Of config b) (hq : q ∈ b.queries)
    (hkept : ¬ b.Replaced q) {d : Definition} (hd : d ∈ q.definitions config)
    (hname : d.name = Role.execute.ident q.name) : p.find? d.name = some d := by
  obtain ⟨before, after, hqueries⟩ := List.append_of_mem hq
  obtain ⟨first, rest, hsection⟩ := List.append_of_mem hd
  have hnodup : d.name ∉ rest.map Definition.name := by
    have hnames := (hp.sections q hq).names_nodup
    rw [hsection, List.map_append, List.map_cons, List.nodup_append] at hnames
    exact (List.nodup_cons.mp hnames.2.1).1
  -- the last definition of a name counts: the rest of the section, the queries behind and the
  -- scaffolding are what could replace this one
  have hsplit : p.definitions = (before.flatMap (Query.definitions config) ++ first) ++
      d :: (rest ++ after.flatMap (Query.definitions config) ++ b.scaffold config) := by
    rw [hp.definitions, hqueries, List.flatMap_append, List.flatMap_cons, hsection]
    simp only [List.append_assoc, List.cons_append]
  rw [find?, hsplit, List.reverse_append, List.reverse_cons, List.append_assoc,
    List.singleton_append]
  refine List.find?_eq_some_iff_append.mpr ⟨beq_self_eq_true d.name, _, _, rfl, fun d' hd' => ?_⟩
  have hne : d'.name ≠ d.name := by
    intro heq
    rw [List.mem_reverse, List.mem_append, List.mem_append, List.mem_flatMap] at hd'
    rcases hd' with (hd' | ⟨x, hx, hd'⟩) | hd'
    · exact hnodup (heq ▸ List.mem_map_of_mem hd')
    · have hmem : x ∈ b.queries := hqueries ▸ List.mem_append_right _ (List.mem_cons_of_mem _ hx)
      have hbehind : x ∈ b.behind q := Book.behind_eq hp.nodup hqueries ▸ hx
      rcases hp.execute_cases hq hmem hd' (heq.trans hname) with rfl | ⟨hg, hshared, -⟩
      · -- the query is not in the book a second time
        have hnames := hp.nodup
        rw [Book.names, hqueries, List.map_append, List.map_cons, List.nodup_append] at hnames
        exact (List.nodup_cons.mp hnames.2.1).1 (List.mem_map_of_mem hx)
      · exact hkept ⟨x, hbehind, hg, hshared⟩
    · exact hp.name_ne_scaffold hq hd hd' heq.symm
  simpa using hne

/-- **Running a query for its effect means its own function**, or the prepared form of a query
further down that has taken the name. -/
theorem find?_execute (hp : p.Of config b) (hq : q ∈ b.queries) :
    (∃ ps, ps.map Argument.name = q.parameterNames ∧
      p.find? (Role.execute.ident q.name) = some (.functionDef (q.execute ps))) ∨
    b.Replaced q ∧ ∃ x ∈ b.queries, ∃ ps, ps.map Argument.name = x.parameterNames ∧
      p.find? (Role.execute.ident q.name) = some (.functionDef (Network.executePrepared x ps)) := by
  obtain ⟨ps, hps, hd⟩ := (hp.sections q hq).execute_mem
  have hname : (Definition.functionDef (q.execute ps)).name = Role.execute.ident q.name :=
    q.execute_name ps
  by_cases hreplaced : b.Replaced q
  case neg => exact .inl ⟨ps, hps, hname ▸ hp.find?_execute_of_not_replaced hq hreplaced hd hname⟩
  have hsome : (p.find? (Role.execute.ident q.name)).isSome = true := by
    refine List.find?_isSome.mpr ⟨_, List.mem_reverse.mpr ?_, beq_iff_eq.mpr hname⟩
    rw [hp.definitions]
    exact List.mem_append_left _ (List.mem_flatMap.mpr ⟨q, hq, hd⟩)
  obtain ⟨d, hfind⟩ := Option.isSome_iff_exists.mp hsome
  have hident : d.name = Role.execute.ident q.name := by simpa using List.find?_some hfind
  have hmem := List.mem_reverse.mp (List.mem_of_find?_eq_some hfind)
  rw [hp.definitions, List.mem_append, List.mem_flatMap] at hmem
  rcases hmem with ⟨x, hx, hmem⟩ | hmem
  · rcases hp.execute_cases hq hx hmem hident with rfl | ⟨hg, -, hprepared⟩
    · have hown := (hp.sections x hx).eq_of_name hmem hd (hident.trans hname.symm)
      exact .inl ⟨ps, hps, hown ▸ hfind⟩
    · obtain ⟨ps', row, hps', hall⟩ := (hp.sections x hx).network_mem hg
      have hd' := hall (Network.executePrepared x ps') (by simp)
      have htaken := (hp.sections x hx).eq_of_name hmem hd' hprepared
      exact .inr ⟨hreplaced, x, hx, ps', hps', htaken ▸ hfind⟩
  · exact absurd (hname.trans hident.symm) (hp.name_ne_scaffold hq hd hmem)

end Program.Of

end QueryBook
