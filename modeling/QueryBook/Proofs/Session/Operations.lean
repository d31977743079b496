import QueryBook.Proofs.Session.Calls
import QueryBook.Proofs.Session.Handles

/-!
# Both kinds of handle give the same answers

The classes of an embedded query are followed to what their handles do: a method of a handle gives
the values of the parameters by name to the operation that the handle has from its library. What
the operation gives back is known from the answer of the driver, so a whole conversation with a
handle is too, whichever kind it is of.

The functions without a handle take the statement text from the module when they are called, and a
handle when it is made. They part where a parameter is called like the text.
-/

namespace QueryBook

open Run (lift)

/-! ## The classes of a module -/

namespace Embedded

/-- The kinds of handle. -/
inductive Kind where
  /-- With a cursor of its own. -/
  | owning
  /-- With a new cursor for each call. -/
  | cached

namespace Kind

/-- The role of the class of the handles. -/
def role : Kind → Role
  | owning => .statement
  | cached => .cachedStatement

/-- What the class builds on. -/
def base : Kind → String
  | owning => "Statement"
  | cached => "CachedStatement"

/-- The class of the handles. -/
def classOf (q : Query) (k : Kind) : Class := handle q k.role k.base

/-- The function that makes a handle. -/
def maker : Kind → Role
  | owning => .prepare
  | cached => .prepareCached

/-- Makes a handle. -/
def make (c : Nat) (statement : String) (types : List ColumnType) : Kind → Session Handle
  | owning => Handle.owning c statement types
  | cached => pure (.cached c statement types)

end Kind

end Embedded

namespace Program

open Embedded

section

variable {p : Program} {q : Query} {ops : Class}

theorem class?_of_find? {name : String} {c : Class} (h : p.find? name = some (.classDef c)) :
    p.class? name = some c := by
  rw [class?, h]

variable (hops : p.class? (Role.statementOps.ident q.name) = some ops) (k : Kind)
include hops

theorem lineage_classOf : p.lineage (k.classOf q) = [k.classOf q, ops] := by
  simp [lineage, Kind.classOf, handle, hops]

/-- A handle has the operations that both kinds share. -/
theorem method?_classOf (name : String) :
    p.method? (k.classOf q) name = (ops.methods.find? (·.name == name)).map fun m =>
      { m with name := s!"{ops.name}.{m.name}" } := by
  have hnone : (k.classOf q).methods = [] := rfl
  rw [method?, lineage_classOf hops, List.findSome?_cons, hnone]
  simp

theorem lookup_outputs_classOf :
    (p.lineage (k.classOf q)).findSome? (fun c => c.fields.lookup "_outputs") =
      ops.fields.lookup "_outputs" := by
  have hnone : (k.classOf q).fields = [] := rfl
  rw [lineage_classOf hops, List.findSome?_cons, hnone]
  simp

end

theorem call_classObject (p : Program) (depth : Nat) (c : Class) (args : List Object) :
    p.call depth (.classObject c) args = p.instantiate c args := by
  cases depth <;> rfl

namespace Of

variable {config : Config} {b : Book} {p : Program} {q : Query} {vs : List Value}
  {types : List ColumnType}

section

variable (hp : p.Of config b) (hq : q ∈ b.queries) (hg : q.backend = .embedded)
  (hfree : b.CollisionFree q)
include hp hq hg hfree

theorem find?_embedded :
    ∃ ps mapper row, ps.map Argument.name = q.parameterNames ∧
      ∀ d ∈ [.classDef (operations q ps mapper row),
          .classDef (Kind.owning.classOf q), .classDef (Kind.cached.classOf q),
          .functionDef (Embedded.prepare q .prepare .statement),
          .functionDef (Embedded.prepare q .prepareCached .cachedStatement),
          .functionDef (Embedded.execute q ps)] ++
          (if q.hasOutputs then [.functionDef (queryRow q ps mapper)] else []),
        p.find? d.name = some d := by
  obtain ⟨ps, mapper, row, hps, hmem⟩ := (hp.sections q hq).embedded_mem hg
  exact ⟨ps, mapper, row, hps, fun d hd => hp.find?_of_collisionFree hq hfree (hmem d hd)⟩

theorem class?_operations :
    ∃ ps mapper row, ps.map Argument.name = q.parameterNames ∧
      p.class? (Role.statementOps.ident q.name) = some (operations q ps mapper row) := by
  obtain ⟨ps, mapper, row, hps, hfind⟩ := hp.find?_embedded hq hg hfree
  exact ⟨ps, mapper, row, hps,
    class?_of_find? (hfind (.classDef (operations q ps mapper row)) List.mem_cons_self)⟩

theorem outputs_classOf (htypes : q.outputs.mapM ColumnType.ofTypeExpr? = some types) (k : Kind) :
    p.outputs (k.classOf q) = pure types := by
  obtain ⟨ps, mapper, row, -, hops⟩ := hp.class?_operations hq hg hfree
  rw [outputs, lookup_outputs_classOf hops]
  cases houtputs : q.hasOutputs with
  | true =>
    have hcolumns := hp.lookup_outputs hq houtputs htypes
    simp only [operations, houtputs, if_true, List.lookup_cons, beq_self_eq_true, Expr.eval]
    show (do Run.need (← p.lookup _).columns?) = _
    rw [hcolumns, pure_bind, Object.columns?_tuple, Run.need_some]
  | false =>
    have hnone : q.outputs = [] := by simpa [Query.hasOutputs] using houtputs
    rw [hnone] at htypes
    cases htypes
    simp only [operations, houtputs]
    rfl

theorem invoke_make (htypes : q.outputs.mapM ColumnType.ofTypeExpr? = some types) (k : Kind)
    (depth c : Nat) :
    p.invoke (depth + 1) (k.maker.ident q.name) [.connection .embedded c] =
      lift (k.make c (q.text config) types >>= fun h => pure (.handle (k.classOf q) h)) := by
  obtain ⟨ps, mapper, row, -, hfind⟩ := hp.find?_embedded hq hg hfree
  have hmaker : p.find? (k.maker.ident q.name) =
      some (.functionDef (Embedded.prepare q k.maker k.role)) := by
    refine hfind (.functionDef (Embedded.prepare q k.maker k.role)) ?_
    cases k <;> simp [Kind.maker, Kind.role]
  have hclass : p.lookup (k.role.ident q.name) = pure (.classObject (k.classOf q)) := by
    have hfound : p.find? (k.role.ident q.name) = some (.classDef (k.classOf q)) := by
      refine hfind (.classDef (k.classOf q)) ?_
      cases k <;> simp
    rw [lookup, hfound]
  have hreferred : k.role ∈ Role.referred := by cases k <;> decide
  have hemits : q.Emits (Embedded.prepare q k.maker k.role) := emits_prepare hreferred
  obtain ⟨fr, hown, hmodule, hcall, happly⟩ := hemits.apply_bare (hp.sound hq) rfl rfl
    [.connection .embedded c] rfl p (p.call depth)
  have hconn : fr.lookup "conn" = pure (.connection .embedded c) := hown _ _ (.head _)
  have hsql := (hmodule _ (Role.ident_notMem_own (by decide) q.name)).trans
    (hp.lookup_sql hq (hp.sections q hq).text_eq)
  have hlookup := (hmodule _ (Role.ident_notMem_own hreferred q.name)).trans hclass
  rw [invoke_function hmaker, call_function]
  refine happly.trans ?_
  simp only [Embedded.prepare, BodyLine.runAll, Expr.eval, Expr.evalAll, hconn, hsql, hlookup,
    pure_bind, hcall, call_classObject, instantiate, Object.text?, Run.need_some,
    hp.outputs_classOf hq hg hfree htypes]
  cases k with
  | owning => exact Run.lift_bind_pure _ _
  | cached => rfl

/-! ## Operations of a handle -/

/-- What a handle has from its library is not changed by its class. -/
theorem call_operation (k : Kind) (h : Handle) {operation : String}
    (hoperation : operation ∈ ["_query_map", "_query_row", "_query", "_execute"]) (depth : Nat)
    (args : List Object) :
    p.call depth (.method (.handle (k.classOf q) h) operation) args =
      Run.onHandle (k.classOf q).name h operation args := by
  obtain ⟨ps, mapper, row, -, hops⟩ := hp.class?_operations hq hg hfree
  -- no method of the class is called like an operation of the library
  have hnone : p.method? (k.classOf q) operation = none := by
    rw [method?_classOf hops, Option.map_eq_none_iff]
    simp only [List.mem_cons, List.not_mem_nil, or_false] at hoperation
    rcases hoperation with rfl | rfl | rfl | rfl <;>
      (unfold operations; cases q.hasOutputs <;> rfl)
  cases depth <;> simp only [call, callWith, hnone] <;> rfl

end

section

variable {ps : List Argument} {mapper row : String}

theorem method_shape {m : Function} (hm : m ∈ (operations q ps mapper row).methods) :
    m.leading = [self] ∧ m.parameters = ps := by
  rcases List.mem_append.mp hm with hm | hm
  · split at hm
    · simp only [rowMethods, List.mem_cons, List.not_mem_nil, or_false] at hm
      rcases hm with rfl | rfl | rfl <;> exact ⟨rfl, rfl⟩
    · cases hm
  · obtain rfl := List.mem_singleton.mp hm
    exact ⟨rfl, rfl⟩

/-- A method of a handle runs its body on the handle, the values of the parameters and whatever
else it takes. -/
theorem call_method (hp : p.Of config b) (hq : q ∈ b.queries)
    (hps : ps.map Argument.name = q.parameterNames)
    (hops : p.class? (Role.statementOps.ident q.name) = some (operations q ps mapper row))
    (k : Kind) (h : Handle) {m : Function}
    (hm : (operations q ps mapper row).methods.find? (·.name == m.name) = some m)
    (hvs : vs.length = q.parameters.length) (after : List Object)
    (hafter : after.length = m.trailing.length) (depth : Nat) :
    ∃ fr : Frame, fr.For p q vs
        (("self", .handle (k.classOf q) h) :: (m.trailing.map Argument.name).zip after) ∧
      fr.call = p.call depth ∧
      p.call (depth + 1) (.method (.handle (k.classOf q) h) m.name) (vs.map .value ++ after) =
        BodyLine.runAll fr m.body := by
  have hmem := List.mem_of_find?_eq_some hm
  obtain ⟨hleading, hparameters⟩ := method_shape hmem
  -- the method goes by a longer name, which matters to what its errors say and to nothing else
  let f : Function := { m with name := s!"{(operations q ps mapper row).name}.{m.name}" }
  have hfind : p.method? (k.classOf q) m.name = some f := by
    rw [method?_classOf hops, hm]
    rfl
  have hemits : q.Emits f :=
    let hf := emits_operations hps m hmem
    ⟨hf.others_nodup, hf.own, hf.references, hf.parameters⟩
  obtain ⟨fr, hfr, hcall, happly⟩ := hemits.apply_eq (hp.sound hq)
    (show m.parameters.map Argument.name = _ by rw [hparameters, hps]) hvs
    [.handle (k.classOf q) h] after (show 1 = m.leading.length by rw [hleading]; rfl) hafter p
    (p.call depth)
  refine ⟨fr, ?_, hcall, ?_⟩
  · have hown : (f.leading.map Argument.name).zip [Object.handle (k.classOf q) h] =
        [("self", .handle (k.classOf q) h)] := by
      show (m.leading.map Argument.name).zip _ = _
      rw [hleading]
      rfl
    rw [hown] at hfr
    exact hfr
  · refine Eq.trans ?_ happly
    simp only [call, callWith, hfind]
    rfl

end

variable (hp : p.Of config b) (hq : q ∈ b.queries) (hg : q.backend = .embedded)
  (hfree : b.CollisionFree q) (hvs : vs.length = q.parameters.length) (k : Kind) (h : Handle)
  (depth : Nat)
include hp hq hg hfree hvs

/-- **Such a method leaves everything to the operation that the handle has from its library.** -/
theorem call_forwarded (name operation : String) (more : List String)
    (hmethod : ∀ ps mapper row, ∃ trailing result, trailing.map Argument.name = more ∧
      (operations q ps mapper row).methods.find? (·.name == name) =
        some (method name ps trailing result [onSelf operation
          (q.valueMapping :: more.map .argument)]))
    (hoperation : operation ∈ ["_query_map", "_query_row", "_query", "_execute"])
    (after : List Object) (hafter : after.length = more.length) :
    p.call (depth + 1) (.method (.handle (k.classOf q) h) name) (vs.map .value ++ after) =
      Run.onHandle (k.classOf q).name h operation
        (.mapping (q.parameterNames.zip (vs.map .value)) :: after) := by
  obtain ⟨ps, mapper, row, hps, hops⟩ := hp.class?_operations hq hg hfree
  obtain ⟨trailing, result, rfl, hmethod⟩ := hmethod ps mapper row
  rw [List.length_map] at hafter
  obtain ⟨fr, hfr, hcall, hrun⟩ := hp.call_method hq hps hops k h
    (m := method name ps trailing result _) hmethod hvs after hafter depth
  have hself : fr.lookup "self" = pure (.handle (k.classOf q) h) := hfr.own _ _ (.head _)
  have hmore : Expr.evalAll fr ((trailing.map Argument.name).map .argument) = pure after :=
    Expr.evalAll_arguments (by rw [hafter, List.length_map]) fun x hx =>
      hfr.own x.1 x.2 (List.mem_cons_of_mem _ hx)
  refine hrun.trans ?_
  simp only [method, onSelf, BodyLine.runAll, Expr.eval, Expr.evalAll, hself,
    hfr.eval_valueMapping hvs, hmore, pure_bind, hcall, Object.member,
    hp.call_operation hq hg hfree k h hoperation]

theorem call_execute :
    p.call (depth + 1) (.method (.handle (k.classOf q) h) "execute") (vs.map .value) =
      lift (h.execute (q.parameterNames.zip vs) >>= fun n => pure (.value (.int n))) := by
  have hcall := hp.call_forwarded hq hg hfree hvs k h depth "execute" "_execute" []
    (fun ps mapper row => ⟨[], _, rfl, by unfold operations; cases q.hasOutputs <;> rfl⟩)
    (by decide) [] rfl
  rw [List.append_nil] at hcall
  simp only [hcall, Run.onHandle, Object.named?_mapping, Run.need_some, pure_bind,
    Run.lift_bind_pure]

variable (houtputs : q.hasOutputs = true)
include houtputs

theorem call_queryRow (f : Mapper) :
    p.call (depth + 1) (.method (.handle (k.classOf q) h) "query_row")
        (vs.map .value ++ [.mapper f]) =
      lift (h.firstRow (q.parameterNames.zip vs) f >>= fun v => pure (.value v)) := by
  have hcall := hp.call_forwarded hq hg hfree hvs k h depth "query_row" "_query_row" ["f"]
    (fun ps mapper row => ⟨[⟨"f", some mapper⟩], _, rfl, by rw [operations, houtputs]; rfl⟩)
    (by decide) [.mapper f] rfl
  simp only [hcall, Run.onHandle, Object.named?_mapping, Run.need_some, pure_bind,
    Run.lift_bind_pure]

theorem call_query :
    p.call (depth + 1) (.method (.handle (k.classOf q) h) "query") (vs.map .value) =
      lift (h.rows (q.parameterNames.zip vs) Mapper.columns >>= fun r => pure (.rows r)) := by
  have hcall := hp.call_forwarded hq hg hfree hvs k h depth "query" "_query" []
    (fun ps mapper row => ⟨[], _, rfl, by rw [operations, houtputs]; rfl⟩) (by decide) [] rfl
  rw [List.append_nil] at hcall
  simp only [hcall, Run.onHandle, Object.named?_mapping, Run.need_some, pure_bind,
    Run.lift_bind_pure]

theorem call_queryMap (f : Mapper) :
    p.call (depth + 1) (.method (.handle (k.classOf q) h) "query_map")
        (vs.map .value ++ [.mapper f]) =
      lift (h.rows (q.parameterNames.zip vs) f >>= fun r => pure (.rows r)) := by
  have hcall := hp.call_forwarded hq hg hfree hvs k h depth "query_map" "_query_map" ["f"]
    (fun ps mapper row => ⟨[⟨"f", some mapper⟩], _, rfl, by rw [operations, houtputs]; rfl⟩)
    (by decide) [.mapper f] rfl
  simp only [hcall, Run.onHandle, Object.named?_mapping, Run.need_some, pure_bind,
    Run.lift_bind_pure]

end Of

/-! ## Functions without a handle -/

namespace Of

variable {config : Config} {b : Book} {p : Program} {q : Query} {vs : List Value}

variable (hp : p.Of config b) (hq : q ∈ b.queries) (hg : q.backend = .embedded)
  (hfree : b.CollisionFree q) (hcaptures : ¬ q.Captures) (hvs : vs.length = q.parameters.length)
  (depth c : Nat)
include hp hq hg hfree hcaptures hvs

theorem invoke_execute :
    p.invoke (depth + 1) (Role.execute.ident q.name) (.connection .embedded c :: vs.map .value) =
      lift (Session.executeFile c (q.text config) (q.parameterNames.zip vs) >>= fun n =>
        pure (.value (.int n))) := by
  obtain ⟨ps, mapper, row, hps, hfind⟩ := hp.find?_embedded hq hg hfree
  have hexecute : p.find? (Role.execute.ident q.name) =
      some (.functionDef (Embedded.execute q ps)) :=
    hfind (.functionDef (Embedded.execute q ps)) (by simp)
  have htext := Query.ident_notMem_of_not_captures hcaptures List.mem_cons_self
  rw [invoke_function hexecute,
    hp.call_embedded_execute hq (hp.sections q hq).text_eq hps hvs,
    Query.statementValue_of_not_mem htext]
  simp only [Object.text?, Run.need_some, pure_bind, Run.lift_bind_pure]

theorem invoke_queryRow {types : List ColumnType} (houtputs : q.hasOutputs = true)
    (htypes : q.outputs.mapM ColumnType.ofTypeExpr? = some types) (f : Mapper) :
    p.invoke (depth + 1) (Role.queryRow.ident q.name)
        (.connection .embedded c :: (vs.map .value ++ [.mapper f])) =
      lift (Session.firstRowFile c (q.text config) (q.parameterNames.zip vs) types f >>= fun v =>
        pure (.value v)) := by
  obtain ⟨ps, mapper, row, hps, hfind⟩ := hp.find?_embedded hq hg hfree
  have hqueryRow : p.find? (Role.queryRow.ident q.name) =
      some (.functionDef (Embedded.queryRow q ps mapper)) :=
    hfind (.functionDef (Embedded.queryRow q ps mapper)) (by simp [houtputs])
  obtain ⟨fr, hfr, hcall, happly⟩ := (emits_queryRow hg houtputs hps).apply_eq (hp.sound hq) hps
    hvs [.connection .embedded c] [.mapper f] rfl rfl p (p.call depth)
  have hconn : fr.lookup "conn" = pure (.connection .embedded c) := hfr.own _ _ (.head _)
  have hmapper : fr.lookup "f" = pure (.mapper f) := hfr.own _ _ (.tail _ (.head _))
  have hlibrary : fr.lookup "_sqlite" = pure (.library .embedded) :=
    (hfr.lookup_runtime (hp.sound hq) (by decide)).trans (hp.lookup_foreign (by decide))
  have hsql := (hfr.lookup_ident (by decide)
    (Query.ident_notMem_of_not_captures hcaptures List.mem_cons_self)).trans
    (hp.lookup_sql hq (hp.sections q hq).text_eq)
  have hcolumns := (hfr.lookup_ident (by decide) (Query.ident_notMem_of_not_captures hcaptures
    (Query.outputs_mem_referred hg houtputs))).trans (hp.lookup_outputs hq houtputs htypes)
  rw [invoke_function hqueryRow, call_function]
  refine happly.trans ?_
  simp only [queryRow, library, BodyLine.runAll, Expr.eval, Expr.evalAll, hlibrary, hconn, hsql,
    hcolumns, hmapper, hfr.eval_valueMapping hvs, pure_bind, hcall, Object.member, call_library,
    Library.invoke, Object.text?, Object.named?_mapping, Object.columns?_tuple, Run.need_some,
    Run.lift_bind_pure, Run.lift_bind, Session.firstRowFile, bind_assoc]

end Of

end Program

/-! ## Conversations with a handle -/

namespace Run

variable {α β : Type} (x : Session α) (f : α → β) (m : Memory)

theorem outcome_lift_map :
    (lift (x >>= fun a => pure (f a))).outcome m = (Session.outcome x m.world).map f := by
  rw [outcome_lift, Session.outcome, Session.outcome, Session.bind_apply]
  cases x m.world <;> rfl

theorem after_lift_map :
    (lift (x >>= fun a => pure (f a))).after m = { m with world := Session.after x m.world } := by
  unfold after lift Session.after
  rw [Session.bind_apply]
  cases x m.world <;> rfl

end Run

/-- What is asked of a handle. After a call that returns rows, so many of them are asked for before
the next call. -/
inductive Handle.Request where
  | execute (values : List Value)
  | firstRow (values : List Value) (f : Mapper)
  | rows (values : List Value) (asked : Nat)
  | mappedRows (values : List Value) (f : Mapper) (asked : Nat)

/-- What comes back. -/
inductive Handle.Reply where
  | returned (result : Except Failure Object)
  /-- What came of asking for a row, one time after another. -/
  | items (results : List (Except Failure (Option Value)))

namespace Handle.Request

/-- The values of the parameters in a request. -/
def values : Request → List Value
  | execute values | firstRow values _ | rows values _ | mappedRows values _ _ => values

/-- Whether rows are expected. -/
def expectsRows : Request → Bool
  | execute _ => false
  | firstRow .. | rows .. | mappedRows .. => true

/-- Each parameter gets a value, and the query has the operation. -/
def Suits (q : Query) (r : Request) : Prop :=
  r.values.length = q.parameters.length ∧ (r.expectsRows = true → q.hasOutputs = true)

end Handle.Request

namespace Program

open Handle (Request Reply)

/-- Calls an operation of a handle. -/
def operate (p : Program) (handle : Object) (name : String) (args : List Object) : Run Object :=
  p.call p.depth (.method handle name) args

/-- Asks for so many of the rows that a call returned. -/
def askRows (x : Run Object) (asked : Nat) (m : Memory) : Reply × Memory :=
  match x m with
  | .ok (.rows r) m' =>
    let (items, w) := r.ask asked m'.world
    (.items items, { m' with world := w })
  | .ok o m' => (.returned (.ok o), m')
  | .error e m' => (.returned (.error e), m')

/-- Answers a request. -/
def reply (p : Program) (handle : Object) (m : Memory) : Request → Reply × Memory
  | .execute vs =>
    let x := p.operate handle "execute" (vs.map .value)
    (.returned (x.outcome m), x.after m)
  | .firstRow vs f =>
    let x := p.operate handle "query_row" (vs.map .value ++ [.mapper f])
    (.returned (x.outcome m), x.after m)
  | .rows vs asked => askRows (p.operate handle "query" (vs.map .value)) asked m
  | .mappedRows vs f asked =>
    askRows (p.operate handle "query_map" (vs.map .value ++ [.mapper f])) asked m

/-- Answers one request after another. -/
def converse (p : Program) (handle : Object) : List Request → Memory → List Reply × Memory
  | [], m => ([], m)
  | r :: rest, m =>
    let (first, m') := p.reply handle m r
    let (others, m'') := p.converse handle rest m'
    (first :: others, m'')

theorem converse_cons (p : Program) (handle : Object) (r : Request) (rest : List Request)
    (m : Memory) :
    p.converse handle (r :: rest) m =
      ((p.reply handle m r).1 :: (p.converse handle rest (p.reply handle m r).2).1,
        (p.converse handle rest (p.reply handle m r).2).2) := rfl

end Program

namespace Answer

/-- What rows and asking for so many of them give back. -/
def listed (a : Answer) (types : List ColumnType) (f : Mapper) (asked : Nat) : Handle.Reply :=
  match a.fetched with
  | .error e => .returned (.error e)
  | .ok rows => .items (f.items types rows asked)

/-- What comes back to a request when this is the answer to its statement. -/
def reply (a : Answer) (statement : String) (types : List ColumnType) :
    Handle.Request → Handle.Reply
  | .execute _ => .returned ((a.effect statement).map fun n => .value (.int n))
  | .firstRow _ f => .returned ((a.first statement (f.readInLoop types statement)).map .value)
  | .rows _ asked => a.listed types Mapper.columns asked
  | .mappedRows _ f asked => a.listed types f asked

/-- What comes back to one request after another. Each takes the next answer. -/
def replies (statement : String) (types : List ColumnType) :
    List Handle.Request → List Answer → List Handle.Reply
  | [], _ => []
  | r :: rest, answers =>
    (answers.head?.getD {}).reply statement types r :: replies statement types rest answers.tail

end Answer

namespace Program

open Embedded

theorem askRows_spec {h : Handle} {m : Memory} (hready : h.Ready m.world)
    (values : List (String × Value)) (f : Mapper) (asked : Nat) :
    let answered := askRows (lift (h.rows values f >>= fun r => pure (.rows r))) asked m
    answered.1 = m.world.answer.listed h.outputs f asked ∧
      h.Sent values m.world answered.2.world := by
  intro answered
  obtain ⟨r, w', hsent, htypes, hmapper, hopen, hrows⟩ := Handle.rows_cases hready values f
  simp only [answered, askRows, lift, Session.bind_apply, Answer.listed, Answer.fetched, hrows]
  cases herror : m.world.answer.error with
  | some e => exact ⟨rfl, hsent⟩
  | none =>
    obtain ⟨hr, hleft⟩ := hopen herror
    obtain ⟨hitems, hstill⟩ := Rows.ask_spec hr asked
    rw [hleft, htypes, hmapper] at hitems
    exact ⟨congrArg Handle.Reply.items hitems, hsent.still hstill⟩

namespace Of

variable {config : Config} {b : Book} {p : Program} {q : Query}

variable (hp : p.Of config b) (hq : q ∈ b.queries) (hg : q.backend = .embedded)
  (hfree : b.CollisionFree q) (k : Kind)
include hp hq hg hfree

theorem operate_execute (h : Handle) (vs : List Value) (hvs : vs.length = q.parameters.length) :
    p.operate (.handle (k.classOf q) h) "execute" (vs.map .value) =
      lift (h.execute (q.parameterNames.zip vs) >>= fun n => pure (.value (.int n))) :=
  hp.call_execute hq hg hfree hvs k h (p.definitions.length + 1)

theorem operate_queryRow (h : Handle) (vs : List Value) (hvs : vs.length = q.parameters.length)
    (houtputs : q.hasOutputs = true) (f : Mapper) :
    p.operate (.handle (k.classOf q) h) "query_row" (vs.map .value ++ [.mapper f]) =
      lift (h.firstRow (q.parameterNames.zip vs) f >>= fun v => pure (.value v)) :=
  hp.call_queryRow hq hg hfree hvs k h (p.definitions.length + 1) houtputs f

variable {h : Handle} {m : Memory} (hready : h.Ready m.world)
include hready

/-- **What a handle gives back is decided by the answer to its statement**, of whichever kind it
is. -/
theorem reply_eq {r : Handle.Request} (hr : r.Suits q) :
    let replied := p.reply (.handle (k.classOf q) h) m r
    replied.1 = m.world.answer.reply h.statement h.outputs r ∧
      h.Sent (q.parameterNames.zip r.values) m.world replied.2.world := by
  obtain ⟨hvs, houtputs⟩ := hr
  cases r with
  | execute vs =>
    obtain ⟨houtcome, hsent⟩ := Handle.execute_spec hready (q.parameterNames.zip vs)
    simp only [reply, hp.operate_execute hq hg hfree k h vs hvs, Run.outcome_lift_map,
      Run.after_lift_map, houtcome]
    exact ⟨rfl, hsent⟩
  | firstRow vs f =>
    obtain ⟨houtcome, hsent⟩ := Handle.firstRow_spec hready (q.parameterNames.zip vs) f
    simp only [reply, hp.operate_queryRow hq hg hfree k h vs hvs (houtputs rfl) f,
      Run.outcome_lift_map, Run.after_lift_map, houtcome]
    exact ⟨rfl, hsent⟩
  | rows vs asked =>
    have hcall : p.operate (.handle (k.classOf q) h) "query" (vs.map .value) =
        lift (h.rows (q.parameterNames.zip vs) Mapper.columns >>= fun r => pure (.rows r)) :=
      hp.call_query hq hg hfree hvs k h (p.definitions.length + 1) (houtputs rfl)
    simp only [reply, hcall]
    exact askRows_spec hready _ Mapper.columns asked
  | mappedRows vs f asked =>
    have hcall : p.operate (.handle (k.classOf q) h) "query_map" (vs.map .value ++ [.mapper f]) =
        lift (h.rows (q.parameterNames.zip vs) f >>= fun r => pure (.rows r)) :=
      hp.call_queryMap hq hg hfree hvs k h (p.definitions.length + 1) (houtputs rfl) f
    simp only [reply, hcall]
    exact askRows_spec hready _ f asked

/-- **A whole conversation is decided by the answers.** -/
theorem converse_eq {rs : List Handle.Request} (hrs : ∀ r ∈ rs, r.Suits q) :
    let talked := p.converse (.handle (k.classOf q) h) rs m
    talked.1 = Answer.replies h.statement h.outputs rs m.world.answers ∧
      talked.2.world.sent = m.world.sent ++
        rs.map (fun r => (h.connection, h.command (q.parameterNames.zip r.values))) ∧
      h.Ready talked.2.world := by
  induction rs generalizing m with
  | nil => exact ⟨rfl, (List.append_nil _).symm, hready⟩
  | cons r rs ih =>
    rw [List.forall_mem_cons] at hrs
    obtain ⟨hreply, hsent⟩ := hp.reply_eq hq hg hfree k hready hrs.1
    -- one answer is gone, and the handle can be called again
    obtain ⟨hreplies, hsents, hready'⟩ := ih (hready.of_lines hsent.lines) hrs.2
    simp only [converse_cons]
    refine ⟨?_, ?_, hready'⟩
    · rw [hreply, hreplies, hsent.answers]
      rfl
    · rw [hsents, hsent.sent, List.append_assoc]
      rfl

end Of

/-! ## Agreement -/

/-- Two ways to run a statement return the same, and both send it and nothing else. -/
def SameRun (sent : Nat × Command) (x y : Run Object) (m m' : Memory) : Prop :=
  x.outcome m = y.outcome m' ∧ (x.after m).world.sent = m.world.sent ++ [sent] ∧
    (y.after m').world.sent = m'.world.sent ++ [sent]

/-- A call of the handle now does what the function without a handle does when it gets the same
answer. -/
def CallsAgree (p : Program) (q : Query) (statement : String) (c : Nat) (handle : Object)
    (m : Memory) : Prop :=
  ∀ vs : List Value, vs.length = q.parameters.length → ∀ m' : Memory,
    m'.world.answer = m.world.answer →
    let sent : Nat × Command :=
      (c, { text := statement, arguments := .byName (q.parameterNames.zip vs) })
    SameRun sent (p.operate handle "execute" (vs.map .value))
      (p.invoke p.depth (Role.execute.ident q.name) (.connection .embedded c :: vs.map .value))
      m m' ∧
    (q.hasOutputs = true → ∀ f : Mapper, f.GoesOn →
      SameRun sent (p.operate handle "query_row" (vs.map .value ++ [.mapper f]))
        (p.invoke p.depth (Role.queryRow.ident q.name)
          (.connection .embedded c :: (vs.map .value ++ [.mapper f]))) m m')

end Program

/-- A handle for a statement over a connection. -/
structure Handle.Carries (c : Nat) (statement : String) (types : List ColumnType) (h : Handle) :
    Prop where
  connection : h.connection = c
  statement : h.statement = statement
  outputs : h.outputs = types

/-- A new handle is ready, and nothing is sent to make it. -/
theorem Embedded.Kind.make_apply (k : Kind) (c : Nat) (statement : String)
    (types : List ColumnType) (w : World) :
    ∃ h w', k.make c statement types w = .ok h w' ∧ h.Carries c statement types ∧ h.Ready w' ∧
      w'.answers = w.answers ∧ w'.sent = w.sent := by
  cases k with
  | owning =>
    refine ⟨_, w.withCursor c, rfl, ⟨rfl, rfl, rfl⟩, ?_, rfl, ?_⟩
    · rintro id ⟨⟩
      simp [World.lines, World.withCursor]
    · simp [World.sent, World.withCursor, Event.sent?]
  | cached =>
    refine ⟨_, w, rfl, ⟨rfl, rfl, rfl⟩, ?_, rfl, rfl⟩
    intro id hid
    cases hid

namespace Program

open Embedded

namespace Of

variable {config : Config} {b : Book} {p : Program} {q : Query} {types : List ColumnType}

variable (hp : p.Of config b) (hq : q ∈ b.queries) (hg : q.backend = .embedded)
  (hfree : b.CollisionFree q) (htypes : q.outputs.mapM ColumnType.ofTypeExpr? = some types)
  (k : Kind)
include hp hq hg hfree htypes

/-- Making a handle of either kind. -/
theorem made (c : Nat) (m : Memory) :
    ∃ h m', p.invoke p.depth (k.maker.ident q.name) [.connection .embedded c] m =
        .ok (.handle (k.classOf q) h) m' ∧ h.Carries c (q.text config) types ∧ h.Ready m'.world ∧
      m'.world.answers = m.world.answers ∧ m'.world.sent = m.world.sent := by
  obtain ⟨h, w', hmake, hrest⟩ := k.make_apply c (q.text config) types m.world
  refine ⟨h, { m with world := w' }, ?_, hrest⟩
  rw [depth, hp.invoke_make hq hg hfree htypes, lift, Session.bind_apply, hmake]
  rfl

theorem callsAgree {h : Handle} {c : Nat} (hcarries : h.Carries c (q.text config) types)
    (hcaptures : ¬ q.Captures) {m : Memory} (hready : h.Ready m.world) :
    p.CallsAgree q (q.text config) c (.handle (k.classOf q) h) m := by
  intro vs hvs m' hanswer sent
  have hcommand : (h.connection, h.command (q.parameterNames.zip vs)) = sent := by
    rw [Handle.command, hcarries.connection, hcarries.statement]
  constructor
  · obtain ⟨houtcome, hsent⟩ := Handle.execute_spec hready (q.parameterNames.zip vs)
    obtain ⟨houtcome', hsent'⟩ := Session.executeFile_spec c (q.text config)
      (q.parameterNames.zip vs) m'.world
    rw [SameRun, hp.operate_execute hq hg hfree k h vs hvs, depth,
      hp.invoke_execute hq hg hfree hcaptures hvs]
    simp only [Run.outcome_lift_map, Run.after_lift_map]
    refine ⟨?_, hcommand ▸ hsent.sent, hsent'⟩
    rw [houtcome, houtcome', hanswer, hcarries.statement]
  · intro houtputs f hf
    obtain ⟨houtcome, hsent⟩ := Handle.firstRow_spec hready (q.parameterNames.zip vs) f
    obtain ⟨houtcome', hsent'⟩ := Session.firstRowFile_spec c (q.text config)
      (q.parameterNames.zip vs) types f m'.world
    rw [SameRun, hp.operate_queryRow hq hg hfree k h vs hvs houtputs f, depth,
      hp.invoke_queryRow hq hg hfree hcaptures hvs _ c houtputs htypes f]
    simp only [Run.outcome_lift_map, Run.after_lift_map]
    refine ⟨?_, hcommand ▸ hsent.sent, hsent'⟩
    rw [houtcome, houtcome', hanswer, hf.readInLoop_eq, hcarries.statement, hcarries.outputs]

end Of

/-- **Both kinds of handle give the same answers**, for a query that no other query gets in the way
of. Whatever is asked of a handle with a cursor of its own and of one without, the same comes back
from both, and both send the query's statement once for each request. At any point of the
conversation a call of either does what the function without a handle does, unless a parameter gets
in the way. -/
theorem handles_agree {config : Config} {b : Book} {m : Module} {q : Query}
    (hb : b.check = .ok ()) (hm : (Module.build config .standard b).outcome = .ok m)
    (hq : q ∈ b.queries) (hg : q.backend = .embedded) (hfree : b.CollisionFree q) (c : Nat)
    (memory : Memory) :
    let p := ofModule m
    let conn : Object := .connection .embedded c
    ∃ owning m₁ cached m₂,
      p.invoke p.depth (Role.prepare.ident q.name) [conn] memory = .ok owning m₁ ∧
      p.invoke p.depth (Role.prepareCached.ident q.name) [conn] memory = .ok cached m₂ ∧
      ∀ rs : List Handle.Request, (∀ r ∈ rs, r.Suits q) →
        let sent := memory.world.sent ++ rs.map fun r =>
          (c, { text := q.text config, arguments := .byName (q.parameterNames.zip r.values) })
        let talk := p.converse owning rs m₁
        let talk' := p.converse cached rs m₂
        talk.1 = talk'.1 ∧ talk.2.world.sent = sent ∧ talk'.2.world.sent = sent ∧
        (¬ q.Captures →
          p.CallsAgree q (q.text config) c owning talk.2 ∧
          p.CallsAgree q (q.text config) c cached talk'.2) := by
  intro p conn
  have hp : p.Of config b := of_build hb hm
  obtain ⟨-, types, -, htypes, -, -⟩ := TypeExpr.columns_denote
    fun t ht => Query.Typed.output (hp.sound hq).supported ht
  obtain ⟨h, m₁, hmade, hcarries, hready, hanswers, hsent⟩ :=
    hp.made hq hg hfree htypes .owning c memory
  obtain ⟨h', m₂, hmade', hcarries', hready', hanswers', hsent'⟩ :=
    hp.made hq hg hfree htypes .cached c memory
  refine ⟨_, m₁, _, m₂, hmade, hmade', fun rs hrs => ?_⟩
  obtain ⟨hreplies, hsents, hready⟩ := hp.converse_eq hq hg hfree .owning hready hrs
  obtain ⟨hreplies', hsents', hready'⟩ := hp.converse_eq hq hg hfree .cached hready' hrs
  refine ⟨?_, ?_, ?_, fun hcaptures => ⟨?_, ?_⟩⟩
  · rw [hreplies, hreplies', hanswers, hanswers', hcarries.statement, hcarries.outputs,
      hcarries'.statement, hcarries'.outputs]
  · rw [hsents, hsent]
    simp only [Handle.command, hcarries.connection, hcarries.statement]
  · rw [hsents', hsent']
    simp only [Handle.command, hcarries'.connection, hcarries'.statement]
  · exact hp.callsAgree hq hg hfree htypes .owning hcarries hcaptures hready
  · exact hp.callsAgree hq hg hfree htypes .cached hcarries' hcaptures hready'

end Program

/-- A query for numbers. -/
def Query.ages : Query :=
  { name := "ages", backend := .embedded, named := false, parameters := [⟨"name", ⟨"str", []⟩⟩]
    outputs := [⟨"int", []⟩], statement := "SELECT age FROM pets WHERE name = :name"
    dependencies := none, line := 1 }

/-- Two rows are asked for, of which the second is no number. Another is left when the handle is
called again, this time for an effect, and rows come back. -/
theorem Program.handles_agree_half_read :
    let b : Book := { queries := [.ages], sourceName := "ages" }
    let rs : List Handle.Request := [.rows [.text "Max"] 2, .execute [.text "Tom"]]
    let memory : Memory :=
      { world :=
          { answers := [{ rows := some [[.int 3], [.null], [.int 5]] }, { rows := some [] }]
            environment := [] } }
    let replies : List Handle.Reply :=
      [.items [.ok (some (.row [.int 3])), .error (.rows (.decode 0 "int" .null none))],
        .returned (.error (.rows (.executeReturnedRows (some Query.ages.statement))))]
    ∃ m, (Module.build {} .standard b).outcome = .ok m ∧
      let p := ofModule m
      ∃ owning m₁ cached m₂,
        p.invoke p.depth "prepare_ages" [.connection .embedded 1] memory = .ok owning m₁ ∧
        p.invoke p.depth "prepare_cached_ages" [.connection .embedded 1] memory = .ok cached m₂ ∧
        (p.converse owning rs m₁).1 = replies ∧ (p.converse cached rs m₂).1 = replies ∧
        p.CallsAgree .ages Query.ages.statement 1 owning (p.converse owning rs m₁).2 := by
  intro b rs memory replies
  have hb : b.check = .ok () := rfl
  obtain ⟨m, hm⟩ := Module.exists_build_of_check hb {} rfl
  have hp := of_build hb hm
  have hfree : b.CollisionFree .ages := by decide
  obtain ⟨owning, m₁, cached, m₂, howning, hcached, hagree⟩ :=
    handles_agree hb hm (q := .ages) List.mem_cons_self rfl hfree 1 memory
  have hsuits : ∀ r ∈ rs, r.Suits .ages := by
    simp [rs, Handle.Request.Suits, Handle.Request.values, Handle.Request.expectsRows, Query.ages,
      Query.hasOutputs]
  obtain ⟨hsame, -, -, hcalls⟩ := hagree rs hsuits
  -- the handle without a cursor is known, and so is what comes of the answers
  obtain ⟨h, m', hmade, hcarries, hready, hanswers, -⟩ :=
    hp.made (q := .ages) List.mem_cons_self rfl hfree rfl .cached 1 memory
  obtain ⟨rfl, rfl⟩ := EStateM.Result.ok.inj (hcached.symm.trans hmade)
  have hreplies : ((ofModule m).converse (.handle (Embedded.Kind.cached.classOf .ages) h) rs m₂).1 =
      replies := by
    rw [(hp.converse_eq List.mem_cons_self rfl hfree .cached hready hsuits).1, hanswers,
      hcarries.statement, hcarries.outputs]
    rfl
  exact ⟨m, hm, owning, m₁, _, m₂, howning, hcached, hsame.trans hreplies, hreplies,
    (hcalls (by decide)).1⟩

/-- **The function without a handle sends what the caller chooses**, if a parameter is called like
the statement text, and the handle sends the statement. -/
theorem Program.execute_sends_chosen_statement :
    let q : Query :=
      { name := "q", backend := .embedded, named := false, parameters := [⟨"SQL_q", ⟨"str", []⟩⟩]
        outputs := [], statement := "DELETE FROM t", dependencies := none, line := 1 }
    let b : Book := { queries := [q], sourceName := "captured" }
    let memory : Memory := { world := { answers := [], environment := [] } }
    let values : Arguments := .byName [("SQL_q", .text "SELECT 1")]
    b.check = .ok () ∧ ∃ m, (Module.build {} .standard b).outcome = .ok m ∧
      let p := ofModule m
      ∃ handle m₁, p.invoke p.depth "prepare_q" [.connection .embedded 1] memory = .ok handle m₁ ∧
        ((p.operate handle "execute" [.value (.text "SELECT 1")]).after m₁).world.sent =
          [(1, { text := "DELETE FROM t", arguments := values })] ∧
        ((p.invoke p.depth "execute_q"
          [.connection .embedded 1, .value (.text "SELECT 1")]).after memory).world.sent =
          [(1, { text := "SELECT 1", arguments := values })] := by
  intro q b memory values
  have hb : b.check = .ok () := rfl
  obtain ⟨m, hm⟩ := Module.exists_build_of_check hb {} rfl
  refine ⟨hb, m, hm, ?_⟩
  have hdefinitions := (of_build hb hm).definitions
  generalize ofModule m = p at hdefinitions
  obtain ⟨ds, es⟩ := p
  subst hdefinitions
  exact ⟨_, _, rfl, rfl, rfl⟩

end QueryBook
