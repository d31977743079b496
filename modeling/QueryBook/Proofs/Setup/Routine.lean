import QueryBook.Proofs.Session.Calls

/-!
# What a setup routine does

A setup routine leaves at once if its query is marked. Otherwise it marks the query, calls the
routines of the dependencies, draws a value for each parameter and runs the query. Rows of an
embedded query are passed over. An error of the driver is reported for the query whose statement
failed and goes on its way: the calls of the dependencies stand outside of what is guarded, so that
no other routine reports it.

All routines of a run share one memory, of which they change three things: the databases, one byte
source and one set of names. `SetupState` keeps these apart from the rest.
-/

namespace QueryBook

open Setup
open Run (lift)

/-- A computation that is a session, with what is done about its failures. -/
theorem Run.tryCatch_apply {α : Type} {x : Run α} {h : Failure → Run α} {y : Session α}
    {z : Failure → Session α} {m m' : Memory} (hx : x m = lift y m') (hh : ∀ e, h e = lift (z e)) :
    tryCatch x h m = lift (tryCatch y z) m' := by
  show EStateM.tryCatch x h m = lift (EStateM.tryCatch y z) m'
  unfold EStateM.tryCatch
  rw [hx]
  simp only [hh, lift]
  cases y m'.world with
  | ok a w => rfl
  | error e w => rfl

/-! ## What routines share -/

/-- What setup routines work on: the databases, a byte source and the marks. -/
structure SetupState where
  world : World
  source : ByteSource
  visited : List String

/-- The memory that has this for its byte source `u` and its set of names `k`. -/
def SetupState.within (s : SetupState) (m : Memory) (u k : Nat) : Memory :=
  { m with
    world := s.world
    sources := m.sources.set u s.source
    nameSets := m.nameSets.set k s.visited }

/-- A memory has a byte source `u` and a set of names `k`. -/
structure Memory.Has (m : Memory) (u k : Nat) : Prop where
  source : u < m.sources.length
  names : k < m.nameSets.length

namespace SetupState

variable {s : SetupState} {m : Memory} {u k : Nat}

theorem source_apply (hm : m.Has u k) :
    Run.source u (s.within m u k) = .ok s.source (s.within m u k) := by
  show Run.need (m.sources.set u s.source)[u]? _ = _
  rw [List.getElem?_set_self hm.source]
  rfl

theorem names_apply (hm : m.Has u k) :
    Run.names k (s.within m u k) = .ok s.visited (s.within m u k) := by
  show Run.need (m.nameSets.set k s.visited)[k]? _ = _
  rw [List.getElem?_set_self hm.names]
  rfl

theorem lift_apply {α : Type} (x : Session α) :
    lift x (s.within m u k) = match x s.world with
      | .ok a w => .ok a (({ s with world := w } : SetupState).within m u k)
      | .error e w => .error e (({ s with world := w } : SetupState).within m u k) := by
  unfold lift within
  cases x s.world <;> rfl

/-- Drawing a value moves the byte source on. -/
theorem onSource_apply (hm : m.Has u k) (t : ColumnType) :
    Run.onSource u "arbitrary" [.column t] (s.within m u k) =
      .ok (.value (s.source.draw t).1)
        (({ s with source := (s.source.draw t).2 } : SetupState).within m u k) := by
  show (Run.source u >>= _) _ = _
  rw [Session.bind_apply, source_apply hm]
  show EStateM.Result.ok _ _ = _
  simp [within]

theorem onNames_apply (hm : m.Has u k) (name : String) :
    Run.onNames k "add" [.value (.text name)] (s.within m u k) =
      .ok .null (({ s with visited := s.visited ++ [name] } : SetupState).within m u k) := by
  show (Run.names k >>= _) _ = _
  rw [Session.bind_apply, names_apply hm]
  show EStateM.Result.ok _ _ = _
  simp [within]

end SetupState

/-! ## Drawing values -/

namespace Query

/-- The column types of the parameters. -/
def inputs (q : Query) : List ColumnType :=
  ((q.parameters.map Parameter.type).mapM ColumnType.ofTypeExpr?).getD []

theorem drawAll_length (s : ByteSource) (ts : List ColumnType) :
    (s.drawAll ts).1.length = ts.length := by
  induction ts generalizing s with
  | nil => rfl
  | cons t ts ih => exact congrArg Nat.succ (ih _)

/-- The values that the setup routine of a checked query draws are expressions of its input
types. -/
theorem Typed.routine_values {q : Query} (h : q.Typed) :
    (q.parameters.map Parameter.type).mapM ColumnType.ofTypeExpr? = some q.inputs ∧
    q.inputs.length = q.parameters.length ∧
    ∃ xs, List.Forall₂ Expr.Denotes xs q.inputs ∧
      q.routine.values = xs.map fun x => .call (.field (.argument "u") "arbitrary") [x] := by
  have hparameters : ∀ t ∈ q.parameters.map Parameter.type, t.Supported := by
    intro t ht
    obtain ⟨x, hx, rfl⟩ := List.mem_map.mp ht
    exact h.parameter hx
  obtain ⟨xs, cs, hxs, hcs, hlength, hdenote⟩ := TypeExpr.columns_denote hparameters
  have hinputs : q.inputs = cs := by rw [inputs, hcs, Option.getD_some]
  rw [List.length_map] at hlength
  refine ⟨hinputs ▸ hcs, hinputs ▸ hlength, xs, hinputs ▸ hdenote, ?_⟩
  simp only [routine, drawnArguments, hxs]
  rfl

end Query

/-- The frame of a setup routine. -/
structure Frame.Sets (p : Program) (depth u k : Nat) (g : Backend) (c : Nat) (fr : Frame) :
    Prop where
  source : fr.lookup "u" = pure (.source u)
  names : fr.lookup "visited" = pure (.names k)
  connection : fr.lookup g.connectionName = pure (.connection g c)
  module : ∀ name, name ∉ ["u", "visited", "conn", "client"] → fr.lookup name = p.lookup name
  call : fr.call = p.call depth

namespace Frame.Sets

variable {config : Config} {b : Book} {p : Program} {depth u k c : Nat} {g : Backend} {fr : Frame}

theorem knowsTypes (hfr : fr.Sets p depth u k g c) (hp : p.Of config b) : fr.KnowsTypes where
  library := (hfr.module _ (by decide)).trans (hp.lookup_foreign (by decide))
  optional t := by
    rw [hfr.call, Program.call_library]
    rfl

/-- The values are drawn from left to right. -/
theorem evalAll_draws (hfr : fr.Sets p depth u k g c) (hp : p.Of config b) {m : Memory}
    (hm : m.Has u k) {xs : List Expr} {ts : List ColumnType}
    (h : List.Forall₂ Expr.Denotes xs ts) (s : SetupState) :
    Expr.evalAll fr (xs.map fun x => .call (.field (.argument "u") "arbitrary") [x])
        (s.within m u k) =
      .ok ((s.source.drawAll ts).1.map .value)
        (({ s with source := (s.source.drawAll ts).2 } : SetupState).within m u k) := by
  induction h generalizing s with
  | nil => rfl
  | @cons x t xs ts hx _ ih =>
    have hdraw : (Expr.call (.field (.argument "u") "arbitrary") [x]).eval fr =
        Run.onSource u "arbitrary" [.column t] := by
      simp only [Expr.eval, Expr.evalAll, hfr.source, hx fr (hfr.knowsTypes hp), pure_bind,
        Object.member, hfr.call, Program.call_source]
    rw [List.map_cons, Expr.evalAll, hdraw, Session.bind_apply, SetupState.onSource_apply hm]
    show (Expr.evalAll fr _ >>= _) _ = _
    rw [Session.bind_apply, ih]
    rfl

end Frame.Sets

/-! ## Errors of a query that is set up -/

namespace SetupRoutine

/-- What passes over rows. -/
def passing (r : SetupRoutine) : Handler where
  error := .returnedRows
  binding := none
  body := [r.report "debug" "setup of %s returned rows" []]
  again := false

/-- What reports an error of the driver. -/
def reporting (r : SetupRoutine) : Handler where
  error := .driver r.backend
  binding := some "exc"
  body := [r.report "error" "setup of %s failed: %s" [.argument "exc"]]
  again := true

theorem handlers_eq (r : SetupRoutine) :
    r.handlers = match r.backend with
      | .embedded => [r.passing, r.reporting]
      | .network => [r.reporting] := by
  unfold handlers reporting
  cases r.backend <;> rfl

end SetupRoutine

namespace Library

theorem record_returnedRows (name : String) :
    record .debug "setup of %s returned rows" [name] =
      { level := .debug, logger := "generated",
        message := "setup of " ++ name ++ " returned rows" } := by
  have hfill : fill "setup of %s returned rows".toList [name] =
      ("setup of " ++ name ++ " returned rows").toList := by
    simp [fill]
  rw [record, hfill, String.ofList_toList]

theorem record_failed (name message : String) :
    record .error "setup of %s failed: %s" [name, message] =
      { level := .error, logger := "generated"
        message := "setup of " ++ name ++ " failed: " ++ message } := by
  have hfill : fill "setup of %s failed: %s".toList [name, message] =
      ("setup of " ++ name ++ " failed: " ++ message).toList := by
    simp [fill]
  rw [record, hfill, String.ofList_toList]

end Library

/-- What is done about the failure of a query that is set up: rows of an embedded query are passed
over, an error of its driver is reported, and every failure but the first goes on its way. -/
def Query.handled (q : Query) (e : Failure) : Session Unit :=
  if q.backend = .embedded && e.isReturnedRows then
    Session.log { level := .debug, logger := "generated"
                  message := "setup of " ++ q.name ++ " returned rows" }
  else if e.isDriverError q.backend then do
    Session.log { level := .error, logger := "generated"
                  message := "setup of " ++ q.name ++ " failed: " ++ e.message }
    throw e
  else throw e

namespace Frame.Sets

variable {config : Config} {b : Book} {p : Program} {depth u k c : Nat} {fr : Frame} {q : Query}

theorem lookup_log (hfr : fr.Sets p depth u k q.backend c) (hp : p.Of config b) :
    fr.lookup "_log" = pure (.library .log) :=
  (hfr.module _ (by decide)).trans (hp.lookup_foreign (by decide))

theorem handle_passing (hfr : fr.Sets p depth u k q.backend c) (hp : p.Of config b)
    (e : Failure) :
    q.routine.passing.handle fr e =
      lift (Session.log { level := .debug, logger := "generated"
                          message := "setup of " ++ q.name ++ " returned rows" }) := by
  have hreport : (q.routine.report "debug" "setup of %s returned rows" []).perform fr =
      lift (Session.log (Library.record .debug "setup of %s returned rows" [q.name])) := by
    simp only [Expr.perform, SetupRoutine.report, Expr.eval, Expr.evalAll, hfr.lookup_log hp,
      pure_bind, Object.member, hfr.call, Program.call_library, Library.invoke]
    rfl
  rw [Library.record_returnedRows] at hreport
  simp [Handler.handle, SetupRoutine.passing, hreport]

theorem handle_reporting (hfr : fr.Sets p depth u k q.backend c) (hp : p.Of config b)
    (e : Failure) :
    q.routine.reporting.handle fr e = lift (do
      Session.log { level := .error, logger := "generated"
                    message := "setup of " ++ q.name ++ " failed: " ++ e.message }
      throw e) := by
  have hlog : (fr.bind "exc" (.failure e)).lookup "_log" = pure (.library .log) :=
    hfr.lookup_log hp
  have hexc : (fr.bind "exc" (.failure e)).lookup "exc" = pure (.failure e) := rfl
  have hcall : (fr.bind "exc" (.failure e)).call = p.call depth := hfr.call
  have hreport : (q.routine.report "error" "setup of %s failed: %s" [.argument "exc"]).perform
      (fr.bind "exc" (.failure e)) =
      lift (Session.log (Library.record .error "setup of %s failed: %s" [q.name, e.message])) := by
    simp only [Expr.perform, SetupRoutine.report, Expr.eval, Expr.evalAll, hlog, hexc, pure_bind,
      Object.member, hcall, Program.call_library, Library.invoke]
    rfl
  rw [Library.record_failed] at hreport
  simp [Handler.handle, SetupRoutine.reporting, hreport]
  rfl

/-- **The handlers of a routine do what is done about a failure.** -/
theorem handleFirst_eq (hfr : fr.Sets p depth u k q.backend c) (hp : p.Of config b)
    (e : Failure) : Handler.handleFirst q.routine.handlers fr e = lift (q.handled e) := by
  have hpassing := hfr.handle_passing hp e
  have hreporting := hfr.handle_reporting hp e
  have hbackend : q.routine.backend = q.backend := rfl
  have hcovers : q.routine.reporting.error.covers e = e.isDriverError q.backend := rfl
  rw [Handler.handleFirst, SetupRoutine.handlers_eq, hbackend, Query.handled]
  cases hg : q.backend with
  | embedded =>
    rw [hg] at hcovers
    have hrows : q.routine.passing.error.covers e = e.isReturnedRows := rfl
    -- the handler that passes over rows comes first
    simp only [List.find?_cons, List.find?_nil, hrows, hcovers]
    cases e.isReturnedRows with
    | true => exact hpassing
    | false =>
      cases e.isDriverError .embedded with
      | true => exact hreporting
      | false => rfl
  | network =>
    rw [hg] at hcovers
    simp only [List.find?_cons, List.find?_nil, hcovers]
    cases e.isDriverError .network with
    | true => exact hreporting
    | false => rfl

end Frame.Sets

/-! ## One query -/

/-- Runs a query for setup. -/
def Query.guarded (q : Query) (x : Session Object) : Session Unit :=
  tryCatch (x >>= fun _ => pure ()) q.handled

/-- Runs a query with values drawn for it, which is what its setup routine does when its
dependencies are set up. -/
def Program.setUp (p : Program) (c : Nat) (q : Query) (s : World × ByteSource) :
    EStateM.Result Failure (World × ByteSource) Unit :=
  let drawn := s.2.drawAll q.inputs
  match q.guarded (p.executed q c drawn.1) s.1 with
  | .ok _ w => .ok () (w, drawn.2)
  | .error e w => .error e (w, drawn.2)

/-- The memory after a query was set up; the marks are as they were. -/
def SetupState.resume (s : SetupState) (m : Memory) (u k : Nat) :
    EStateM.Result Failure (World × ByteSource) Unit → EStateM.Result Failure Memory Unit
  | .ok _ t => .ok () ((⟨t.1, t.2, s.visited⟩ : SetupState).within m u k)
  | .error e t => .error e ((⟨t.1, t.2, s.visited⟩ : SetupState).within m u k)

namespace Frame.Sets

variable {config : Config} {b : Book} {p : Program} {depth u k c : Nat} {fr : Frame} {q : Query}

/-- The line of a routine that runs its query. -/
theorem run_apply (hfr : fr.Sets p (depth + 1) u k q.backend c) (hp : p.Of config b)
    (hq : q ∈ b.queries) {m : Memory} (hm : m.Has u k) (s : SetupState) :
    (BodyLine.runAll fr [q.routine.run] >>= fun _ => pure ()) (s.within m u k) =
      s.resume m u k (p.setUp c q (s.world, s.source)) := by
  obtain ⟨-, hlength, xs, hdenote, hvalues⟩ := Query.Typed.routine_values (hp.sound hq).supported
  obtain ⟨f, hf, hcall⟩ := hp.executed_made hq
  have hdrawn : (s.source.drawAll q.inputs).1.length = q.parameters.length :=
    (Query.drawAll_length _ _).trans hlength
  have hname : fr.lookup (Role.execute.ident q.name) = pure (.function f) := by
    have hforeign : ∀ name ∈ ["u", "visited", "conn", "client"], Role.Foreign name := by decide
    exact (hfr.module _ fun h => (hforeign _ h).ident_ne _ _ rfl).trans hf
  -- the values are drawn before the call, so that the byte source has moved on even if it fails
  have hperform : (Expr.call (.global (Role.execute.ident q.name))
      (q.routine.connection :: q.routine.values)).perform fr (s.within m u k) =
      lift (p.executed q c (s.source.drawAll q.inputs).1 >>= fun _ => pure ())
        (({ s with source := (s.source.drawAll q.inputs).2 } : SetupState).within m u k) := by
    have hconnection : q.routine.connection.eval fr = pure (.connection q.backend c) :=
      hfr.connection
    simp only [Expr.perform, Expr.eval, Expr.evalAll, hname, hconnection, pure_bind, bind_assoc]
    rw [Session.bind_apply, hvalues, hfr.evalAll_draws hp hm hdenote]
    simp only [hfr.call]
    rw [(hcall _ hdrawn).1 c depth]
    exact congrFun (Run.lift_bind _ fun _ => pure ()) _
  have hline : BodyLine.runAll fr [q.routine.run] = (do
      tryCatch ((Expr.call (.global (Role.execute.ident q.name))
        (q.routine.connection :: q.routine.values)).perform fr)
        (Handler.handleFirst q.routine.handlers fr)
      return .null) := rfl
  rw [hline, bind_assoc, Session.bind_apply,
    Run.tryCatch_apply hperform fun e => hfr.handleFirst_eq hp e, ← Query.guarded,
    SetupState.lift_apply, Program.setUp]
  cases q.guarded (p.executed q c (s.source.drawAll q.inputs).1) s.world with
  | ok a w => rfl
  | error e w => rfl

end Frame.Sets

/-! ## One routine -/

/-- What a setup routine is called with. -/
def Setup.arguments (u k : Nat) (g : Backend) (c : Nat) : List Object :=
  [.source u, .names k, .connection g c]

/-- Calls the setup routine of a query. -/
def Program.routine (p : Program) (depth : Nat) (args : List Object) (name : String) :
    Run Unit := do
  let _ ← p.call depth (← p.lookup (Role.testSetup.ident name)) args

namespace Query

theorem routine_frame (q : Query) (p : Program) (depth u k c : Nat) :
    ∃ fr : Frame, fr.Sets p depth u k q.backend c ∧
      q.routine.function.apply p.lookup (p.call depth) (Setup.arguments u k q.backend c) =
        BodyLine.runAll fr (q.routine.guard ++ [q.routine.run]) := by
  refine ⟨_, ?_, Function.apply_eq rfl⟩
  have hlocals : q.routine.function.locals (Setup.arguments u k q.backend c) =
      [("u", .source u), ("visited", .names k),
        (q.backend.connectionName, .connection q.backend c)] := rfl
  rw [hlocals]
  constructor
  · rfl
  · rfl
  · cases q.backend <;> rfl
  · intro name hname
    refine Frame.lookup_of_not_mem fun h => hname ?_
    revert h
    cases q.backend <;> simp [Backend.connectionName] <;> grind
  · rfl

end Query

namespace Frame.Sets

variable {p : Program} {depth u k c : Nat} {fr : Frame} {q : Query}

/-- The lines of a routine that call those of the dependencies. -/
theorem runAll_calls (hfr : fr.Sets p depth u k q.backend c) (names : List String)
    (rest : List BodyLine) :
    BodyLine.runAll fr ((names.map Role.testSetup.ident).map (fun routine =>
        .run (.call (.global routine)
          [.argument "u", .argument "visited", q.routine.connection])) ++ rest) =
      names.forM (p.routine depth (Setup.arguments u k q.backend c)) >>= fun _ =>
        BodyLine.runAll fr rest := by
  induction names with
  | nil => rfl
  | cons name names ih =>
    have hconnection : q.routine.connection.eval fr = pure (.connection q.backend c) :=
      hfr.connection
    have hforeign : ∀ name ∈ ["u", "visited", "conn", "client"], Role.Foreign name := by decide
    have hname := hfr.module (Role.testSetup.ident name) fun h => (hforeign _ h).ident_ne _ _ rfl
    have hperform : (Expr.call (.global (Role.testSetup.ident name))
        [.argument "u", .argument "visited", q.routine.connection]).perform fr =
        p.routine depth (Setup.arguments u k q.backend c) name := by
      simp only [Expr.perform, Expr.eval, Expr.evalAll, hname, hfr.source, hfr.names, hconnection,
        pure_bind, bind_assoc, hfr.call, Program.routine]
      rfl
    simp only [List.map_cons, List.cons_append, BodyLine.runAll, hperform, ih]
    exact (bind_assoc _ _ _).symm

/-- A routine whose query is marked leaves at once. -/
theorem runAll_of_mem (hfr : fr.Sets p depth u k q.backend c) {m : Memory} (hm : m.Has u k)
    {s : SetupState} (h : q.name ∈ s.visited) (rest : List BodyLine) :
    BodyLine.runAll fr (q.routine.guard ++ rest) (s.within m u k) =
      .ok .null (s.within m u k) := by
  simp only [SetupRoutine.guard, List.cons_append, BodyLine.runAll, hfr.names, pure_bind,
    Object.members]
  rw [Session.bind_apply, SetupState.names_apply hm]
  show (if s.visited.contains q.name = true then _ else _ : Run Object) _ = _
  rw [if_pos (by simpa using h)]
  rfl

/-- Any other routine marks its query and calls the routines of the dependencies. -/
theorem runAll_of_not_mem (hfr : fr.Sets p depth u k q.backend c) {m : Memory} (hm : m.Has u k)
    {s : SetupState} (h : q.name ∉ s.visited) (rest : List BodyLine) :
    BodyLine.runAll fr (q.routine.guard ++ rest) (s.within m u k) =
      (q.dependencyNames.forM (p.routine depth (Setup.arguments u k q.backend c)) >>= fun _ =>
        BodyLine.runAll fr rest)
          (({ s with visited := s.visited ++ [q.name] } : SetupState).within m u k) := by
  have hadd : (Expr.call (.field (.argument "visited") "add") [.quoted q.routine.query]).perform fr
      (s.within m u k) =
      .ok () (({ s with visited := s.visited ++ [q.name] } : SetupState).within m u k) := by
    simp only [Expr.perform, Expr.eval, Expr.evalAll, hfr.names, pure_bind, Object.member, hfr.call,
      Program.call_names]
    rw [Session.bind_apply, SetupState.onNames_apply hm]
    rfl
  rw [← hfr.runAll_calls]
  simp only [SetupRoutine.guard, List.cons_append, BodyLine.runAll, hfr.names, pure_bind,
    Object.members]
  rw [Session.bind_apply, SetupState.names_apply hm]
  show (if s.visited.contains q.name = true then _ else _ : Run Object) _ = _
  rw [if_neg (by simpa using h), Session.bind_apply, hadd]
  rfl

end Frame.Sets

namespace Program.Of

variable {config : Config} {b : Book} {p : Program} {q : Query} {m : Memory} {u k c : Nat}
  {s : SetupState}

theorem routine_eq (hp : p.Of config b) (htests : config.emitTests = true)
    (hq : q ∈ b.setupTargets) (depth : Nat) (args : List Object) :
    p.routine (depth + 1) args q.name =
      q.routine.function.apply p.lookup (p.call depth) args >>= fun _ => pure () := by
  rw [Program.routine, lookup_function (hp.find?_routine htests hq), pure_bind]
  rfl

theorem routine_of_mem (hp : p.Of config b) (htests : config.emitTests = true)
    (hq : q ∈ b.setupTargets) (hm : m.Has u k) (h : q.name ∈ s.visited) (depth : Nat) :
    p.routine (depth + 1) (Setup.arguments u k q.backend c) q.name (s.within m u k) =
      .ok () (s.within m u k) := by
  obtain ⟨fr, hfr, happly⟩ := q.routine_frame p depth u k c
  rw [hp.routine_eq htests hq, happly, Session.bind_apply, hfr.runAll_of_mem hm h]
  rfl

/-- A routine whose query is not marked is over when a dependency fails; else it sets up its own
query. -/
theorem routine_of_not_mem (hp : p.Of config b) (htests : config.emitTests = true)
    (hq : q ∈ b.setupTargets) (hm : m.Has u k) (h : q.name ∉ s.visited) (depth : Nat) :
    (∀ e m', q.dependencyNames.forM (p.routine (depth + 1) (Setup.arguments u k q.backend c))
        (({ s with visited := s.visited ++ [q.name] } : SetupState).within m u k) = .error e m' →
      p.routine (depth + 2) (Setup.arguments u k q.backend c) q.name (s.within m u k) =
        .error e m') ∧
    ∀ s' : SetupState,
      q.dependencyNames.forM (p.routine (depth + 1) (Setup.arguments u k q.backend c))
        (({ s with visited := s.visited ++ [q.name] } : SetupState).within m u k) =
          .ok () (s'.within m u k) →
      p.routine (depth + 2) (Setup.arguments u k q.backend c) q.name (s.within m u k) =
        s'.resume m u k (p.setUp c q (s'.world, s'.source)) := by
  obtain ⟨fr, hfr, happly⟩ := q.routine_frame p (depth + 1) u k c
  rw [hp.routine_eq htests hq, happly, Session.bind_apply, hfr.runAll_of_not_mem hm h]
  constructor
  · intro e m' hdeps
    rw [Session.bind_apply, hdeps]
  · intro s' hdeps
    rw [Session.bind_apply, hdeps]
    exact hfr.run_apply hp (mem_setupTargets hq) hm s'

end Program.Of

end QueryBook
