import QueryBook.Proofs.Session.Resolution
import QueryBook.Proofs.Session.Sending

/-!
# Calling generated functions

What happens when a function of a module is called with a value for each parameter. Its arguments
stand for what it is given, so that a name of the module means the module's definition unless a
parameter has the same name. The function that runs a query for its effect is followed to the
statement it sends. Its statement is the query's own, unless a parameter is called like it.

Nothing a function for a query does touches anything but the databases: it is a session. The depth
at which it is called plays no part.
-/

namespace QueryBook

open Run (lift)

/-! ## Sessions -/

/-- What a computation returned, and the state it ended with. -/
def ended {σ α : Type} : EStateM.Result Failure σ α → Except Failure α × σ
  | .ok a s => (.ok a, s)
  | .error e s => (.error e, s)

namespace Run

variable {α β : Type}

/-- What a computation does to the databases alone. -/
def session (x : Run α) : Session α := fun w =>
  match x { world := w } with
  | .ok a m => .ok a m.world
  | .error e m => .error e m.world

@[simp]
theorem session_lift (x : Session α) : (lift x).session = x := by
  funext w
  unfold session lift
  cases x w <;> rfl

theorem lift_bind (x : Session α) (f : α → Session β) :
    (lift x >>= fun a => lift (f a)) = lift (x >>= f) := by
  funext m
  simp only [Session.bind_apply, lift]
  cases x m.world with
  | ok a w => rfl
  | error e w => rfl

theorem lift_bind_pure (x : Session α) (f : α → β) :
    (lift x >>= fun a => pure (f a)) = lift (x >>= fun a => pure (f a)) :=
  lift_bind x fun a => pure (f a)

theorem lift_ofExcept_bind (x : Except Failure α) (f : α → Except Failure β) :
    (lift (Session.ofExcept x) >>= fun a => lift (Session.ofExcept (f a))) =
      lift (Session.ofExcept (x >>= f)) := by
  rw [lift_bind]
  cases x <;> rfl

/-- What a computation returns, whatever it did. -/
def outcome (x : Run α) (m : Memory) : Except Failure α := (ended (x m)).1

/-- The memory that a computation ends with. -/
def after (x : Run α) (m : Memory) : Memory := (ended (x m)).2

theorem outcome_lift (x : Session α) (m : Memory) :
    (lift x).outcome m = Session.outcome x m.world := by
  unfold outcome Session.outcome lift ended
  cases x m.world <;> rfl

theorem need_some (a : α) : (need (some a) : Run α) = pure a := rfl

end Run

/-! ## The frame of a call -/

namespace Function

variable {p : Program} {f : Function} {call : Object → List Object → Run Object}

theorem locals_append {before given : List Object} (after : List Object)
    (hbefore : before.length = f.leading.length) (hgiven : given.length = f.parameters.length) :
    f.locals (before ++ given ++ after) =
      (f.leading.map Argument.name).zip before ++ (f.parameters.map Argument.name).zip given ++
        (f.trailing.map Argument.name).zip after := by
  rw [locals, arguments, List.map_append, List.map_append,
    List.zip_append (by simp [hbefore, hgiven]),
    List.zip_append (by simp [hbefore])]

end Function

/-- The frame in which a function runs that is called with a value for each parameter of a query.
`own` are its other arguments. -/
structure Frame.For (p : Program) (q : Query) (vs : List Value) (own : List (String × Object))
    (fr : Frame) : Prop where
  values : ∀ x ∈ q.parameterNames.zip (vs.map Object.value), fr.lookup x.1 = pure x.2
  own : ∀ name o, (name, o) ∈ own → fr.lookup name = pure o
  module : ∀ name, name ∉ "row" :: reservedNames → name ∉ q.parameterNames →
    fr.lookup name = p.lookup name

/-- **A function for a query that is called with a value for each parameter runs its body in such a
frame.** -/
theorem Query.Emits.apply_eq {b : Book} {q : Query} {f : Function} (hf : q.Emits f)
    (hq : b.Sound q) (hps : f.parameters.map Argument.name = q.parameterNames)
    {vs : List Value} (hvs : vs.length = q.parameters.length) (before after : List Object)
    (hbefore : before.length = f.leading.length) (hafter : after.length = f.trailing.length)
    (p : Program) (call : Object → List Object → Run Object) :
    ∃ fr : Frame, fr.For p q vs
        ((f.leading.map Argument.name).zip before ++ (f.trailing.map Argument.name).zip after) ∧
      fr.call = call ∧
      f.apply p.lookup call (before ++ vs.map Object.value ++ after) =
        BodyLine.runAll fr f.body := by
  have hparameters : f.parameters.length = q.parameters.length := by
    simpa [Query.parameterNames] using congrArg List.length hps
  have hgiven : (vs.map Object.value).length = f.parameters.length := by
    rw [List.length_map, hvs, hparameters]
  have hlength : (before ++ vs.map Object.value ++ after).length = f.arguments.length := by
    simp only [List.length_append, Function.arguments, hbefore, hafter, hgiven]
  refine ⟨_, ?_, rfl, Function.apply_eq hlength⟩
  -- a look-up finds the first argument of a name, so it matters that there is no second one
  have hnodup : ((f.locals (before ++ vs.map Object.value ++ after)).map Prod.fst).Nodup := by
    rw [Function.map_fst_locals hlength]
    exact hf.arguments_nodup hq
  have hlocals := Function.locals_append after hbefore hgiven
  rw [hps] at hlocals
  refine ⟨fun x hx => Frame.lookup_of_mem hnodup ?_, fun name o h => Frame.lookup_of_mem hnodup ?_,
    fun name hnot hname => Frame.lookup_of_not_mem ?_⟩
  · rw [hlocals]
    exact List.mem_append_left _ (List.mem_append_right _ hx)
  · rw [hlocals]
    rcases List.mem_append.mp h with h | h
    · exact List.mem_append_left _ (List.mem_append_left _ h)
    · exact List.mem_append_right _ h
  · rw [Function.map_fst_locals hlength, f.arguments_perm.mem_iff, List.mem_append, hps]
    rintro (h | h)
    · exact hname h
    · exact hnot (hf.own name (List.mem_append_left _ h))

/-- A function for a query that has no parameters sees what it is given and the module. -/
theorem Query.Emits.apply_bare {b : Book} {q : Query} {f : Function} (hf : q.Emits f)
    (hq : b.Sound q) (hps : f.parameters = []) (htrailing : f.trailing = []) (args : List Object)
    (hargs : args.length = f.leading.length) (p : Program)
    (call : Object → List Object → Run Object) :
    ∃ fr : Frame, (∀ name o, (name, o) ∈ (f.leading.map Argument.name).zip args →
        fr.lookup name = pure o) ∧
      (∀ name, name ∉ "row" :: reservedNames → fr.lookup name = p.lookup name) ∧ fr.call = call ∧
      f.apply p.lookup call args = BodyLine.runAll fr f.body := by
  have harguments : f.arguments = f.leading := by simp [Function.arguments, hps, htrailing]
  have hlength : args.length = f.arguments.length := harguments ▸ hargs
  have hfst := Function.map_fst_locals hlength
  refine ⟨_, fun name o h => Frame.lookup_of_mem ?_ ?_, fun name hnot => Frame.lookup_of_not_mem ?_,
    rfl, Function.apply_eq hlength⟩
  · rw [hfst]
    exact hf.arguments_nodup hq
  · rw [Function.locals, harguments]
    exact h
  · rw [hfst, f.arguments_perm.mem_iff, hps]
    exact fun h => hnot (hf.own name (List.mem_append_left _ h))

namespace Query

variable {q : Query}

theorem ident_notMem_of_not_captures (h : ¬ q.Captures) {r : Role} (hr : r ∈ q.referred) :
    r.ident q.name ∉ q.parameterNames := fun hmem => h ⟨r, hr, hmem⟩

/-- What the name of the statement text stands for in a function of the query that has its
parameters: the text, unless a parameter is called like it. -/
def statementValue (q : Query) (text : String) (vs : List Value) : Value :=
  ((q.parameterNames.zip vs).lookup (Role.sql.ident q.name)).getD (.text text)

theorem statementValue_of_not_mem {text : String} {vs : List Value}
    (h : Role.sql.ident q.name ∉ q.parameterNames) : q.statementValue text vs = .text text := by
  rw [statementValue, lookup_of_not_mem]
  · rfl
  · intro hmem
    obtain ⟨x, hx, hname⟩ := List.mem_map.mp hmem
    exact h (hname ▸ (List.of_mem_zip (a := x.1) (b := x.2) hx).1)

end Query

namespace Frame.For

variable {p : Program} {q : Query} {vs : List Value} {own : List (String × Object)} {fr : Frame}

theorem eval_valueTuple (hfr : fr.For p q vs own) (hvs : vs.length = q.parameters.length) :
    q.valueTuple.eval fr = pure (.tuple (vs.map Object.value)) :=
  Expr.eval_tuple_arguments (by simp [Query.parameterNames, hvs]) hfr.values

theorem eval_valueMapping (hfr : fr.For p q vs own) (hvs : vs.length = q.parameters.length) :
    q.valueMapping.eval fr = pure (.mapping (q.parameterNames.zip (vs.map Object.value))) :=
  Expr.eval_mapping (by simp [Query.parameterNames, hvs]) hfr.values

/-- What a function of the query refers to by name, if no parameter gets in the way. -/
theorem lookup_ident (hfr : fr.For p q vs own) {r : Role} (hr : r ∈ Role.referred)
    (hname : r.ident q.name ∉ q.parameterNames) :
    fr.lookup (r.ident q.name) = p.lookup (r.ident q.name) :=
  hfr.module _ (Role.ident_notMem_own hr q.name) hname

theorem lookup_runtime {b : Book} (hfr : fr.For p q vs own) (hq : b.Sound q) {name : String}
    (hname : name ∈ runtimeNames) : fr.lookup name = p.lookup name := by
  have hapart : ∀ x ∈ runtimeNames, x ∉ "row" :: reservedNames := by decide
  refine hfr.module name (hapart name hname) fun hmem => ?_
  have hreserved := isReserved_of_runtime name hname
  rw [(hq.usable name hmem).2] at hreserved
  cases hreserved

theorem lookup_sql {b : Book} (hfr : fr.For p q vs own) (hq : b.Sound q)
    (hvs : vs.length = q.parameters.length) {text : String}
    (htext : p.lookup (Role.sql.ident q.name) = pure (.value (.text text))) :
    fr.lookup (Role.sql.ident q.name) = pure (.value (q.statementValue text vs)) := by
  -- a parameter of this name hides the constant of the module
  by_cases hmem : Role.sql.ident q.name ∈ q.parameterNames
  · have hfst : (q.parameterNames.zip vs).map Prod.fst = q.parameterNames :=
      List.map_fst_zip (by simp [Query.parameterNames, hvs])
    obtain ⟨⟨name, v⟩, hv, hname⟩ := List.mem_map.mp (hfst.symm ▸ hmem)
    obtain rfl : name = Role.sql.ident q.name := hname
    have hvalue : q.statementValue text vs = v := by
      rw [Query.statementValue, lookup_of_mem_of_nodup (hfst.symm ▸ hq.distinct) hv]
      rfl
    rw [hvalue]
    refine hfr.values (Role.sql.ident q.name, .value v) ?_
    rw [List.zip_map_right]
    exact List.mem_map_of_mem hv
  · rw [Query.statementValue_of_not_mem hmem, hfr.lookup_ident (by decide) hmem, htext]

end Frame.For

/-! ## Running a query for its effect -/

namespace Program.Of

variable {config : Config} {b : Book} {p : Program} {q : Query} {vs : List Value} {text : String}
  {ps : List Argument}

theorem call_embedded_execute (hp : p.Of config b) (hq : q ∈ b.queries)
    (htext : (q.backend.statementText config q).outcome = .ok text)
    (hps : ps.map Argument.name = q.parameterNames) (hvs : vs.length = q.parameters.length)
    (depth c : Nat) :
    p.call (depth + 1) (.function (Embedded.execute q ps))
        (.connection .embedded c :: vs.map .value) = do
      let statement ← Run.need (Object.value (q.statementValue text vs)).text?
      let count ← lift (Session.executeFile c statement (q.parameterNames.zip vs))
      return .value (.int count) := by
  obtain ⟨fr, hfr, hcall, happly⟩ := (Embedded.emits_execute hps).apply_eq (hp.sound hq) hps
    hvs [.connection .embedded c] [] rfl rfl p (p.call depth)
  rw [List.append_nil] at happly
  have hconn : fr.lookup "conn" = pure (.connection .embedded c) := hfr.own _ _ (.head _)
  have hlibrary : fr.lookup "_sqlite" = pure (.library .embedded) :=
    (hfr.lookup_runtime (hp.sound hq) (by decide)).trans (hp.lookup_foreign (by decide))
  have hsql := hfr.lookup_sql (hp.sound hq) hvs (hp.lookup_sql hq htext)
  rw [call_function]
  refine happly.trans ?_
  simp only [Embedded.execute, Embedded.library, BodyLine.runAll, Expr.eval, Expr.evalAll, hlibrary,
    hconn, hsql, hfr.eval_valueMapping hvs, pure_bind, hcall, Object.member, call_library,
    Library.invoke, Object.named?_mapping, Run.need_some]

/-- The function for a server, with the query as it stands or prepared. -/
theorem call_network_execute (hp : p.Of config b) (hq : q ∈ b.queries)
    (htext : (q.backend.statementText config q).outcome = .ok text)
    (hps : ps.map Argument.name = q.parameterNames) (hvs : vs.length = q.parameters.length)
    (depth c : Nat) :
    p.call (depth + 1) (.function (Network.execute q ps))
        (.connection .network c :: vs.map .value) = do
      return .value (.int (← Run.overClient c (.value (q.statementValue text vs)) fun r =>
        Session.execute c r vs)) := by
  obtain ⟨fr, hfr, hcall, happly⟩ := (Network.emits_execute hps).1.apply_eq (hp.sound hq) hps
    hvs [.connection .network c] [] rfl rfl p (p.call depth)
  rw [List.append_nil] at happly
  have hclient : fr.lookup "client" = pure (.connection .network c) := hfr.own _ _ (.head _)
  have hsql := hfr.lookup_sql (hp.sound hq) hvs (hp.lookup_sql hq htext)
  rw [call_function]
  refine happly.trans ?_
  simp only [Network.execute, Network.function, Network.client, Network.sql, BodyLine.runAll,
    Expr.eval, Expr.evalAll, hclient, hsql, hfr.eval_valueTuple hvs, pure_bind, hcall,
    Object.member, call_connection, Object.invoke, Run.onClient, Object.values?_tuple,
    Run.need_some]

theorem call_executePrepared (hp : p.Of config b) (hq : q ∈ b.queries)
    (hps : ps.map Argument.name = q.parameterNames) (hvs : vs.length = q.parameters.length)
    (depth : Nat) (g : Backend) (c : Nat) (statement : Object) :
    p.call (depth + 1) (.function (Network.executePrepared q ps))
        (.connection g c :: statement :: vs.map .value) =
      (Object.method (.connection g c) "execute").invoke
        [statement, .tuple (vs.map Object.value)] := by
  obtain ⟨fr, hfr, hcall, happly⟩ := (Network.emits_execute hps).2.apply_eq (hp.sound hq) hps
    hvs [.connection g c, statement] [] rfl rfl p (p.call depth)
  rw [List.append_nil] at happly
  have hclient : fr.lookup "client" = pure (.connection g c) := hfr.own _ _ (.head _)
  have hstmt : fr.lookup "stmt" = pure statement := hfr.own _ _ (.tail _ (.head _))
  rw [call_function]
  refine happly.trans ?_
  simp only [Network.executePrepared, Network.function, Network.client, BodyLine.runAll, Expr.eval,
    Expr.evalAll, hclient, hstmt, hfr.eval_valueTuple hvs, pure_bind, hcall, Object.member,
    call_connection]

end Program.Of

/-! ## What it does to the databases -/

/-- What becomes of a query that is run for its effect: it sends a command, or it is refused before
anything is sent. -/
inductive Attempt where
  | send (command : Command)
  | refuse (e : Failure)

/-- A session does what an attempt says, over a connection of a backend. A refusal is no failure
that test setup knows about. -/
def Attempt.MadeBy {α : Type} (g : Backend) (c : Nat) (x : Session α) : Attempt → Prop
  | send command => SendsOne g c command x
  | refuse e => e.isDriverError g = false ∧ e.isReturnedRows = false ∧
      ∀ w, ∃ w', w.Quiet w' ∧ x w = .error e w'

namespace Attempt

variable {α β : Type} {g : Backend} {c : Nat}

theorem MadeBy.map {a : Attempt} {x : Session α} (h : a.MadeBy g c x) (f : α → β) :
    a.MadeBy g c (x >>= fun a => pure (f a)) := by
  cases a with
  | send command => exact SendsOne.map h f
  | refuse e =>
    obtain ⟨hdriver, hrows, hrun⟩ := h
    refine ⟨hdriver, hrows, fun w => ?_⟩
    obtain ⟨w', hquiet, hrun⟩ := hrun w
    exact ⟨w', hquiet, by rw [Session.bind_apply, hrun]⟩

theorem refuse_of_throw {e : Failure} (hdriver : e.isDriverError g = false)
    (hrows : e.isReturnedRows = false) : (refuse e).MadeBy g c (throw e : Session α) :=
  ⟨hdriver, hrows, fun w => ⟨w, .refl w, rfl⟩⟩

/-- What cannot be run on a server has a cursor made for it, and nothing more. -/
theorem refuse_of_withCursor :
    (refuse .misuse).MadeBy g c (Session.withCursor c fun _ => throw .misuse : Session α) := by
  refine ⟨rfl, rfl, fun w => ⟨(w.withCursor c).cursorClosed (w.cursors.length + 1), ?_, rfl⟩⟩
  exact .of_event rfl rfl rfl rfl ⟨rfl, rfl, rfl⟩

end Attempt

namespace Query

/-- The command by which a query is run for its effect. -/
def command (q : Query) (statement : String) (vs : List Value) : Command :=
  match q.backend with
  | .embedded => { text := statement, arguments := .byName (q.parameterNames.zip vs) }
  | .network => Command.ofStatement statement vs

/-- What becomes of the query when its own function runs it. A parameter that is called like the
statement text takes its place, and only a text can be run. -/
def attempt (q : Query) (text : String) (vs : List Value) : Attempt :=
  match q.statementValue text vs with
  | .text statement => .send (q.command statement vs)
  | _ => .refuse .misuse

end Query

/-- A value is a text, or it can be run nowhere. -/
theorem Object.text?_cases (v : Value) :
    (∃ s, v = .text s) ∨
      (∀ s, v ≠ .text s) ∧ (value v).text? = none ∧ (value v).runnable? = none := by
  cases v with
  | text s => exact .inl ⟨s, rfl⟩
  | _ => exact .inr ⟨nofun, rfl, rfl⟩

namespace Query

variable (q : Query) {text : String} {vs : List Value}

theorem attempt_of_text {s : String} (h : q.statementValue text vs = .text s) :
    q.attempt text vs = .send (q.command s vs) := by
  rw [attempt, h]

theorem attempt_of_not_text (h : ∀ s, q.statementValue text vs ≠ .text s) :
    q.attempt text vs = .refuse .misuse := by
  unfold attempt
  split
  · rename_i s hs
    exact absurd hs (h s)
  · rfl

end Query

namespace Program

/-- What running a query for its effect does to the databases, over a connection of its backend. -/
def executed (p : Program) (q : Query) (c : Nat) (vs : List Value) : Session Object :=
  (p.invoke 1 (Role.execute.ident q.name) (.connection q.backend c :: vs.map .value)).session

theorem lookup_function {p : Program} {name : String} {f : Function}
    (h : p.find? name = some (.functionDef f)) : p.lookup name = pure (.function f) := by
  rw [lookup, h]

theorem invoke_function {p : Program} {name : String} {f : Function}
    (h : p.find? name = some (.functionDef f)) (depth : Nat) (args : List Object) :
    p.invoke depth name args = p.call depth (.function f) args := by
  rw [invoke, lookup_function h, h]
  rfl

namespace Of

variable {config : Config} {b : Book} {p : Program} {q : Query} {vs : List Value} {text : String}

/-- The query's own function does what `attempt` says. -/
theorem call_own_execute (hp : p.Of config b) (hq : q ∈ b.queries)
    (htext : (q.backend.statementText config q).outcome = .ok text) {ps : List Argument}
    (hps : ps.map Argument.name = q.parameterNames) (hvs : vs.length = q.parameters.length)
    (c : Nat) :
    ∃ x : Session Object, (q.attempt text vs).MadeBy q.backend c x ∧
      ∀ depth, p.call (depth + 1) (.function (q.execute ps))
        (.connection q.backend c :: vs.map .value) = lift x := by
  have hcases := Object.text?_cases (q.statementValue text vs)
  cases hg : q.backend with
  | embedded =>
    have hcall := hp.call_embedded_execute hq htext hps hvs (c := c)
    rw [Query.execute, hg]
    rcases hcases with ⟨s, hs⟩ | ⟨hs, hnone, -⟩
    · rw [hs] at hcall
      rw [q.attempt_of_text hs, Query.command, hg]
      refine ⟨_, (Session.executeFile_sends c s (q.parameterNames.zip vs)).map
        fun n => .value (.int n), fun depth => ?_⟩
      exact (hcall depth).trans (Run.lift_bind_pure _ _)
    · rw [hnone] at hcall
      rw [q.attempt_of_not_text hs]
      exact ⟨_, Attempt.refuse_of_throw rfl rfl, hcall⟩
  | network =>
    have hcall := hp.call_network_execute hq htext hps hvs (c := c)
    rw [Query.execute, hg]
    rcases hcases with ⟨s, hs⟩ | ⟨hs, -, hnone⟩
    · rw [hs] at hcall
      rw [q.attempt_of_text hs, Query.command, hg]
      refine ⟨_, (Session.execute_sends .network c (.plain s) vs).map
        fun n => .value (.int n), fun depth => ?_⟩
      exact (hcall depth).trans (Run.lift_bind_pure _ _)
    · simp only [Run.overClient, hnone] at hcall
      rw [q.attempt_of_not_text hs]
      refine ⟨_, Attempt.refuse_of_withCursor.map fun n => .value (.int n), fun depth => ?_⟩
      exact (hcall depth).trans (Run.lift_bind_pure _ _)

theorem call_executePrepared_of_ne {ps : List Argument} (h : vs.length ≠ ps.length + 1)
    (depth : Nat) (g : Backend) (c : Nat) :
    p.call (depth + 1) (.function (Network.executePrepared q ps))
        (.connection g c :: vs.map .value) =
      lift (throw ((Network.executePrepared q ps).mismatch (vs.length + 1))) := by
  rw [call_function, Function.apply_of_ne]
  · simp only [List.length_cons, List.length_map]
    rfl
  · simp [Network.executePrepared, Network.function, Function.arguments]
    omega

/-- The prepared form of another query, called in the place of a query's own function, makes an
attempt too, the same over every connection: it takes the first value for its statement. -/
theorem call_taken_execute (hp : p.Of config b) (hq : q ∈ b.queries) {ps : List Argument}
    (hps : ps.map Argument.name = q.parameterNames) (g : Backend) (vs : List Value) :
    ∃ a : Attempt, ∀ c, ∃ x : Session Object, a.MadeBy g c x ∧
      ∀ depth, p.call (depth + 1) (.function (Network.executePrepared q ps))
        (.connection g c :: vs.map .value) = lift x := by
  have hlength : ps.length = q.parameters.length := by
    simpa [Query.parameterNames] using congrArg List.length hps
  by_cases hcount : vs.length = ps.length + 1
  case neg =>
    exact ⟨.refuse _, fun c => ⟨_, Attempt.refuse_of_throw rfl rfl,
      fun depth => call_executePrepared_of_ne hcount depth g c⟩⟩
  cases vs with
  | nil => cases hcount
  | cons v rest =>
    have hvs : rest.length = q.parameters.length := (Nat.succ.inj hcount).trans hlength
    -- the value that comes first is where the prepared form expects its statement
    have hcall := fun c depth => hp.call_executePrepared hq hps hvs depth g c (.value v)
    have hcases := Object.text?_cases v
    cases g with
    | embedded =>
      simp only [Object.invoke, Run.onFile, Object.values?_tuple, Run.need_some, pure_bind] at hcall
      rcases hcases with ⟨s, rfl⟩ | ⟨-, hnone, -⟩
      · refine ⟨.send { text := s, arguments := .positional rest }, fun c =>
          ⟨_, (Session.submit_sends .embedded c .embedded _).map Object.cursor, fun depth => ?_⟩⟩
        refine (hcall c depth).trans ?_
        simp only [Object.text?, Run.need_some, Run.lift_bind_pure, Run.lift_bind, bind_assoc,
          pure_bind]
      · rw [hnone] at hcall
        exact ⟨.refuse .misuse, fun c => ⟨_, Attempt.refuse_of_throw rfl rfl, hcall c⟩⟩
    | network =>
      simp only [Object.invoke, Run.onClient, Object.values?_tuple, Run.need_some, pure_bind,
        Run.overClient] at hcall
      rcases hcases with ⟨s, rfl⟩ | ⟨-, -, hnone⟩
      · refine ⟨.send (Command.ofStatement s rest), fun c =>
          ⟨_, (Session.execute_sends .network c (.plain s) rest).map fun n => .value (.int n),
            fun depth => ?_⟩⟩
        exact (hcall c depth).trans (Run.lift_bind_pure _ _)
      · rw [hnone] at hcall
        refine ⟨.refuse .misuse, fun c =>
          ⟨_, Attempt.refuse_of_withCursor.map fun n => .value (.int n), fun depth => ?_⟩⟩
        exact (hcall c depth).trans (Run.lift_bind_pure _ _)

theorem executed_eq {f : Function} {c : Nat} {x : Session Object}
    (hfind : p.find? (Role.execute.ident q.name) = some (.functionDef f))
    (hcall : ∀ depth, p.call (depth + 1) (.function f)
      (.connection q.backend c :: vs.map .value) = lift x) : p.executed q c vs = x := by
  rw [executed, invoke_function hfind, hcall 0, Run.session_lift]

/-- **Running a query for its effect makes an attempt**, the same over every connection. It is the
query's own unless the query is replaced. -/
theorem executed_made (hp : p.Of config b) (hq : q ∈ b.queries) :
    ∃ f, p.lookup (Role.execute.ident q.name) = pure (.function f) ∧
      ∀ vs : List Value, vs.length = q.parameters.length →
        (∀ c depth, p.call (depth + 1) (.function f) (.connection q.backend c :: vs.map .value) =
          lift (p.executed q c vs)) ∧
        ∃ a : Attempt, (∀ c, a.MadeBy q.backend c (p.executed q c vs)) ∧
          (¬ b.Replaced q → a = q.attempt (q.text config) vs) := by
  have htext := (hp.sections q hq).text_eq
  obtain ⟨ps, hps, hfind⟩ | ⟨hreplaced, x, hx, ps, hps, hfind⟩ := hp.find?_execute hq
  · refine ⟨_, lookup_function hfind, fun vs hvs => ⟨fun c => ?_, _, fun c => ?_, fun _ => rfl⟩⟩
    all_goals
      obtain ⟨y, hmade, hcall⟩ := hp.call_own_execute hq htext hps hvs c
      rw [executed_eq hfind hcall]
    · exact hcall
    · exact hmade
  · refine ⟨_, lookup_function hfind, fun vs _ => ?_⟩
    obtain ⟨a, hmade⟩ := hp.call_taken_execute hx hps q.backend vs
    refine ⟨fun c => ?_, a, fun c => ?_, fun hkept => absurd hreplaced hkept⟩
    all_goals
      obtain ⟨y, hmade, hcall⟩ := hmade c
      rw [executed_eq hfind hcall]
    · exact hcall
    · exact hmade

end Of

end Program

end QueryBook
