import QueryBook.Proofs.Session.Calls
import QueryBook.Proofs.Session.Preparing

/-!
# The functions that return rows agree

A network query with outputs has three functions that return rows, and each of them in two forms:
the query as it stands, or prepared before. Each is followed from its definition in the module to
the rows that the driver returned and what it makes of them. What comes back does not depend on how
the statement was sent, so the functions are compared there.

Two of them look at the number of rows before any row is decoded. This decides which error is seen
when there are several rows and one of them cannot be decoded: the number is reported by the two
functions that expect one row, and the row by the function that returns them all.

A parameter can get in the way. One that is called like the statement text is run in its place, so
that the errors of the two forms mention different statements.
-/

namespace QueryBook

open Run (lift)

namespace Session

/-- **A statement run for its rows returns those of the next answer**, however it was sent. -/
theorem query_outcome (client : Nat) (r : Runnable) (values : List Value) (w : World) :
    outcome (query client r values) w = w.answer.fetched := by
  have hrows := congrArg Cursor.rows
    (sentWorld_getD w client (channelOf r) (Command.ofRunnable r values))
  rw [outcome, query, withCursor_apply]
  simp only [always, bind_apply, submit_fresh, Answer.fetched]
  unfold Cursor.receive at hrows
  cases herror : w.answer.error with
  | some e => rfl
  | none =>
    rw [herror] at hrows
    exact congrArg Except.ok hrows

/-- What is prepared keeps its statement. -/
theorem statement_of_prepare {client : Nat} {key : CacheKey} {w w' : World} {p : Prepared}
    (h : prepare client key {} w = .ok p w') : p.statement = key.1 := by
  obtain ⟨_, e, he⟩ | ⟨_, _, _, ⟨e, he⟩ | ⟨_, hok⟩⟩ := prepare_cases client key {} w
  · cases h.symm.trans he
  · cases h.symm.trans he
  · cases h.symm.trans hok
    rfl

end Session

/-! ## Rows that cannot be decoded -/

/-- `e` is the error of the first item that has one. -/
def FirstError {ε α β : Type} (f : α → Except ε β) (as : List α) (e : ε) : Prop :=
  ∃ before a after, as = before ++ a :: after ∧ (∀ b ∈ before, ∃ c, f b = .ok c) ∧ f a = .error e

section

variable {ε α β : Type} {f : α → Except ε β}

theorem mapM_cons_of_error {a : α} {e : ε} (h : f a = .error e) (as : List α) :
    (a :: as).mapM f = .error e := by
  rw [List.mapM_cons, h]
  rfl

theorem mapM_cons_of_ok {a : α} {b : β} (h : f a = .ok b) (as : List α) :
    (a :: as).mapM f = (as.mapM f).map (b :: ·) := by
  rw [List.mapM_cons, h]
  cases as.mapM f <;> rfl

theorem firstError_cons_of_error {a : α} {e e' : ε} (h : f a = .error e') (as : List α) :
    FirstError f (a :: as) e ↔ e' = e := by
  constructor
  · rintro ⟨before, x, after, heq, hbefore, hx⟩
    -- nothing that has a result stands before the first item
    cases before with
    | nil =>
      cases heq
      cases h.symm.trans hx
      rfl
    | cons b before =>
      cases heq
      obtain ⟨c, hc⟩ := hbefore a List.mem_cons_self
      cases h.symm.trans hc
  · rintro rfl
    exact ⟨[], a, as, rfl, nofun, h⟩

theorem firstError_cons_of_ok {a : α} {b : β} {e : ε} (h : f a = .ok b) (as : List α) :
    FirstError f (a :: as) e ↔ FirstError f as e := by
  constructor
  · rintro ⟨before, x, after, heq, hbefore, hx⟩
    cases before with
    | nil =>
      cases heq
      cases h.symm.trans hx
    | cons b' before =>
      cases heq
      exact ⟨before, x, after, rfl, (List.forall_mem_cons.mp hbefore).2, hx⟩
  · rintro ⟨before, x, after, rfl, hbefore, hx⟩
    exact ⟨a :: before, x, after, rfl, List.forall_mem_cons.mpr ⟨⟨b, h⟩, hbefore⟩, hx⟩

/-- Items are mapped from left to right, up to the first error. -/
theorem mapM_eq_error_iff {as : List α} {e : ε} : as.mapM f = .error e ↔ FirstError f as e := by
  induction as with
  | nil =>
    refine ⟨nofun, ?_⟩
    rintro ⟨before, a, after, h, _⟩
    cases before <;> cases h
  | cons a as ih =>
    cases ha : f a with
    | error e' =>
      rw [mapM_cons_of_error ha, firstError_cons_of_error ha]
      exact ⟨Except.error.inj, congrArg Except.error⟩
    | ok b =>
      rw [firstError_cons_of_ok ha, ← ih, mapM_cons_of_ok ha]
      cases as.mapM f with
      | error e' => rfl
      | ok bs => exact ⟨nofun, nofun⟩

theorem mapM_eq_ok_iff {as : List α} {bs : List β} :
    as.mapM f = .ok bs ↔ List.Forall₂ (fun a b => f a = .ok b) as bs := by
  induction as generalizing bs with
  | nil =>
    rw [List.forall₂_nil_left_iff]
    exact ⟨fun h => by cases h; rfl, fun h => by rw [h]; rfl⟩
  | cons a as ih =>
    rw [List.forall₂_cons_left_iff]
    cases ha : f a with
    | error e =>
      rw [mapM_cons_of_error ha]
      exact ⟨nofun, nofun⟩
    | ok b =>
      rw [mapM_cons_of_ok ha, map_eq_ok_iff]
      constructor
      · rintro ⟨cs, hcs, rfl⟩
        exact ⟨b, cs, rfl, ih.mp hcs, rfl⟩
      · rintro ⟨c, cs, hc, hcs, rfl⟩
        cases hc
        exact ⟨cs, ih.mpr hcs, rfl⟩

end

/-- Items that are mapped without any effect are mapped beforehand. -/
theorem Run.mapM_eq_lift {α : Type} {o : α → Object} {f : Object → Run Object}
    {g : α → Except Failure Object} (h : ∀ a, f (o a) = lift (Session.ofExcept (g a)))
    (as : List α) : (as.map o).mapM f = lift (Session.ofExcept (as.mapM g)) := by
  induction as with
  | nil => rfl
  | cons a as ih =>
    rw [List.map_cons, List.mapM_cons, List.mapM_cons, h, ih, ← lift_ofExcept_bind]
    congr 1
    funext x
    rw [← lift_ofExcept_bind]
    rfl

/-! ## What the functions make of the rows -/

namespace Cardinality

variable {α β : Type}

theorem one_map (f : α → β) (statement : Option String) (rows : List α) :
    one statement (rows.map f) = (one statement rows).map f := by
  match rows with
  | [] | [_] => rfl
  | _ :: _ :: _ => simp [one, Except.map]

theorem atMostOne_map (f : α → β) (statement : Option String) (rows : List α) :
    atMostOne statement (rows.map f) = (atMostOne statement rows).map (Option.map f) := by
  match rows with
  | [] | [_] => rfl
  | _ :: _ :: _ => simp [atMostOne, Except.map]

end Cardinality

namespace Network

/-- A decoded row is an object. -/
def DecodesTo (types : List ColumnType) (row : List Value) (o : Object) : Prop :=
  ∃ values, ColumnType.decodeRow types row = .ok values ∧ o = .value (.row values)

/-- What becomes of a row. -/
def decoded (types : List ColumnType) (row : List Value) : Except Failure Object :=
  (ColumnType.decodeRow types row).map fun values => .value (.row values)

/-- What becomes of all rows. -/
def allRows (types : List ColumnType) (rows : List (List Value)) : Except Failure Object :=
  (rows.mapM (decoded types)).map .list

/-- What becomes of rows of which only one is expected. -/
def onlyRow (statement : String) (types : List ColumnType) (rows : List (List Value)) :
    Except Failure Object :=
  (Cardinality.one (some statement) rows).mapError Failure.rows >>= decoded types

/-- What becomes of rows of which at most one is expected. -/
def rowIfAny (statement : String) (types : List ColumnType) (rows : List (List Value)) :
    Except Failure Object :=
  (Cardinality.atMostOne (some statement) rows).mapError Failure.rows >>= fun row? =>
    match row? with
    | none => .ok .null
    | some row => decoded types row

/-- What the function for all rows, the one for the only row and the one for a row if there is any
owe each other, given what the driver returned. -/
structure RowsAgree (statement : String) (types : List ColumnType)
    (fetched : Except Failure (List (List Value))) (all one opt : Except Failure Object) :
    Prop where
  one_iff : ∀ row, one = .ok row ↔ all = .ok (.list [row])
  none_iff : opt = .ok .null ↔ all = .ok (.list [])
  some_iff : ∀ row, row ≠ .null → (opt = .ok row ↔ all = .ok (.list [row]))
  noRows : fetched = .ok [] → one = .error (.rows (.noRows (some statement)))
  /-- The number of rows counts before any of them is decoded. -/
  tooManyRows : ∀ rows, fetched = .ok rows → 2 ≤ rows.length →
    one = .error (.rows (.tooManyRows rows.length (some statement))) ∧
      opt = .error (.rows (.tooManyRows rows.length (some statement)))
  decoded : ∀ rows, fetched = .ok rows →
    (∀ results, all = .ok (.list results) ↔ List.Forall₂ (DecodesTo types) rows results) ∧
      ∀ e, all = .error e ↔ FirstError (ColumnType.decodeRow types) rows e
  failed : ∀ e, fetched = .error e → all = .error e ∧ one = .error e ∧ opt = .error e

variable {statement : String} {types : List ColumnType} {row : List Value}
  {rows : List (List Value)} {o : Object} {os : List Object} {e : Failure}

theorem decoded_eq_ok_iff : decoded types row = .ok o ↔ DecodesTo types row o := by
  rw [decoded, map_eq_ok_iff]
  exact exists_congr fun _ => and_congr_right fun _ => eq_comm

theorem decoded_eq_error_iff :
    decoded types row = .error e ↔ ColumnType.decodeRow types row = .error e := map_eq_error_iff

theorem decoded_ne_null : decoded types row ≠ .ok .null := by
  rw [ne_eq, decoded_eq_ok_iff]
  rintro ⟨values, -, h⟩
  cases h

theorem allRows_eq_ok_iff :
    allRows types rows = .ok (.list os) ↔ List.Forall₂ (DecodesTo types) rows os := by
  rw [allRows, map_eq_ok_iff]
  simp only [Object.list.injEq, exists_eq_right, mapM_eq_ok_iff, decoded_eq_ok_iff]

theorem allRows_eq_error_iff :
    allRows types rows = .error e ↔ FirstError (ColumnType.decodeRow types) rows e := by
  have hok : ∀ row, (∃ o, decoded types row = .ok o) ↔
      ∃ values, ColumnType.decodeRow types row = .ok values := by
    intro row
    simp only [decoded_eq_ok_iff, DecodesTo]
    exact ⟨fun ⟨_, values, h, _⟩ => ⟨values, h⟩, fun ⟨values, h⟩ => ⟨_, values, h, rfl⟩⟩
  have hfirst : FirstError (decoded types) rows e ↔
      FirstError (ColumnType.decodeRow types) rows e := by
    simp only [FirstError, hok, decoded_eq_error_iff]
  rw [allRows, map_eq_error_iff, mapM_eq_error_iff, hfirst]

theorem length_of_allRows (h : allRows types rows = .ok (.list os)) : rows.length = os.length :=
  (allRows_eq_ok_iff.mp h).length_eq

theorem allRows_singleton : allRows types [row] = .ok (.list [o]) ↔ decoded types row = .ok o := by
  rw [allRows_eq_ok_iff, decoded_eq_ok_iff]
  simp

theorem onlyRow_eq_ok_iff :
    onlyRow statement types rows = .ok o ↔ allRows types rows = .ok (.list [o]) := by
  match rows with
  | [] => exact ⟨nofun, nofun⟩
  | [row] => exact allRows_singleton.symm
  | first :: second :: rest => exact ⟨nofun, fun h => by simpa using length_of_allRows h⟩

theorem rowIfAny_eq_null_iff :
    rowIfAny statement types rows = .ok .null ↔ allRows types rows = .ok (.list []) := by
  match rows with
  | [] => exact ⟨fun _ => rfl, fun _ => rfl⟩
  | [row] =>
    exact ⟨fun h => absurd h decoded_ne_null, fun h => by simpa using length_of_allRows h⟩
  | first :: second :: rest => exact ⟨nofun, fun h => by simpa using length_of_allRows h⟩

theorem rowIfAny_eq_ok_iff (ho : o ≠ .null) :
    rowIfAny statement types rows = .ok o ↔ allRows types rows = .ok (.list [o]) := by
  match rows with
  | [] => exact ⟨fun h => absurd (Except.ok.inj h).symm ho, nofun⟩
  | [row] => exact allRows_singleton.symm
  | first :: second :: rest => exact ⟨nofun, fun h => by simpa using length_of_allRows h⟩

/-- Several rows are too many, whether or not they can be decoded. -/
theorem tooManyRows_of_two_le (h : 2 ≤ rows.length) :
    onlyRow statement types rows =
        .error (.rows (.tooManyRows rows.length (some statement))) ∧
      rowIfAny statement types rows =
        .error (.rows (.tooManyRows rows.length (some statement))) := by
  match rows, h with
  | first :: second :: rest, _ => exact ⟨rfl, rfl⟩

/-- The functions agree on whatever the driver returns. -/
theorem rowsAgree (statement : String) (types : List ColumnType)
    (fetched : Except Failure (List (List Value))) :
    RowsAgree statement types fetched (fetched >>= allRows types)
      (fetched >>= onlyRow statement types) (fetched >>= rowIfAny statement types) := by
  cases fetched with
  | ok rows =>
    refine ⟨fun _ => onlyRow_eq_ok_iff, rowIfAny_eq_null_iff, fun _ h => rowIfAny_eq_ok_iff h,
      ?_, ?_, ?_, nofun⟩
    · rintro ⟨⟩
      rfl
    · rintro _ ⟨⟩ hlength
      exact tooManyRows_of_two_le hlength
    · rintro _ ⟨⟩
      exact ⟨fun _ => allRows_eq_ok_iff, fun _ => allRows_eq_error_iff⟩
  | error e =>
    refine ⟨fun _ => ⟨nofun, nofun⟩, ⟨nofun, nofun⟩, fun _ _ => ⟨nofun, nofun⟩, nofun, nofun, nofun,
      ?_⟩
    rintro _ ⟨⟩
    exact ⟨rfl, rfl, rfl⟩

end Network

/-! ## In the frame of a function -/

/-- The rows of the query. -/
def Network.Form.rows (form : Form) (q : Query) : Expr :=
  .call (.field client "query") [form.target q, q.valueTuple]

/-- The frame in which a function runs that returns rows. It can run the statement, and it knows
which statement errors mention and how a row is decoded. -/
structure Frame.Queries (fr : Frame) (q : Query) (form : Network.Form)
    (fetched : Session (List (List Value))) (statement : String) (types : List ColumnType) :
    Prop where
  rows : (form.rows q).eval fr =
    lift fetched >>= fun rows => pure (.list (rows.map fun row => .value (.row row)))
  mentioned : (form.mentioned q).eval fr = pure (.value (.text statement))
  results : fr.lookup "_res" = pure (.library .results)
  call : ∀ name args,
    fr.call (.method (.library .results) name) args = Library.results.invoke name args
  fromRow : ∃ f, fr.lookup (Role.fromRow.ident q.name) = pure (.function f) ∧
    ∀ row, fr.call (.function f) [.value (.row row)] =
      lift (Session.ofExcept (Network.decoded types row))

namespace Frame.Queries

variable {fr : Frame} {q : Query} {form : Network.Form} {fetched : Session (List (List Value))}
  {statement : String} {types : List ColumnType}

theorem runAll_many (h : fr.Queries q form fetched statement types) :
    BodyLine.runAll fr [.result (.each (.global (Role.fromRow.ident q.name)) (form.rows q))] =
      lift (fetched >>= fun rows => Session.ofExcept (Network.allRows types rows)) := by
  obtain ⟨f, hf, hcall⟩ := h.fromRow
  have hitem : ∀ row : List Value, ((do
      let f ← (Expr.global (Role.fromRow.ident q.name)).eval (fr.bind "r" (.value (.row row)))
      fr.call f [.value (.row row)]) : Run Object) =
      lift (Session.ofExcept (Network.decoded types row)) := by
    intro row
    -- a row is called `r` while it is decoded, which hides no definition
    have hne : Role.fromRow.ident q.name ≠ "r" := Role.Foreign.ident_ne (by decide) _ _
    rw [Expr.eval, Frame.lookup_bind_of_ne _ hne, hf, pure_bind, hcall]
  rw [BodyLine.runAll, Expr.eval, h.rows]
  simp only [bind_assoc, pure_bind, Object.list?, Run.need_some]
  rw [← Run.lift_bind]
  congr 1
  funext rows
  rw [Run.mapM_eq_lift hitem, Network.allRows, Run.lift_bind_pure]
  cases rows.mapM (Network.decoded types) <;> rfl

theorem eval_expect (h : fr.Queries q form fetched statement types) (contract : String) :
    (Expr.call (.field (.global "_res") contract) [form.rows q, form.mentioned q]).eval fr =
      lift fetched >>= fun rows => Library.results.invoke contract
        [.list (rows.map fun row => .value (.row row)), .value (.text statement)] := by
  simp only [Expr.eval, Expr.evalAll, h.rows, h.mentioned, h.results, h.call, Object.member,
    bind_assoc, pure_bind]

theorem runAll_one (h : fr.Queries q form fetched statement types) :
    BodyLine.runAll fr [.result (.call (.global (Role.fromRow.ident q.name))
        [.call (.field (.global "_res") "expect_one") [form.rows q, form.mentioned q]])] =
      lift (fetched >>= fun rows => Session.ofExcept (Network.onlyRow statement types rows)) := by
  obtain ⟨f, hf, hcall⟩ := h.fromRow
  rw [BodyLine.runAll, Expr.eval, Expr.eval, hf, pure_bind, Expr.evalAll, h.eval_expect]
  simp only [Expr.evalAll, bind_assoc, pure_bind, Library.invoke, Object.list?, Object.text?,
    Run.need_some, Cardinality.one_map]
  rw [← Run.lift_bind]
  congr 1
  funext rows
  unfold Network.onlyRow
  cases Cardinality.one (some statement) rows with
  | error e => rfl
  | ok row => exact hcall row

theorem runAll_opt (h : fr.Queries q form fetched statement types) :
    BodyLine.runAll fr
        [.assign "row"
          (.call (.field (.global "_res") "expect_opt") [form.rows q, form.mentioned q]),
         .result (.unlessNone "row" (.call (.global (Role.fromRow.ident q.name))
          [.argument "row"]))] =
      lift (fetched >>= fun rows => Session.ofExcept (Network.rowIfAny statement types rows)) := by
  obtain ⟨f, hf, hcall⟩ := h.fromRow
  rw [BodyLine.runAll, h.eval_expect]
  simp only [bind_assoc, pure_bind, Library.invoke, Object.list?, Object.text?, Run.need_some,
    Cardinality.atMostOne_map]
  rw [← Run.lift_bind]
  congr 1
  funext rows
  unfold Network.rowIfAny
  cases Cardinality.atMostOne (some statement) rows with
  | error e => rfl
  | ok row? =>
    cases row? with
    | none => rfl
    | some row =>
      have hne : Role.fromRow.ident q.name ≠ "row" := Role.Foreign.ident_ne (by decide) _ _
      refine Eq.trans ?_ (hcall row)
      show BodyLine.runAll (fr.bind "row" (.value (.row row))) _ = _
      simp only [BodyLine.runAll, Expr.eval, Expr.evalAll, Frame.lookup_bind_self,
        Frame.lookup_bind_of_ne _ hne, hf, pure_bind]
      rfl

end Frame.Queries

/-! ## The functions of a module -/

namespace Network.Form

/-- The function of the form that returns all rows. -/
def many : Form → Role
  | plain => .queue
  | prepared => .queuePrepared

/-- The one that returns the only row. -/
def one : Form → Role
  | plain => .queueOne
  | prepared => .queueOnePrepared

/-- The one that returns a row if there is any. -/
def opt : Form → Role
  | plain => .queueOpt
  | prepared => .queueOptPrepared

theorem mem_rowFunctions {form : Form} {q : Query} {ps : List Argument} {row : String}
    {f : Function} (h : f ∈ queueFamily q ps row form.many form.one form.opt form) :
    f ∈ rowFunctions q ps row := by
  cases form with
  | plain => exact List.mem_append_left _ h
  | prepared => exact List.mem_append_right _ h

end Network.Form

namespace Runnable

/-- The form of the functions that run it. -/
def form : Runnable → Network.Form
  | plain _ => .plain
  | prepared _ => .prepared

/-- What these functions are given beside the client and the values. -/
def arguments : Runnable → List Object
  | plain _ => []
  | prepared p => [.prepared p]

/-- The statement text that errors mention. -/
def statement : Runnable → String
  | plain text => text
  | prepared p => p.statement

end Runnable

namespace Program

/-- What a function for a query returns that is called over a connection of its backend. -/
def returned (p : Program) (r : Role) (q : Query) (c : Nat) (args : List Object) (m : Memory) :
    Except Failure Object :=
  (p.invoke p.depth (r.ident q.name) (.connection q.backend c :: args)).outcome m

namespace Of

variable {config : Config} {b : Book} {p : Program} {q : Query} {vs : List Value}
  {types : List ColumnType}

theorem call_fromRow (hp : p.Of config b) (hq : q ∈ b.queries) (houtputs : q.hasOutputs = true)
    (htypes : q.outputs.mapM ColumnType.ofTypeExpr? = some types) (depth : Nat) (hint : String)
    (row : List Value) :
    p.call (depth + 1) (.function (Network.fromRow q hint)) [.value (.row row)] =
      lift (Session.ofExcept (Network.decoded types row)) := by
  obtain ⟨fr, hown, hmodule, hcall, happly⟩ := (Network.emits_fromRow hint).apply_bare (hp.sound hq)
    rfl rfl [.value (.row row)] rfl p (p.call depth)
  have hrow : fr.lookup "row" = pure (.value (.row row)) := hown _ _ (.head _)
  have hlibrary : fr.lookup "_t" = pure (.library .types) :=
    (hmodule _ (by decide)).trans (hp.lookup_foreign (by decide))
  have hcolumns := (hmodule _ (Role.ident_notMem_own (by decide) q.name)).trans
    (hp.lookup_outputs hq houtputs htypes)
  have hdecode : (Object.library .types).member "decode_row" =
      .method (.library .types) "decode_row" := rfl
  rw [call_function]
  refine happly.trans ?_
  simp only [Network.fromRow, BodyLine.runAll, Expr.eval, Expr.evalAll, hrow, hlibrary, hcolumns,
    pure_bind, hcall, hdecode, call_library, Library.invoke, Object.columns?_tuple, Run.need_some,
    Run.lift_bind_pure, Network.decoded]
  cases ColumnType.decodeRow types row <;> rfl

theorem find?_fromRow (hp : p.Of config b) (hq : q ∈ b.queries) (hg : q.backend = .network)
    (houtputs : q.hasOutputs = true) (hfree : b.CollisionFree q) :
    ∃ hint, p.find? (Role.fromRow.ident q.name) = some (.functionDef (Network.fromRow q hint)) := by
  obtain ⟨ps, hint, -, hmem⟩ := (hp.sections q hq).network_mem hg
  refine ⟨hint, hp.find?_of_collisionFree hq hfree (d := .functionDef (Network.fromRow q hint)) ?_⟩
  refine hmem _ ?_
  rw [if_pos houtputs]
  exact List.mem_append_left _ (List.mem_append_left _ List.mem_cons_self)

/-- The frame of a function that returns rows. -/
theorem queries_frame (hp : p.Of config b) (hq : q ∈ b.queries) (hg : q.backend = .network)
    (houtputs : q.hasOutputs = true) (hcaptures : ¬ q.Captures) (hfree : b.CollisionFree q)
    (htypes : q.outputs.mapM ColumnType.ofTypeExpr? = some types)
    (hvs : vs.length = q.parameters.length) {r : Runnable}
    (hr : r = .plain (q.text config) ∨ ∃ s, r = .prepared s) {f : Function} (hf : q.Emits f)
    (hps : f.parameters.map Argument.name = q.parameterNames)
    (hleading : f.leading = Backend.network.connection :: r.form.arguments)
    (htrailing : f.trailing = []) (depth c : Nat) :
    ∃ fr : Frame, fr.Queries q r.form (Session.query c r vs) r.statement types ∧
      p.call (depth + 2) (.function f) (.connection .network c :: r.arguments ++ vs.map .value) =
        BodyLine.runAll fr f.body := by
  obtain ⟨fr, hfr, hcall, happly⟩ := hf.apply_eq (hp.sound hq) hps hvs
    (.connection .network c :: r.arguments) [] (by rw [hleading]; cases r <;> rfl)
    (by rw [htrailing]; rfl) p (p.call (depth + 1))
  rw [List.append_nil] at happly
  rw [hleading] at hfr
  have hclient : fr.lookup "client" = pure (.connection .network c) := hfr.own _ _ (.head _)
  have hsql : fr.lookup (Role.sql.ident q.name) = pure (.value (.text (q.text config))) :=
    (hfr.lookup_ident (by decide)
      (Query.ident_notMem_of_not_captures hcaptures List.mem_cons_self)).trans
      (hp.lookup_sql hq (hp.sections q hq).text_eq)
  obtain ⟨hint, hfromRow⟩ := hp.find?_fromRow hq hg houtputs hfree
  refine ⟨fr, ⟨?_, ?_, ?_, fun name args => hcall ▸ call_library _ _ _ _, ?_⟩, happly⟩
  · rcases hr with rfl | ⟨s, rfl⟩
    · simp only [Network.Form.rows, Runnable.form, Network.Form.target, Network.sql, Network.client,
        Expr.eval, Expr.evalAll, hclient, hsql, hfr.eval_valueTuple hvs, pure_bind, hcall,
        Object.member, call_connection, Object.invoke, Run.onClient, Object.values?_tuple,
        Run.need_some, Run.overClient, Object.runnable?]
    · have hstmt : fr.lookup "stmt" = pure (.prepared s) := hfr.own _ _ (.tail _ (.head _))
      simp only [Network.Form.rows, Runnable.form, Network.Form.target, Network.client,
        Expr.eval, Expr.evalAll, hclient, hstmt, hfr.eval_valueTuple hvs, pure_bind, hcall,
        Object.member, call_connection, Object.invoke, Run.onClient, Object.values?_tuple,
        Run.need_some, Run.overClient, Object.runnable?]
  · rcases hr with rfl | ⟨s, rfl⟩
    · exact hsql
    · have hstmt : fr.lookup "stmt" = pure (.prepared s) := hfr.own _ _ (.tail _ (.head _))
      simp only [Runnable.form, Network.Form.mentioned, Expr.eval, hstmt, pure_bind]
      rfl
  · exact (hfr.lookup_runtime (hp.sound hq) (by decide)).trans (hp.lookup_foreign (by decide))
  · refine ⟨Network.fromRow q hint, ?_, fun row => ?_⟩
    · exact (hfr.lookup_ident (by decide) (Query.ident_notMem_of_not_captures hcaptures
        (Query.fromRow_mem_referred hg houtputs))).trans (lookup_function hfromRow)
    · rw [hcall]
      exact hp.call_fromRow hq houtputs htypes depth hint row

/-- **What each function that returns rows does**, in either form. -/
theorem invoke_rowFunctions (hp : p.Of config b) (hq : q ∈ b.queries) (hg : q.backend = .network)
    (houtputs : q.hasOutputs = true) (hcaptures : ¬ q.Captures) (hfree : b.CollisionFree q)
    (htypes : q.outputs.mapM ColumnType.ofTypeExpr? = some types)
    (hvs : vs.length = q.parameters.length) {r : Runnable}
    (hr : r = .plain (q.text config) ∨ ∃ s, r = .prepared s) (depth c : Nat) :
    let invoke (role : Role) := p.invoke (depth + 2) (role.ident q.name)
      (.connection .network c :: r.arguments ++ vs.map .value)
    invoke r.form.many = lift (Session.query c r vs >>= fun rows =>
      Session.ofExcept (Network.allRows types rows)) ∧
    invoke r.form.one = lift (Session.query c r vs >>= fun rows =>
      Session.ofExcept (Network.onlyRow r.statement types rows)) ∧
    invoke r.form.opt = lift (Session.query c r vs >>= fun rows =>
      Session.ofExcept (Network.rowIfAny r.statement types rows)) := by
  intro invoke
  obtain ⟨ps, row, hps, hmem⟩ := (hp.sections q hq).network_mem hg
  have hfamily : ∀ f ∈ Network.queueFamily q ps row r.form.many r.form.one r.form.opt r.form,
      ∃ fr : Frame, fr.Queries q r.form (Session.query c r vs) r.statement types ∧
        p.invoke (depth + 2) f.name (.connection .network c :: r.arguments ++ vs.map .value) =
          BodyLine.runAll fr f.body := by
    intro f hf
    have hfind : p.find? f.name = some (.functionDef f) := by
      refine hp.find?_of_collisionFree hq hfree (d := .functionDef f) (hmem f ?_)
      rw [if_pos houtputs, if_pos houtputs]
      exact List.mem_append_right _ (Network.Form.mem_rowFunctions hf)
    have hemits := Network.emits_queueFamily hg houtputs hps f hf
    have hshape : f.parameters = ps ∧
        f.leading = Backend.network.connection :: r.form.arguments ∧ f.trailing = [] := by
      simp only [Network.queueFamily, List.mem_cons, List.not_mem_nil, or_false] at hf
      rcases hf with rfl | rfl | rfl <;> exact ⟨rfl, rfl, rfl⟩
    obtain ⟨fr, hfr, hcall⟩ := hp.queries_frame hq hg houtputs hcaptures hfree htypes hvs hr hemits
      (hshape.1 ▸ hps) hshape.2.1 hshape.2.2 depth c
    exact ⟨fr, hfr, (invoke_function hfind _ _).trans hcall⟩
  -- the three functions differ in their bodies only
  simp only [Network.queueFamily, List.forall_mem_cons] at hfamily
  obtain ⟨⟨_, hmany, hmanyRun⟩, ⟨_, hone, honeRun⟩, ⟨_, hopt, hoptRun⟩, -⟩ := hfamily
  exact ⟨hmanyRun.trans hmany.runAll_many, honeRun.trans hone.runAll_one,
    hoptRun.trans hopt.runAll_opt⟩

theorem invoke_prepare (hp : p.Of config b) (hq : q ∈ b.queries) (hg : q.backend = .network)
    (hfree : b.CollisionFree q) (depth c : Nat) :
    p.invoke (depth + 1) (Role.prepare.ident q.name) [.connection .network c] =
      lift (Session.prepare c (q.text config, []) >>= fun s => pure (.prepared s)) := by
  obtain ⟨ps, row, -, hmem⟩ := (hp.sections q hq).network_mem hg
  have hfind : p.find? (Role.prepare.ident q.name) = some (.functionDef (Network.prepare q)) :=
    hp.find?_of_collisionFree hq hfree (d := .functionDef (Network.prepare q)) (hmem _ (by simp))
  obtain ⟨fr, hown, hmodule, hcall, happly⟩ := Network.emits_prepare.1.apply_bare (hp.sound hq)
    rfl rfl [.connection .network c] rfl p (p.call depth)
  have hclient : fr.lookup "client" = pure (.connection .network c) := hown _ _ (.head _)
  have hsql := (hmodule _ (Role.ident_notMem_own (by decide) q.name)).trans
    (hp.lookup_sql hq (hp.sections q hq).text_eq)
  rw [invoke_function hfind, call_function]
  refine happly.trans ?_
  simp only [Network.prepare, Network.function, Network.client, Network.sql, BodyLine.runAll,
    Expr.eval, Expr.evalAll, hclient, hsql, pure_bind, hcall, Object.member, call_connection,
    Object.invoke, Run.onClient, Object.text?, Run.need_some, Run.lift_bind_pure]

theorem returned_prepare (hp : p.Of config b) (hq : q ∈ b.queries) (hg : q.backend = .network)
    (hfree : b.CollisionFree q) {c : Nat} {m : Memory} {o : Object}
    (h : p.returned .prepare q c [] m = .ok o) :
    ∃ s : Prepared, o = .prepared s ∧ s.statement = q.text config := by
  rw [returned, hg, depth, hp.invoke_prepare hq hg hfree, Run.outcome_lift, Session.outcome,
    Session.bind_apply] at h
  cases hs : Session.prepare c (q.text config, []) {} m.world with
  | ok s w =>
    rw [hs] at h
    exact ⟨s, (Except.ok.inj h).symm, Session.statement_of_prepare hs⟩
  | error e w =>
    rw [hs] at h
    cases h

/-- What the functions that return rows return depends on what the driver returned and on nothing
else. -/
theorem returned_rowFunctions (hp : p.Of config b) (hq : q ∈ b.queries) (hg : q.backend = .network)
    (houtputs : q.hasOutputs = true) (hcaptures : ¬ q.Captures) (hfree : b.CollisionFree q)
    (htypes : q.outputs.mapM ColumnType.ofTypeExpr? = some types)
    (hvs : vs.length = q.parameters.length) {r : Runnable}
    (hr : r = .plain (q.text config) ∨ ∃ s, r = .prepared s) (c : Nat) (m : Memory) :
    let returned (role : Role) := p.returned role q c (r.arguments ++ vs.map .value) m
    let fetched := m.world.answer.fetched
    returned r.form.many = fetched >>= Network.allRows types ∧
    returned r.form.one = fetched >>= Network.onlyRow r.statement types ∧
    returned r.form.opt = fetched >>= Network.rowIfAny r.statement types := by
  intro returned fetched
  obtain ⟨hmany, hone, hopt⟩ := hp.invoke_rowFunctions hq hg houtputs hcaptures hfree htypes hvs hr
    p.definitions.length c
  have houtcome (f : List (List Value) → Except Failure Object) :
      (lift (Session.query c r vs >>= fun rows => Session.ofExcept (f rows))).outcome m =
        fetched >>= f := by
    rw [Run.outcome_lift]
    exact Session.outcome_bind (Session.query_outcome c r vs m.world) fun _ _ =>
      Session.outcome_ofExcept _ _
  simp only [returned, Program.returned, hg, depth]
  refine ⟨?_, ?_, ?_⟩
  · exact (congrArg (Run.outcome · m) hmany).trans (houtcome _)
  · exact (congrArg (Run.outcome · m) hone).trans (houtcome _)
  · exact (congrArg (Run.outcome · m) hopt).trans (houtcome _)

end Of

/-- **The functions that return rows agree**, on all arguments and whatever the driver returns, for
a query that no parameter and no other query gets in the way of. The forms for a prepared query,
given what preparing it returned, do what the others do when the driver returns the same. -/
theorem row_functions_agree {config : Config} {b : Book} {m : Module} {q : Query}
    (hb : b.check = .ok ()) (hm : (Module.build config .standard b).outcome = .ok m)
    (hq : q ∈ b.queries) (hg : q.backend = .network) (houtputs : q.hasOutputs = true)
    (hcaptures : ¬ q.Captures) (hfree : b.CollisionFree q) :
    ∃ types, q.outputs.mapM ColumnType.ofTypeExpr? = some types ∧
      ∀ (vs : List Value), vs.length = q.parameters.length → ∀ (c : Nat) (memory : Memory),
        let returned (r : Role) := (ofModule m).returned r q c (vs.map .value) memory
        Network.RowsAgree (q.text config) types memory.world.answer.fetched
          (returned .queue) (returned .queueOne) (returned .queueOpt) ∧
        ∀ (c₀ : Nat) (m₀ : Memory) (s : Object),
          (ofModule m).returned .prepare q c₀ [] m₀ = .ok s →
          ∀ memory' : Memory, memory'.world.answer.fetched = memory.world.answer.fetched →
            let returned' (r : Role) := (ofModule m).returned r q c (s :: vs.map .value) memory'
            returned' .queuePrepared = returned .queue ∧
            returned' .queueOnePrepared = returned .queueOne ∧
            returned' .queueOptPrepared = returned .queueOpt := by
  have hp := of_build hb hm
  obtain ⟨-, types, -, htypes, -, -⟩ := TypeExpr.columns_denote
    fun t ht => Query.Typed.output (hp.sound hq).supported ht
  refine ⟨types, htypes, fun vs hvs c memory => ?_⟩
  obtain ⟨hmany, hone, hopt⟩ := hp.returned_rowFunctions hq hg houtputs hcaptures hfree htypes hvs
    (.inl rfl) c memory
  refine ⟨?_, fun c₀ m₀ s hs memory' hfetched => ?_⟩
  · have hagree := Network.rowsAgree (Runnable.plain (q.text config)).statement types
      memory.world.answer.fetched
    rw [← hmany, ← hone, ← hopt] at hagree
    exact hagree
  · obtain ⟨s, rfl, hstatement⟩ := hp.returned_prepare hq hg hfree hs
    obtain ⟨hmany', hone', hopt'⟩ := hp.returned_rowFunctions hq hg houtputs hcaptures hfree
      htypes hvs (.inr ⟨s, rfl⟩) c memory'
    rw [hfetched] at hmany' hone' hopt'
    rw [Runnable.statement, hstatement] at hone' hopt'
    exact ⟨hmany'.trans hmany.symm, hone'.trans hone.symm, hopt'.trans hopt.symm⟩

end Program

/-- A query for a number and a text. -/
def Query.petsAbove : Query :=
  { name := "pet", backend := .network, named := false, parameters := [⟨"id", ⟨"int", []⟩⟩]
    outputs := [⟨"int", []⟩, ⟨"str", []⟩], statement := "SELECT id, name FROM pets WHERE id > $1"
    dependencies := none, line := 1 }

/-- The driver returns two rows, and the second has a text for a number. -/
def Memory.undecodable : Memory :=
  { world :=
      { answers := [{ rows := some [[.int 1, .text "Max"], [.text "two", .null]] }]
        environment := [] } }

theorem Program.row_functions_agree_undecodable :
    let b : Book := { queries := [.petsAbove], sourceName := "pets" }
    let tooMany : Failure := .rows (.tooManyRows 2 (some "SELECT id, name FROM pets WHERE id > $1"))
    let misfit : Failure := .rows (.decode 0 "int" (.text "two") none)
    ∃ m, (Module.build {} .standard b).outcome = .ok m ∧
      let returned (r : Role) (args : List Object) :=
        (ofModule m).returned r .petsAbove 2 args .undecodable
      (returned .queue [.value (.int 0)] = .error misfit ∧
        returned .queueOne [.value (.int 0)] = .error tooMany ∧
        returned .queueOpt [.value (.int 0)] = .error tooMany) ∧
      ∃ s, (ofModule m).returned .prepare .petsAbove 2 []
          { world := { answers := [], environment := [] } } = .ok s ∧
        returned .queuePrepared [s, .value (.int 0)] = .error misfit ∧
        returned .queueOnePrepared [s, .value (.int 0)] = .error tooMany ∧
        returned .queueOptPrepared [s, .value (.int 0)] = .error tooMany := by
  intro b tooMany misfit
  have hb : b.check = .ok () := rfl
  obtain ⟨m, hm⟩ := Module.exists_build_of_check hb {} rfl
  have hfree : b.CollisionFree .petsAbove := by decide
  obtain ⟨types, htypes, hagree⟩ := row_functions_agree hb hm List.mem_cons_self rfl rfl (by decide)
    hfree
  obtain rfl : [.int, .text] = types := Option.some.inj htypes
  obtain ⟨hrows, hprepared⟩ := hagree [.int 0] rfl 2 .undecodable
  obtain ⟨hone, hopt⟩ := hrows.tooManyRows _ rfl (by decide)
  have hall := ((hrows.decoded _ rfl).2 misfit).mpr
    ⟨[[.int 1, .text "Max"]], [.text "two", .null], [], rfl,
      List.forall_mem_singleton.mpr ⟨[.int 1, .text "Max"], rfl⟩, rfl⟩
  refine ⟨m, hm, ⟨hall, hone, hopt⟩, ?_⟩
  obtain ⟨s, hs⟩ : ∃ s, (ofModule m).returned .prepare .petsAbove 2 []
      { world := { answers := [], environment := [] } } = .ok s := by
    have hinvoke := (of_build hb hm).invoke_prepare List.mem_cons_self rfl hfree
      ((ofModule m).definitions.length + 1) 2
    exact ⟨_, (congrArg (Run.outcome · _) hinvoke).trans rfl⟩
  obtain ⟨hmany', hone', hopt'⟩ := hprepared 2 _ s hs .undecodable rfl
  exact ⟨s, hs, hmany'.trans hall, hone'.trans hone, hopt'.trans hopt⟩

/-- A query with a parameter that is called like its statement text. -/
def Query.captured : Query :=
  { name := "q", backend := .network, named := false, parameters := [⟨"SQL_q", ⟨"str", []⟩⟩]
    outputs := [⟨"int", []⟩], statement := "SELECT 1", dependencies := none, line := 1 }

/-- **The two forms mention different statements** if the caller chooses the statement of one of
them, though the book is checked and the driver returns the same. -/
theorem Program.prepared_form_mentions_other_statement :
    let b : Book := { queries := [.captured], sourceName := "captured" }
    let memory : Memory := { world := { answers := [{ rows := some [] }], environment := [] } }
    b.check = .ok () ∧ ∃ m, (Module.build {} .standard b).outcome = .ok m ∧
      let returned (r : Role) (args : List Object) :=
        (ofModule m).returned r .captured 2 args memory
      ∃ s, returned .prepare [] = .ok s ∧
        returned .queueOne [.value (.text "SELECT 2")] =
          .error (.rows (.noRows (some "SELECT 2"))) ∧
        returned .queueOnePrepared [s, .value (.text "SELECT 2")] =
          .error (.rows (.noRows (some "SELECT 1"))) := by
  intro b memory
  have hb : b.check = .ok () := rfl
  obtain ⟨m, hm⟩ := Module.exists_build_of_check hb {} rfl
  refine ⟨hb, m, hm, ?_⟩
  have hdefinitions := (of_build hb hm).definitions
  generalize ofModule m = p at hdefinitions
  obtain ⟨ds, es⟩ := p
  subst hdefinitions
  exact ⟨_, rfl, rfl, rfl⟩

end QueryBook
