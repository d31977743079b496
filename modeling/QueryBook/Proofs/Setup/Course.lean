import Mathlib.Data.List.Forall2
import QueryBook.Proofs.Setup.Following

/-!
# Statements up to the first that fails

What setup sends is settled before anything is sent: neither rows nor row counts get into the marks
or the byte source. An answer can do one thing only, which is to stop the run. So a run that fails
has sent the beginning of what every other run sends, up to the statement that failed, and the error
comes out as it went in, whatever number of routines it leaves on its way.

`Course` says how statements are sent one after the other up to the first answer that stops them.
`sends_beginning` follows by induction over it, and `setup_course` says that a setup routine runs
such a course.
-/

namespace QueryBook

open Setup

/-! ## The statements of a test -/

/-- A statement that a test sends: the query that it sets up, if it is of one, and the command. -/
structure TestStatement where
  query : Option String
  command : Command

namespace TestStatement

/-- What is reported about an error: it names the query whose statement failed. -/
def report (s : TestStatement) (e : Failure) : List LogRecord :=
  match s.query with
  | some name =>
    [{ level := .error, logger := "generated"
       message := "setup of " ++ name ++ " failed: " ++ e.message }]
  | none => []

/-- A test goes on after this answer: it is no error, or the complaint of an embedded database about
rows of a query. -/
def Passes (g : Backend) (s : TestStatement) (answer : Answer) : Prop :=
  ∀ e, answer.error = some e → s.query.isSome = true ∧ g = .embedded ∧ e.isReturnedRows = true

end TestStatement

/-- The answer to the statement of number `i`, counted from now. -/
def World.answerTo (w : World) (i : Nat) : Answer := w.answers.getD i {}

theorem World.answerTo_zero (w : World) : w.answerTo 0 = w.answer := by
  unfold answerTo answer
  cases w.answers <;> rfl

/-! ## Traces -/

/-- Between `w` and `w'` some statements were sent over a connection, no connection was opened or
closed, and some errors were reported. If no statement came back with an error, the answers have
none. -/
structure Trace (c : Nat) (sent : List TestStatement) (errors : List LogRecord) (w w' : World) :
    Prop where
  answers : w'.answers = w.answers.drop sent.length
  events : ∃ new, w'.events = w.events ++ new ∧
    new.filterMap Event.sent? = (sent.map fun s => (c, s.command)) ∧
    (∀ e ∈ new, e.boundary? = none) ∧
    ((∀ e ∈ new, e.refused = false) → ∀ i < sent.length, (w.answerTo i).error = none)
  journal : ∃ records, w'.journal = w.journal ++ records ∧
    (records.filter fun r => r.level == .error) = errors

namespace Trace

variable {c : Nat} {sent sent' : List TestStatement} {errors errors' : List LogRecord}
  {w w' w'' : World}

theorem quiet (h : w.Quiet w') : Trace c [] [] w w' := by
  obtain ⟨new, hevents, hnew⟩ := h.events
  refine ⟨h.answers, ⟨new, hevents, ?_, fun e he => (hnew e he).2.2, fun _ => nofun⟩, [], ?_, rfl⟩
  · exact List.filterMap_eq_nil_iff.mpr fun e he => (hnew e he).1
  · rw [h.journal, List.append_nil]

theorem answerTo (h : Trace c sent errors w w') (i : Nat) :
    w'.answerTo i = w.answerTo (sent.length + i) := by
  unfold World.answerTo
  rw [h.answers, List.getD_eq_getElem?_getD, List.getElem?_drop, ← List.getD_eq_getElem?_getD]

theorem trans (h : Trace c sent errors w w') (h' : Trace c sent' errors' w' w'') :
    Trace c (sent ++ sent') (errors ++ errors') w w'' := by
  obtain ⟨new, hevents, hsent, hnew, hrefused⟩ := h.events
  obtain ⟨new', hevents', hsent', hnew', hrefused'⟩ := h'.events
  obtain ⟨records, hjournal, herrors⟩ := h.journal
  obtain ⟨records', hjournal', herrors'⟩ := h'.journal
  refine ⟨?_, ⟨new ++ new', ?_, ?_, ?_, fun hnone i hi => ?_⟩, ⟨records ++ records', ?_, ?_⟩⟩
  · rw [h'.answers, h.answers, List.drop_drop, List.length_append]
  · rw [hevents', hevents, List.append_assoc]
  · rw [List.filterMap_append, hsent, hsent', List.map_append]
  · intro e he
    exact (List.mem_append.mp he).elim (hnew e) (hnew' e)
  · by_cases hfirst : i < sent.length
    · exact hrefused (fun e he => hnone e (List.mem_append_left _ he)) i hfirst
    · have hlater := hrefused' (fun e he => hnone e (List.mem_append_right _ he)) (i - sent.length)
        (by rw [List.length_append] at hi; omega)
      rwa [h.answerTo, Nat.add_sub_cancel' (Nat.le_of_not_lt hfirst)] at hlater
  · rw [hjournal', hjournal, List.append_assoc]
  · rw [List.filter_append, herrors, herrors']

/-- A statement is a trace of its own. -/
theorem single {s : TestStatement} {records : List LogRecord}
    (hsends : Sends c s.command w w') (hwithin : Within w w')
    (hjournal : w'.journal = w.journal ++ records) :
    Trace c [s] (records.filter fun r => r.level == .error) w w' := by
  obtain ⟨hanswers, cursor, channel, tail, hevents, htail⟩ := hsends
  obtain ⟨new, hevents', hnew⟩ := hwithin
  obtain rfl : new = .execute c cursor channel s.command w.answer.error.isNone :: tail :=
    List.append_cancel_left (hevents'.symm.trans hevents)
  have hnone : tail.filterMap Event.sent? = [] :=
    List.filterMap_eq_nil_iff.mpr fun e he => (htail e he).1
  refine ⟨by rw [hanswers, List.drop_one.symm]; rfl, ⟨_, hevents', ?_, hnew, fun hall i hi => ?_⟩,
    records, hjournal, rfl⟩
  · rw [List.filterMap_cons, hnone]
    rfl
  · have haccepted : (!w.answer.error.isNone) = false := hall _ List.mem_cons_self
    rw [List.length_singleton, Nat.lt_one_iff] at hi
    rw [hi, World.answerTo_zero]
    simpa using haccepted

end Trace

/-! ## Courses -/

/-- `Course g c stop E w r w'`: the statements `E` are sent over the connection `c` one after the
other, up to the first answer that is not passed over; behind them `stop` is in the way, if
anything is. `r` is how this ends, and `w'` is the world then. -/
inductive Course (g : Backend) (c : Nat) (stop : Option Failure) :
    List TestStatement → World → Except Failure Unit → World → Prop where
  | done {w : World} : stop = none → Course g c stop [] w (.ok ()) w
  | stopped {w w' : World} {e : Failure} : stop = some e → w.Quiet w' →
      Course g c stop [] w (.error e) w'
  | passed {s : TestStatement} {E : List TestStatement} {w w₁ w' : World}
      {r : Except Failure Unit} : s.Passes g w.answer → Trace c [s] [] w w₁ →
      Course g c stop E w₁ r w' → Course g c stop (s :: E) w r w'
  | failed {s : TestStatement} {E : List TestStatement} {w w' : World} {e : Failure} :
      w.answer.error = some e → ¬ s.Passes g w.answer →
      Trace c [s] (if e.isDriverError g then s.report e else []) w w' →
      Course g c stop (s :: E) w (.error e) w'

/-- How a run ends that nothing but this stops. -/
def stoppedBy : Option Failure → Except Failure Unit
  | some e => .error e
  | none => .ok ()

/-- **A run sends a beginning of its statements.** Without errors among the answers it got, it sends
them all. An error of the driver among them is the end of it. -/
theorem Course.sends_beginning {g : Backend} {c : Nat} {stop : Option Failure}
    {E : List TestStatement} {w w' : World} {r : Except Failure Unit}
    (h : Course g c stop E w r w') :
    ∃ (n : Nat) (errors : List LogRecord), n ≤ E.length ∧ Trace c (E.take n) errors w w' ∧
      ((∀ i < n, (w.answerTo i).error = none) →
        n = E.length ∧ r = stoppedBy stop ∧ errors = []) ∧
      ∀ k e, k < n → (w.answerTo k).error = some e → e.isDriverError g = true →
        n = k + 1 ∧ r = .error e ∧ ∃ s, E[k]? = some s ∧ errors = s.report e := by
  induction h with
  | done hstop =>
    subst hstop
    exact ⟨0, [], Nat.le_refl 0, .quiet (.refl _), fun _ => ⟨rfl, rfl, rfl⟩,
      fun k e hk => absurd hk (Nat.not_lt_zero k)⟩
  | stopped hstop hquiet =>
    subst hstop
    exact ⟨0, [], Nat.le_refl 0, .quiet hquiet, fun _ => ⟨rfl, rfl, rfl⟩,
      fun k e hk => absurd hk (Nat.not_lt_zero k)⟩
  | @passed s E w w₁ w' r hpasses htrace _ ih =>
    obtain ⟨n, errors, hn, hrest, hclean, hdriver⟩ := ih
    have hnext : ∀ i, w₁.answerTo i = w.answerTo (i + 1) := fun i => by
      rw [htrace.answerTo, List.length_singleton, Nat.add_comm]
    refine ⟨n + 1, errors, Nat.succ_le_succ hn, htrace.trans hrest, fun hnone => ?_,
      fun k e hk he hd => ?_⟩
    · obtain ⟨hall, hr, herrors⟩ := hclean fun i hi => hnext i ▸ hnone _ (Nat.succ_lt_succ hi)
      exact ⟨congrArg (· + 1) hall, hr, herrors⟩
    · cases k with
      | zero =>
        -- the first answer was passed over, which an error of the driver is not
        rw [World.answerTo_zero] at he
        obtain ⟨_, _, hrows⟩ := hpasses e he
        cases e with
        | library e => cases hd
        | raised source name args => cases hrows
      | succ k =>
        obtain ⟨hk', hr, s', hs, herrors⟩ :=
          hdriver k e (Nat.lt_of_succ_lt_succ hk) (hnext k ▸ he) hd
        exact ⟨congrArg (· + 1) hk', hr, s', hs, herrors⟩
  | @failed s E w w' e he _ htrace =>
    refine ⟨1, _, Nat.succ_pos _, htrace, fun hnone => ?_, fun k e' hk he' hd => ?_⟩
    · have hfirst := hnone 0 Nat.one_pos
      rw [World.answerTo_zero, he] at hfirst
      cases hfirst
    · obtain rfl : k = 0 := Nat.lt_one_iff.mp hk
      rw [World.answerTo_zero, he] at he'
      cases he'
      exact ⟨rfl, rfl, s, rfl, if_pos hd⟩

/-! ## Queries that are set up -/

namespace Query

variable {q : Query} {c : Nat} {x : Session Object}

theorem handled_of_rows {e : Failure} (hg : q.backend = .embedded) (he : e.isReturnedRows = true)
    (w : World) :
    q.handled e w = .ok () { w with
      journal := w.journal ++ [{ level := .debug, logger := "generated"
                                 message := "setup of " ++ q.name ++ " returned rows" }] } := by
  rw [handled, if_pos (by simp [hg, he])]
  rfl

/-- A failure that is not passed over goes on its way; if it is an error of the driver, that is
reported. -/
theorem handled_of_not_rows {e : Failure}
    (h : ¬ (q.backend = .embedded ∧ e.isReturnedRows = true)) (command : Command) (w : World) :
    ∃ records : List LogRecord,
      q.handled e w = .error e { w with journal := w.journal ++ records } ∧
      (records.filter fun r => r.level == .error) =
        if e.isDriverError q.backend then
          TestStatement.report { query := some q.name, command } e
        else [] := by
  rw [handled, if_neg (by simpa using h)]
  cases e.isDriverError q.backend with
  | true =>
    exact ⟨[{ level := .error, logger := "generated"
              message := "setup of " ++ q.name ++ " failed: " ++ e.message }], rfl, rfl⟩
  | false => exact ⟨[], congrArg _ (by rw [List.append_nil]), rfl⟩

theorem guarded_of_ok {a : Object} {w w' : World} (h : x w = .ok a w') :
    q.guarded x w = .ok () w' := by
  show EStateM.tryCatch (x >>= fun _ => pure ()) q.handled w = _
  unfold EStateM.tryCatch
  rw [Session.bind_apply, h]
  rfl

theorem guarded_of_error {e : Failure} {w w' : World} (h : x w = .error e w') :
    q.guarded x w = q.handled e w' := by
  show EStateM.tryCatch (x >>= fun _ => pure ()) q.handled w = _
  unfold EStateM.tryCatch
  rw [Session.bind_apply, h]
  rfl

/-- **A query that sends a command goes on its way, or it is stopped by the answer.** -/
theorem guarded_of_sends {command : Command} (h : SendsOne q.backend c command x) (w : World) :
    let s : TestStatement := { query := some q.name, command }
    ∃ w', (s.Passes q.backend w.answer ∧ Trace c [s] [] w w' ∧ q.guarded x w = .ok () w') ∨
      ∃ e, w.answer.error = some e ∧ ¬ s.Passes q.backend w.answer ∧
        Trace c [s] (if e.isDriverError q.backend then s.report e else []) w w' ∧
        q.guarded x w = .error e w' := by
  intro s
  obtain ⟨w', hsends, hwithin, hjournal, hrun⟩ := h w
  -- a record does not change what was sent
  have hlogged : ∀ records : List LogRecord,
      Trace c [s] (records.filter fun r => r.level == .error) w
        { w' with journal := w'.journal ++ records } := fun records =>
    Trace.single hsends hwithin (congrArg (· ++ records) hjournal)
  have hrows : ∀ e, q.backend = .embedded → e.isReturnedRows = true → x w = .error e w' →
      ∃ w', Trace c [s] [] w w' ∧ q.guarded x w = .ok () w' := fun e hg he hx => by
    refine ⟨_, ?_, (guarded_of_error hx).trans (handled_of_rows hg he w')⟩
    exact hlogged [{ level := .debug, logger := "generated"
                     message := "setup of " ++ q.name ++ " returned rows" }]
  obtain ⟨e, he, hx⟩ | ⟨hnone, a, hx⟩ | ⟨hnone, e, hg, he, hx⟩ := hrun
  · by_cases htolerated : q.backend = .embedded ∧ e.isReturnedRows = true
    · obtain ⟨w'', htrace, hok⟩ := hrows e htolerated.1 htolerated.2 hx
      refine ⟨w'', .inl ⟨fun e' he' => ?_, htrace, hok⟩⟩
      rw [← Option.some.inj (he.symm.trans he')]
      exact ⟨rfl, htolerated⟩
    · obtain ⟨records, hhandled, hrecords⟩ := handled_of_not_rows htolerated command w'
      exact ⟨_, .inr ⟨e, he, fun hpasses => htolerated (hpasses e he).2,
        hrecords ▸ hlogged records, (guarded_of_error hx).trans hhandled⟩⟩
  · have hsingle := hlogged []
    rw [List.append_nil] at hsingle
    refine ⟨w', .inl ⟨fun e he => ?_, hsingle, guarded_of_ok hx⟩⟩
    cases hnone.symm.trans he
  · obtain ⟨w'', htrace, hok⟩ := hrows e hg he hx
    refine ⟨w'', .inl ⟨fun e' he' => ?_, htrace, hok⟩⟩
    cases hnone.symm.trans he'

/-- A query that is refused sends nothing and is not reported. -/
theorem guarded_of_refused {e : Failure} (h : (Attempt.refuse e).MadeBy q.backend c x) (w : World) :
    ∃ w', w.Quiet w' ∧ q.guarded x w = .error e w' := by
  obtain ⟨hdriver, hrows, hrun⟩ := h
  obtain ⟨w', hquiet, hx⟩ := hrun w
  refine ⟨w', hquiet, (guarded_of_error hx).trans ?_⟩
  rw [handled, if_neg (by simp [hrows]), if_neg (by simp [hdriver])]
  rfl

end Query

/-! ## Attempts one after the other -/

namespace Query

/-- What becomes of queries that are run one after the other, each by its own function and with
values drawn in turn. -/
def attempts (config : Config) : List Query → ByteSource → List Attempt
  | [], _ => []
  | q :: rest, source =>
    q.attempt (q.text config) (source.drawAll q.inputs).1 ::
      attempts config rest (source.drawAll q.inputs).2

/-- The statements of queries up to the first that is refused. -/
def statements : List Query → List Attempt → List TestStatement
  | q :: rest, .send command :: as => { query := some q.name, command } :: statements rest as
  | _, _ => []

end Query

/-- The first refusal among attempts. -/
def Attempt.refusal? : List Attempt → Option Failure
  | [] => none
  | .send _ :: as => refusal? as
  | .refuse e :: _ => some e

namespace Program

/-- The attempts that queries make one after the other, with values drawn in turn. They are the same
over every connection. -/
inductive Makes (p : Program) : List Query → ByteSource → List Attempt → Prop where
  | nil (source : ByteSource) : Makes p [] source []
  | cons {q : Query} {rest : List Query} {source : ByteSource} {a : Attempt} {as : List Attempt} :
      (∀ c, a.MadeBy q.backend c (p.executed q c (source.drawAll q.inputs).1)) →
      Makes p rest (source.drawAll q.inputs).2 as → Makes p (q :: rest) source (a :: as)

/-- Queries of a book make attempts, and one that is not replaced makes its own. -/
theorem Of.exists_makes {config : Config} {b : Book} {p : Program} (hp : p.Of config b)
    {order : List Query} (horder : ∀ q ∈ order, q ∈ b.queries) (source : ByteSource) :
    ∃ as, p.Makes order source as ∧
      List.Forall₂ (fun own a => ¬ b.Replaced own.1 → a = own.2)
        (order.zip (Query.attempts config order source)) as := by
  induction order generalizing source with
  | nil => exact ⟨[], .nil source, .nil⟩
  | cons q order ih =>
    have hq := horder q List.mem_cons_self
    have hdrawn : (source.drawAll q.inputs).1.length = q.parameters.length :=
      (Query.drawAll_length _ _).trans (Query.Typed.routine_values (hp.sound hq).supported).2.1
    obtain ⟨f, -, hcall⟩ := hp.executed_made hq
    obtain ⟨-, a, hmade, hown⟩ := hcall _ hdrawn
    obtain ⟨as, has, hrest⟩ :=
      ih (fun x hx => horder x (List.mem_cons_of_mem _ hx)) (source.drawAll q.inputs).2
    exact ⟨a :: as, .cons hmade has, .cons hown hrest⟩

/-- **Queries that are set up run a course.** -/
theorem Makes.course {p : Program} {order : List Query} {source : ByteSource} {as : List Attempt}
    (h : p.Makes order source as) {g : Backend} (hg : ∀ q ∈ order, q.backend = g) (c : Nat) :
    ∀ w, Course g c (Attempt.refusal? as) (Query.statements order as) w
      (ended (p.setUpAll c order (w, source))).1 (ended (p.setUpAll c order (w, source))).2.1 := by
  induction h with
  | nil source => exact fun w => .done rfl
  | @cons q rest source a as hmade hrest ih =>
    intro w
    have hq := hg q List.mem_cons_self
    subst hq
    cases a with
    | refuse e =>
      obtain ⟨w', hquiet, hrun⟩ := Query.guarded_of_refused (hmade c) w
      have hset : p.setUp c q (w, source) = .error e (w', (source.drawAll q.inputs).2) := by
        simp only [setUp, hrun]
      rw [setUpAll, hset]
      exact .stopped rfl hquiet
    | send command =>
      obtain ⟨w', ⟨hpasses, htrace, hrun⟩ | ⟨e, he, hfails, htrace, hrun⟩⟩ :=
        Query.guarded_of_sends (hmade c) w
      · have hset : p.setUp c q (w, source) = .ok () (w', (source.drawAll q.inputs).2) := by
          simp only [setUp, hrun]
        rw [setUpAll, hset]
        exact .passed hpasses htrace (ih (fun x hx => hg x (List.mem_cons_of_mem _ hx)) w')
      · have hset : p.setUp c q (w, source) = .error e (w', (source.drawAll q.inputs).2) := by
          simp only [setUp, hrun]
        rw [setUpAll, hset]
        exact .failed he hfails htrace

/-- **A setup routine runs a course**, the same at every depth that is larger than the number of
queries. Without failure the names of the walk are marked in the end. -/
theorem Of.setup_course {config : Config} {b : Book} {p : Program} (hp : p.Of config b)
    (htests : config.emitTests = true) {m : Memory} {u k : Nat} (hm : m.Has u k) {q : Query}
    (hq : q ∈ b.setupTargets) (c : Nat) (s : SetupState) {o V' : List String}
    (hwalk : Walk b.dependenciesOf s.visited [q.name] o V') {as : List Attempt}
    (hmakes : p.Makes (b.named o) s.source as) :
    ∃ r m', Course q.backend c (Attempt.refusal? as) (Query.statements (b.named o) as) s.world r
        m'.world ∧
      (r = .ok () → m'.nameSets[k]? = some V') ∧
      ∀ depth, b.queries.length < depth →
        ended ((p.invoke depth (Role.testSetup.ident q.name) (Setup.arguments u k q.backend c) >>=
          fun _ => pure ()) (s.within m u k)) = (r, m') := by
  have htarget : q.name ∈ b.targets q.backend := Book.mem_targets_iff.mpr ⟨q, hq, rfl, rfl⟩
  have hnamed := Book.named_of_targets hp.checked (Book.mem_targets_of_walk hp.checked hwalk
    fun n hn => List.mem_singleton.mp hn ▸ htarget)
  have hcourse := hmakes.course (fun x hx => (hnamed.2 x hx).2) c s.world
  obtain ⟨r, hfollows, hrun⟩ := hp.setup_follows htests hm hq c s hwalk
  unfold Follows at hfollows
  cases hall : p.setUpAll c (b.named o) (s.world, s.source) with
  | ok _ t =>
    rw [hall] at hfollows hcourse
    subst hfollows
    refine ⟨.ok (), (⟨t.1, t.2, V'⟩ : SetupState).within m u k, hcourse, fun _ => ?_,
      fun depth hdepth => congrArg ended (hrun depth hdepth)⟩
    exact List.getElem?_set_self hm.names
  | error e t =>
    rw [hall] at hfollows hcourse
    obtain ⟨W, rfl⟩ := hfollows
    exact ⟨.error e, (⟨t.1, t.2, W⟩ : SetupState).within m u k, hcourse, nofun,
      fun depth hdepth => congrArg ended (hrun depth hdepth)⟩

end Program

end QueryBook
