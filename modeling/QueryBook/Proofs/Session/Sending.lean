import QueryBook.Session.Embedded
import QueryBook.Session.Network

/-!
# What a statement does to the world

The primitives of a session are equations on worlds, and a statement that is sent over a fresh
cursor does one thing whatever it is: it takes the next answer and leaves one `execute` event. If
the answer is an error the run fails with that very error. Else it succeeds, except that an embedded
database refuses rows where an effect was asked for.
-/

namespace QueryBook

/-- The connection and the command of a statement that was sent. -/
def Event.sent? : Event → Option (Nat × Command)
  | .execute connection _ _ command _ => some (connection, command)
  | _ => none

/-- Whether a statement came back with an error. -/
def Event.refused : Event → Bool
  | .execute _ _ _ _ accepted => !accepted
  | _ => false

/-- The connection that is opened or closed. -/
def Event.boundary? : Event → Option Nat
  | .openFile connection _ | .openServer connection _ _ | .close connection => some connection
  | _ => none

namespace World

/-- The answer to the next statement. -/
def answer (w : World) : Answer := w.answers.head?.getD {}

/-- A cursor more. -/
def withCursor (w : World) (connection : Nat) : World :=
  { w with cursors := w.cursors ++ [{ connection }] }

end World

/-- What the rows of an answer are, unless it is an error. -/
def Answer.fetched (a : Answer) : Except Failure (List (List Value)) :=
  match a.error with
  | some e => .error e
  | none => .ok (a.rows.getD [])

/-- A cursor that got an answer. -/
def Cursor.receive (c : Cursor) (a : Answer) : Cursor :=
  match a.error with
  | some _ => { c with rows := [], hasResult := false, rowCount := -1 }
  | none => { c with rows := a.rows.getD [], hasResult := a.rows.isSome, rowCount := a.rowCount }

/-- The world after a statement was sent over a cursor. -/
def World.submitted (w : World) (id : Nat) (channel : Channel) (command : Command) : World :=
  let c := w.cursors.getD (id - 1) default
  { w with
    answers := w.answers.tail
    cursors := w.cursors.set (id - 1) (c.receive w.answer)
    events := w.events ++ [.execute c.connection id channel command w.answer.error.isNone] }

/-- The world after a cursor was closed. -/
def World.cursorClosed (w : World) (id : Nat) : World :=
  { w with
    cursors := w.cursors.set (id - 1) { w.cursors.getD (id - 1) default with closed := true }
    events := w.events ++ [.closeCursor id] }

namespace Session

/-! ## The primitives as equations -/

theorem bind_apply {ε σ α β : Type} (x : EStateM ε σ α) (f : α → EStateM ε σ β) (s : σ) :
    (x >>= f) s = match x s with
      | .ok a s => f a s
      | .error e s => .error e s := rfl

section

variable {α β : Type}

/-- What a session returns, whatever it did to the world. -/
def outcome (x : Session α) (w : World) : Except Failure α :=
  match x w with
  | .ok a _ => .ok a
  | .error e _ => .error e

theorem outcome_bind {x : Session α} {f : α → Session β} {w : World} {y : Except Failure α}
    {g : α → Except Failure β} (hx : outcome x w = y) (hf : ∀ a w, outcome (f a) w = g a) :
    outcome (x >>= f) w = y >>= g := by
  subst hx
  rw [outcome, outcome, bind_apply]
  cases x w with
  | ok a w' => exact hf a w'
  | error e w' => rfl

theorem outcome_ofExcept (x : Except Failure α) (w : World) : outcome (ofExcept x) w = x := by
  cases x <;> rfl

end

theorem newCursor_apply (connection : Nat) (w : World) :
    newCursor connection w = .ok (w.cursors.length + 1) (w.withCursor connection) := rfl

theorem effect_apply (id : Nat) (statement : String) (w : World) :
    effect id statement w =
      if (w.cursors.getD (id - 1) default).hasResult then
        .error (.rows (.executeReturnedRows (some statement))) w
      else .ok (max (w.cursors.getD (id - 1) default).rowCount 0) w := by
  unfold effect
  rw [bind_apply]
  show (if (w.cursors.getD (id - 1) default).hasResult = true then _ else _ : Session Int) w = _
  split <;> rfl

/-- An open cursor takes the next answer, and the answer decides. -/
theorem submit_apply {w : World} {id : Nat} (channel : Channel) (command : Command)
    (hopen : (w.cursors.getD (id - 1) default).closed = false) :
    submit id channel command w =
      match w.answer.error with
      | some e => .error e (w.submitted id channel command)
      | none => .ok () (w.submitted id channel command) := by
  unfold submit refuseClosed
  rw [bind_apply]
  show ((if (w.cursors.getD (id - 1) default).closed = true then _ else _ : Session Unit) >>= _) w =
    _
  rw [if_neg (by rw [hopen]; exact Bool.false_ne_true)]
  obtain ⟨answers, environment, cursors, connections, names, events, journal⟩ := w
  cases answers with
  | nil => rfl
  | cons a rest =>
    obtain ⟨rows, count, error⟩ := a
    cases error with
    | none => rfl
    | some e => rfl

/-! ## A statement over a fresh cursor -/

theorem withCursor_getD (w : World) (connection : Nat) :
    (w.withCursor connection).cursors.getD (w.cursors.length + 1 - 1) default = { connection } := by
  simp [World.withCursor]

/-- Over a fresh cursor nothing stands in the way of a statement. -/
theorem submit_fresh (w : World) (connection : Nat) (channel : Channel) (command : Command) :
    submit (w.cursors.length + 1) channel command (w.withCursor connection) =
      match w.answer.error with
      | some e => .error e
          ((w.withCursor connection).submitted (w.cursors.length + 1) channel command)
      | none => .ok ()
          ((w.withCursor connection).submitted (w.cursors.length + 1) channel command) := by
  rw [submit_apply channel command (by rw [withCursor_getD])]
  rfl

theorem submitted_events (w : World) (connection : Nat) (channel : Channel) (command : Command) :
    ((w.withCursor connection).submitted (w.cursors.length + 1) channel command).events =
      w.events ++ [.execute connection (w.cursors.length + 1) channel command
        w.answer.error.isNone] := by
  unfold World.submitted
  rw [withCursor_getD]
  rfl

/-- The world after a statement was sent over a fresh cursor. -/
def sentWorld (w : World) (connection : Nat) (channel : Channel) (command : Command) : World :=
  (w.withCursor connection).submitted (w.cursors.length + 1) channel command

/-- The fresh cursor has what the answer brought. -/
theorem sentWorld_getD (w : World) (connection : Nat) (channel : Channel) (command : Command) :
    (sentWorld w connection channel command).cursors.getD (w.cursors.length + 1 - 1) default =
      ({ connection } : Cursor).receive w.answer := by
  unfold sentWorld World.submitted
  rw [withCursor_getD]
  have hlength : w.cursors.length < (w.withCursor connection).cursors.length := by
    simp [World.withCursor]
  simp only [Nat.add_sub_cancel, List.getD_eq_getElem?_getD, List.getElem?_set_self hlength,
    Option.getD_some]
  rfl

/-- A statement run for its effect on an embedded database: the answer decides, and rows are
refused. -/
theorem executeFile_apply (connection : Nat) (statement : String)
    (values : List (String × Value)) (w : World) :
    executeFile connection statement values w =
      let w' := sentWorld w connection .embedded { text := statement, arguments := .byName values }
      match w.answer.error with
      | some e => .error e w'
      | none => effect (w.cursors.length + 1) statement w' := by
  unfold executeFile submitNamed
  rw [bind_apply, newCursor_apply]
  show (submit _ _ _ >>= fun _ => effect _ _) _ = _
  rw [bind_apply, submit_fresh]
  cases w.answer.error with
  | none => rfl
  | some e => rfl

/-- If there is a cursor, it is closed in the end. -/
theorem withCursor_apply {α : Type} (connection : Nat) (body : Nat → Session α)
    (faults : CursorFaults) (w : World) :
    withCursor connection body faults w =
      match faults.making with
      | some e => .error e w
      | none => always (body (w.cursors.length + 1))
          (closeCursor (w.cursors.length + 1) >>= fun _ => refuse faults.closing)
          (w.withCursor connection) := by
  unfold withCursor
  rw [bind_apply]
  cases faults.making with
  | some e => rfl
  | none => rfl

/-- A statement run for its effect on a server: the answer decides, and the cursor is closed
whatever it is. -/
theorem execute_apply (connection : Nat) (r : Runnable) (values : List Value) (w : World) :
    (Session.execute connection r values) w =
      let id := w.cursors.length + 1
      let w' := sentWorld w connection (channelOf r) (Command.ofRunnable r values)
      match w.answer.error with
      | some e => .error e (w'.cursorClosed id)
      | none => .ok (max (w'.cursors.getD (id - 1) default).rowCount 0) (w'.cursorClosed id) := by
  rw [Session.execute, withCursor_apply]
  show always (submit _ _ _ >>= fun _ => changedRows _) _ _ = _
  unfold always
  rw [bind_apply, submit_fresh]
  cases w.answer.error with
  | none => rfl
  | some e => rfl

end Session

/-! ## Statements that are sent -/

/-- `Sends connection command w w'`: between `w` and `w'` one statement was sent, the given one,
and it took the next answer. -/
def Sends (connection : Nat) (command : Command) (w w' : World) : Prop :=
  w'.answers = w.answers.tail ∧ ∃ (cursor : Nat) (channel : Channel) (tail : List Event),
    w'.events = w.events ++
      .execute connection cursor channel command w.answer.error.isNone :: tail ∧
    ∀ e ∈ tail, e.sent? = none ∧ e.refused = false

theorem sends_sentWorld (w : World) (connection : Nat) (channel : Channel) (command : Command) :
    Sends connection command w (Session.sentWorld w connection channel command) := by
  refine ⟨rfl, w.cursors.length + 1, channel, [], ?_, by simp⟩
  rw [Session.sentWorld, Session.submitted_events]

theorem Sends.cursorClosed {connection : Nat} {command : Command} {w w' : World}
    (h : Sends connection command w w') (id : Nat) :
    Sends connection command w (w'.cursorClosed id) := by
  obtain ⟨ha, cursor, channel, tail, he, htail⟩ := h
  refine ⟨ha, cursor, channel, tail ++ [.closeCursor id], ?_, ?_⟩
  · rw [World.cursorClosed, he]
    simp
  · intro e hmem
    rcases List.mem_append.mp hmem with hmem | hmem
    · exact htail e hmem
    · rw [List.mem_singleton.mp hmem]
      exact ⟨rfl, rfl⟩

/-- `Within w w'`: between `w` and `w'` no connection was opened or closed. -/
def Within (w w' : World) : Prop :=
  ∃ new, w'.events = w.events ++ new ∧ ∀ e ∈ new, e.boundary? = none

theorem within_sentWorld (w : World) (connection : Nat) (channel : Channel) (command : Command) :
    Within w (Session.sentWorld w connection channel command) := by
  refine ⟨[_], Session.submitted_events w connection channel command, ?_⟩
  intro e he
  rw [List.mem_singleton.mp he]
  rfl

theorem Within.cursorClosed {w w' : World} (h : Within w w') (id : Nat) :
    Within w (w'.cursorClosed id) := by
  obtain ⟨new, he, hnew⟩ := h
  refine ⟨new ++ [.closeCursor id], ?_, ?_⟩
  · rw [World.cursorClosed, he, List.append_assoc]
  · intro e hmem
    rcases List.mem_append.mp hmem with hmem | hmem
    · exact hnew e hmem
    · rw [List.mem_singleton.mp hmem]
      rfl

/-- `w.Quiet w'`: between `w` and `w'` nothing was sent, no connection was opened or closed, no name
was given out and nothing was reported. -/
structure World.Quiet (w w' : World) : Prop where
  answers : w'.answers = w.answers
  names : w'.statementNames = w.statementNames
  journal : w'.journal = w.journal
  events : ∃ new, w'.events = w.events ++ new ∧
    ∀ e ∈ new, e.sent? = none ∧ e.refused = false ∧ e.boundary? = none

namespace World.Quiet

variable {w w' w'' : World}

theorem refl (w : World) : w.Quiet w := ⟨rfl, rfl, rfl, [], (List.append_nil _).symm, nofun⟩

theorem of_event (ha : w'.answers = w.answers) (hn : w'.statementNames = w.statementNames)
    (hj : w'.journal = w.journal) {e : Event} (he : w'.events = w.events ++ [e])
    (hquiet : e.sent? = none ∧ e.refused = false ∧ e.boundary? = none) : w.Quiet w' :=
  ⟨ha, hn, hj, [e], he, by simpa using hquiet⟩

theorem trans (h : w.Quiet w') (h' : w'.Quiet w'') : w.Quiet w'' := by
  obtain ⟨new, he, hnew⟩ := h.events
  obtain ⟨new', he', hnew'⟩ := h'.events
  refine ⟨h'.answers.trans h.answers, h'.names.trans h.names, h'.journal.trans h.journal,
    new ++ new', ?_, ?_⟩
  · rw [he', he, List.append_assoc]
  · intro e hmem
    exact (List.mem_append.mp hmem).elim (hnew e) (hnew' e)

end World.Quiet

/-- What a statement does that is run over a connection of a backend, by the next answer. An error
goes on its way. Without one the statement succeeds, except that an embedded database may refuse
the rows that came back. -/
def SendsOne {α : Type} (g : Backend) (connection : Nat) (command : Command) (x : Session α) :
    Prop :=
  ∀ w, ∃ w', Sends connection command w w' ∧ Within w w' ∧ w'.journal = w.journal ∧
    ((∃ e, w.answer.error = some e ∧ x w = .error e w') ∨
      (w.answer.error = none ∧ ∃ a, x w = .ok a w') ∨
      (w.answer.error = none ∧ ∃ e, g = .embedded ∧ e.isReturnedRows = true ∧ x w = .error e w'))

theorem SendsOne.map {α β : Type} {g : Backend} {connection : Nat} {command : Command}
    {x : Session α} (h : SendsOne g connection command x) (f : α → β) :
    SendsOne g connection command (x >>= fun a => pure (f a)) := by
  intro w
  obtain ⟨w', hsends, hwithin, hjournal, hrun⟩ := h w
  refine ⟨w', hsends, hwithin, hjournal, ?_⟩
  rw [Session.bind_apply]
  obtain ⟨e, he, hrun⟩ | ⟨hnone, a, hrun⟩ | ⟨hnone, e, hg, he, hrun⟩ := hrun
  · exact .inl ⟨e, he, by rw [hrun]⟩
  · exact .inr (.inl ⟨hnone, f a, by rw [hrun]; rfl⟩)
  · exact .inr (.inr ⟨hnone, e, hg, he, by rw [hrun]⟩)

/-- A statement run for its effect on a server is sent, and the answer decides. -/
theorem Session.execute_sends (g : Backend) (connection : Nat) (r : Runnable)
    (values : List Value) :
    SendsOne g connection (Command.ofRunnable r values) (Session.execute connection r values) := by
  intro w
  refine ⟨_, (sends_sentWorld w connection (channelOf r) _).cursorClosed (w.cursors.length + 1),
    (within_sentWorld _ _ _ _).cursorClosed _, rfl, ?_⟩
  rw [execute_apply]
  cases w.answer.error with
  | some e => exact .inl ⟨e, rfl, rfl⟩
  | none => exact .inr (.inl ⟨rfl, _, rfl⟩)

/-- A statement run for its effect on an embedded database is sent. Rows are a failure here, though
no error came back. -/
theorem Session.executeFile_sends (connection : Nat) (statement : String)
    (values : List (String × Value)) :
    SendsOne .embedded connection { text := statement, arguments := .byName values }
      (Session.executeFile connection statement values) := by
  intro w
  refine ⟨_, sends_sentWorld w connection .embedded _, within_sentWorld _ _ _ _, rfl, ?_⟩
  rw [executeFile_apply]
  cases w.answer.error with
  | some e => exact .inl ⟨e, rfl, rfl⟩
  | none =>
    simp only [effect_apply]
    split
    · exact .inr (.inr ⟨trivial, _, trivial, rfl, rfl⟩)
    · exact .inr (.inl ⟨trivial, _, rfl⟩)

/-- So is a statement over a new cursor whose result nobody looks at. -/
theorem Session.submit_sends (g : Backend) (connection : Nat) (channel : Channel)
    (command : Command) :
    SendsOne g connection command (do
      let id ← newCursor connection
      submit id channel command
      return id) := by
  intro w
  refine ⟨_, sends_sentWorld w connection channel command, within_sentWorld _ _ _ _, rfl, ?_⟩
  rw [bind_apply, newCursor_apply]
  show (∃ e, _ ∧ (submit _ _ _ >>= fun _ => pure _) _ = _) ∨
    (_ ∧ ∃ a, (submit _ _ _ >>= _) _ = _) ∨ _
  rw [bind_apply, submit_fresh]
  cases w.answer.error with
  | some e => exact .inl ⟨e, rfl, rfl⟩
  | none => exact .inr (.inl ⟨rfl, _, rfl⟩)

end QueryBook
