import QueryBook.Proofs.Session.Sending

/-!
# What a handle gives back

A handle with a cursor of its own sends every statement over it, and what one call leaves behind on
the cursor is what the next call finds. The other kind has a new cursor for each call. The
difference cannot be seen as long as rows are asked for only until the handle is called again: a
statement that is sent resets its cursor, so what a call gives back depends on the answer to its
statement alone.

That is what is proved here of each call, for every handle whose own cursor, if it has one, is open
(`execute_spec`, `firstRow_spec`, `rows_cases` with `ask_spec`). The functions that work without a
handle are compared with the same description.
-/

namespace QueryBook

/-! ## What comes back, by the answer to the statement -/

namespace Session

variable {α : Type}

/-- The world after a session. -/
def after (x : Session α) (w : World) : World :=
  match x w with
  | .ok _ w' => w'
  | .error _ w' => w'

end Session

/-- The statements sent so far, each with its connection. -/
def World.sent (w : World) : List (Nat × Command) := w.events.filterMap Event.sent?

/-- Asks for so many rows, and goes on when a row fails. -/
def Rows.ask (r : Rows) : Nat → World → List (Except Failure (Option Value)) × World
  | 0, w => ([], w)
  | n + 1, w =>
    match r.next w with
    | .ok (v, r') w' =>
      let (items, w'') := r'.ask n w'
      (.ok v :: items, w'')
    | .error e w' =>
      let (items, w'') := r.ask n w'
      (.error e :: items, w'')

/-- What a statement run for its effect gives back. -/
def Answer.effect (a : Answer) (statement : String) : Except Failure Int :=
  match a.error with
  | some e => .error e
  | none =>
    if a.rows.isSome then .error (.rows (.executeReturnedRows (some statement)))
    else .ok (max a.rowCount 0)

/-- What a statement run for its first row gives back. -/
def Answer.first (a : Answer) (statement : String)
    (read : List Value → Except Failure Value) : Except Failure Value :=
  a.fetched >>= fun rows =>
    match rows with
    | [] => .error (.rows (.noRows (some statement)))
    | row :: _ => read row

/-- A row, decoded and mapped. -/
def Mapper.read (f : Mapper) (types : List ColumnType) (row : List Value) : Except Failure Value :=
  (ColumnType.decodeRow types row).bind f

/-- The same for a loop over rows, which takes the sign that an iteration is over for its end. -/
def Mapper.readInLoop (f : Mapper) (types : List ColumnType) (statement : String)
    (row : List Value) : Except Failure Value :=
  match f.read types row with
  | .ok v => .ok v
  | .error e => .error (if e.endsIteration then .rows (.noRows (some statement)) else e)

/-- What comes of asking for rows so many times. At the end there is nothing, however often it is
asked for. -/
def Mapper.items (f : Mapper) (types : List ColumnType) :
    List (List Value) → Nat → List (Except Failure (Option Value))
  | _, 0 => []
  | [], n + 1 => .ok none :: f.items types [] n
  | row :: rest, n + 1 => (f.read types row).map some :: f.items types rest n

/-! ## Cursors that stay open -/

/-- For each cursor, the connection it belongs to and whether it is closed. -/
def World.lines (w : World) : List (Nat × Bool) := w.cursors.map fun c => (c.connection, c.closed)

/-- Between two worlds nothing was sent, no cursor was made and none was closed. -/
structure World.Still (w w' : World) : Prop where
  answers : w'.answers = w.answers
  sent : w'.sent = w.sent
  lines : w'.lines = w.lines

theorem World.Still.refl (w : World) : w.Still w := ⟨rfl, rfl, rfl⟩

theorem World.Still.trans {w w' w'' : World} (h : w.Still w') (h' : w'.Still w'') : w.Still w'' :=
  ⟨h'.answers.trans h.answers, h'.sent.trans h.sent, h'.lines.trans h.lines⟩

namespace World

variable {w : World} {id connection : Nat}

theorem cursor_of_lines (h : w.lines[id - 1]? = some (connection, false)) :
    id - 1 < w.cursors.length ∧
      (w.cursors.getD (id - 1) default).connection = connection ∧
      (w.cursors.getD (id - 1) default).closed = false := by
  rw [lines, List.getElem?_map, Option.map_eq_some_iff] at h
  obtain ⟨c, hc, hline⟩ := h
  obtain ⟨hlt, _⟩ := List.getElem?_eq_some_iff.mp hc
  rw [List.getD_eq_getElem?_getD, hc, Option.getD_some]
  exact ⟨hlt, congrArg Prod.fst hline, congrArg Prod.snd hline⟩

/-- Changing what a cursor holds leaves its line as it is. -/
theorem lines_set {c : Cursor}
    (hconnection : c.connection = (w.cursors.getD (id - 1) default).connection)
    (hclosed : c.closed = (w.cursors.getD (id - 1) default).closed) :
    (w.cursors.set (id - 1) c).map (fun c => (c.connection, c.closed)) = w.lines := by
  rw [List.map_set, ← lines]
  by_cases hlt : id - 1 < w.cursors.length
  · have hline : w.lines[id - 1]? = some (c.connection, c.closed) := by
      rw [lines, List.getElem?_map, List.getElem?_eq_getElem hlt, hconnection, hclosed,
        List.getD_eq_getElem?_getD, List.getElem?_eq_getElem hlt]
      rfl
    obtain ⟨hlt', hget⟩ := List.getElem?_eq_some_iff.mp hline
    rw [← hget, List.set_getElem_self]
  · exact List.set_eq_of_length_le (by simpa [lines] using Nat.le_of_not_lt hlt)

theorem getD_set {c : Cursor} (h : id - 1 < w.cursors.length) :
    (w.cursors.set (id - 1) c).getD (id - 1) default = c := by
  rw [List.getD_eq_getElem?_getD, List.getElem?_set_self h, Option.getD_some]

end World

theorem Cursor.receive_connection (c : Cursor) (a : Answer) :
    (c.receive a).connection = c.connection := by
  unfold receive
  cases a.error <;> rfl

theorem Cursor.receive_closed (c : Cursor) (a : Answer) : (c.receive a).closed = c.closed := by
  unfold receive
  cases a.error <;> rfl

/-- A statement resets the cursor that it is sent over. -/
theorem Cursor.receive_of_none (c : Cursor) {a : Answer} (h : a.error = none) :
    (c.receive a).rows = a.rows.getD [] ∧ (c.receive a).hasResult = a.rows.isSome ∧
      (c.receive a).rowCount = a.rowCount := by
  unfold receive
  rw [h]
  exact ⟨rfl, rfl, rfl⟩

/-! ## Sending the statement of a handle -/

namespace Handle

/-- What the handle sends for these arguments. -/
def command (h : Handle) (values : List (String × Value)) : Command :=
  { text := h.statement, arguments := .byName values }

/-- The cursor that the handle owns, if it owns one, is one of its connection and open. -/
def Ready (h : Handle) (w : World) : Prop :=
  ∀ id, h.own = some id → w.lines[id - 1]? = some (h.connection, false)

/-- Between two worlds the statement of the handle was sent, it took the next answer, and no cursor
was closed. -/
structure Sent (h : Handle) (values : List (String × Value)) (w w' : World) : Prop where
  answers : w'.answers = w.answers.tail
  sent : w'.sent = w.sent ++ [(h.connection, h.command values)]
  lines : w.lines <+: w'.lines

variable {h : Handle} {values : List (String × Value)} {w w' w'' : World}

theorem Sent.still (hsent : h.Sent values w w') (hstill : w'.Still w'') : h.Sent values w w'' :=
  ⟨hstill.answers.trans hsent.answers, hstill.sent.trans hsent.sent, hstill.lines ▸ hsent.lines⟩

theorem Ready.of_lines (hready : h.Ready w) (hlines : w.lines <+: w'.lines) : h.Ready w' := by
  intro id hid
  obtain ⟨new, hnew⟩ := hlines
  have hline := hready id hid
  obtain ⟨hlt, _⟩ := List.getElem?_eq_some_iff.mp hline
  rw [← hnew, List.getElem?_append_left hlt, hline]

/-- What a statement over an open cursor does. -/
theorem sent_submitted {id : Nat} (hline : w.lines[id - 1]? = some (h.connection, false))
    (values : List (String × Value)) :
    h.Sent values w (w.submitted id .embedded (h.command values)) ∧
      (w.submitted id .embedded (h.command values)).lines = w.lines ∧
      (w.submitted id .embedded (h.command values)).cursors.getD (id - 1) default =
        (w.cursors.getD (id - 1) default).receive w.answer := by
  obtain ⟨hlt, hconnection, _⟩ := World.cursor_of_lines hline
  have hlines : (w.submitted id .embedded (h.command values)).lines = w.lines :=
    World.lines_set (Cursor.receive_connection _ _) (Cursor.receive_closed _ _)
  refine ⟨⟨rfl, ?_, hlines ▸ List.prefix_refl _⟩, hlines, World.getD_set hlt⟩
  show List.filterMap Event.sent? (w.events ++ [_]) = _
  rw [List.filterMap_append, hconnection]
  rfl

/-- **A handle that is ready sends its statement over an open cursor, and the answer decides.** -/
theorem run_cases (hready : h.Ready w) (values : List (String × Value)) :
    ∃ (id : Nat) (w' : World) (c : Cursor), h.Sent values w w' ∧
      w'.lines[id - 1]? = some (h.connection, false) ∧
      w'.cursors.getD (id - 1) default = c.receive w.answer ∧
      h.run values w = match w.answer.error with
        | some e => .error e w'
        | none => .ok id w' := by
  cases hown : h.own with
  | some id =>
    have hline := hready id hown
    obtain ⟨hsent, hlines, hcursor⟩ := sent_submitted hline values
    refine ⟨id, _, _, hsent, by rw [hlines, hline], hcursor, ?_⟩
    unfold run
    rw [hown]
    show (Session.submit _ _ _ >>= fun _ => pure id) w = _
    rw [Session.bind_apply, Session.submit_apply _ _ (World.cursor_of_lines hline).2.2]
    cases w.answer.error with
    | some e => rfl
    | none => rfl
  | none =>
    -- the cursor is a new one, and the others are as they were
    have hnew : (w.withCursor h.connection).lines = w.lines ++ [(h.connection, false)] := by
      simp [World.lines, World.withCursor]
    have hline : (w.withCursor h.connection).lines[w.cursors.length + 1 - 1]? =
        some (h.connection, false) := by
      rw [hnew]
      simp [World.lines]
    obtain ⟨hsent, hlines, hcursor⟩ := sent_submitted hline values
    refine ⟨w.cursors.length + 1, _, _, ⟨hsent.answers, hsent.sent, ?_⟩, by rw [hlines, hline],
      hcursor, ?_⟩
    · rw [hlines, hnew]
      exact List.prefix_append _ _
    · unfold run
      rw [hown]
      show (Session.newCursor h.connection >>= fun id =>
        Session.submitNamed id h.statement values >>= fun _ => pure id) w = _
      rw [Session.bind_apply, Session.newCursor_apply]
      show (Session.submit _ _ _ >>= fun _ => pure _) _ = _
      rw [Session.bind_apply, Session.submit_fresh]
      cases w.answer.error with
      | some e => rfl
      | none => rfl

theorem execute_spec (hready : h.Ready w) (values : List (String × Value)) :
    Session.outcome (h.execute values) w = w.answer.effect h.statement ∧
      h.Sent values w (Session.after (h.execute values) w) := by
  obtain ⟨id, w', c, hsent, _, hcursor, hrun⟩ := run_cases hready values
  have hexecute : h.execute values w = match w.answer.error with
      | some e => .error e w'
      | none => Session.effect id h.statement w' := by
    unfold execute
    rw [Session.bind_apply, hrun]
    cases w.answer.error with
    | some e => rfl
    | none => rfl
  unfold Session.outcome Session.after Answer.effect
  rw [hexecute]
  cases herror : w.answer.error with
  | some e => exact ⟨rfl, hsent⟩
  | none =>
    obtain ⟨_, hresult, hcount⟩ := c.receive_of_none herror
    simp only [Session.effect_apply, hcursor, hresult, hcount]
    cases w.answer.rows.isSome with
    | true => exact ⟨rfl, hsent⟩
    | false => exact ⟨rfl, hsent⟩

end Handle

/-! ## Rows -/

namespace Rows

variable {r : Rows} {w : World} {connection : Nat}

/-- What is left on the cursor of the rows. -/
def left (r : Rows) (w : World) : List (List Value) := (w.cursors.getD (r.cursor - 1) default).rows

/-- The cursor of the rows is open, and the end has been seen only if nothing is left. -/
structure Open (r : Rows) (w : World) : Prop where
  line : ∃ connection, w.lines[r.cursor - 1]? = some (connection, false)
  done : r.done = true → r.left w = []

/-- An open cursor gives the first of the rows that are left. -/
theorem fetchOne_apply (hr : r.Open w) :
    ∃ w', Session.fetchOne r.cursor w = .ok (r.left w).head? w' ∧ w.Still w' ∧
      r.left w' = (r.left w).tail := by
  obtain ⟨connection, hline⟩ := hr.line
  obtain ⟨hlt, _, hclosed⟩ := World.cursor_of_lines hline
  have hsent : ∀ new : Event, new.sent? = none →
      (w.events ++ [new]).filterMap Event.sent? = w.sent := by
    intro new hnew
    rw [List.filterMap_append, List.filterMap_cons_none hnew, List.filterMap_nil, List.append_nil]
    rfl
  have hfetch : Session.fetchOne r.cursor w =
      (match r.left w with
      | [] => pure none
      | row :: rest => do
        Session.setCursor r.cursor
          { w.cursors.getD (r.cursor - 1) default with rows := rest }
        return some row : Session (Option (List Value)))
        { w with events := w.events ++ [.fetchOne r.cursor] } := by
    unfold Session.fetchOne Session.refuseClosed
    rw [Session.bind_apply]
    show ((if (w.cursors.getD (r.cursor - 1) default).closed = true then _ else _ : Session Unit)
      >>= _) w = _
    rw [if_neg (by rw [hclosed]; exact Bool.false_ne_true)]
    rfl
  rw [hfetch]
  cases hleft : r.left w with
  | nil => exact ⟨_, rfl, ⟨rfl, hsent _ rfl, rfl⟩, hleft⟩
  | cons row rest =>
    refine ⟨_, rfl, ⟨rfl, hsent _ rfl, ?_⟩, ?_⟩
    · exact World.lines_set rfl rfl
    · exact congrArg Cursor.rows (World.getD_set hlt)

/-- At the end nothing is fetched any more, or nothing comes of it. -/
theorem next_of_left_nil (hr : r.Open w) (hleft : r.left w = []) :
    ∃ done w', r.next w = .ok (none, { r with done }) w' ∧ w.Still w' ∧
      r.left w' = [] := by
  unfold next
  cases hdone : r.done with
  | true =>
    refine ⟨r.done, w, ?_, .refl w, hleft⟩
    rw [if_pos rfl]
    rfl
  | false =>
    obtain ⟨w', hfetch, hstill, hleft'⟩ := fetchOne_apply hr
    rw [hleft] at hfetch hleft'
    refine ⟨true, w', ?_, hstill, hleft'⟩
    rw [if_neg Bool.false_ne_true, Session.bind_apply, hfetch]
    rfl

/-- Otherwise the first row is used up, whether or not it can be decoded and mapped. -/
theorem next_of_left_cons (hr : r.Open w) {row : List Value} {rest : List (List Value)}
    (hleft : r.left w = row :: rest) :
    ∃ w', r.next w = (match r.mapper.read r.types row with
        | .ok v => .ok (some v, r) w'
        | .error e => .error e w') ∧ w.Still w' ∧ r.left w' = rest := by
  have hdone : r.done = false := Bool.eq_false_iff.mpr fun hdone => by
    cases (hr.done hdone).symm.trans hleft
  obtain ⟨w', hfetch, hstill, hleft'⟩ := fetchOne_apply hr
  rw [hleft] at hfetch hleft'
  refine ⟨w', ?_, hstill, hleft'⟩
  unfold next Mapper.read
  rw [hdone, if_neg Bool.false_ne_true, Session.bind_apply, hfetch]
  show (Session.ofExcept _ >>= fun v => pure (some v, r)) w' = _
  rw [Session.bind_apply]
  cases (ColumnType.decodeRow r.types row).bind r.mapper with
  | ok v => rfl
  | error e => rfl

theorem Open.still {w' : World} (hr : r.Open w) (hstill : w.Still w') (done : Bool)
    (hdone : done = true → r.left w' = []) : ({ r with done } : Rows).Open w' := by
  obtain ⟨connection, hline⟩ := hr.line
  exact ⟨⟨connection, hstill.lines ▸ hline⟩, hdone⟩

/-- **What comes of asking for rows is decided by what is left of them.** -/
theorem ask_spec (hr : r.Open w) (n : Nat) :
    (r.ask n w).1 = r.mapper.items r.types (r.left w) n ∧ w.Still (r.ask n w).2 := by
  induction n generalizing r w with
  | zero => exact ⟨by rw [ask, Mapper.items], .refl w⟩
  | succ n ih =>
    cases hleft : r.left w with
    | nil =>
      obtain ⟨done, w', hnext, hstill, hleft'⟩ := next_of_left_nil hr hleft
      obtain ⟨hitems, hstill'⟩ := ih (hr.still hstill done fun _ => hleft')
      have hleft'' : ({ r with done } : Rows).left w' = [] := hleft'
      rw [hleft''] at hitems
      simp only [ask, hnext, Mapper.items]
      exact ⟨congrArg _ hitems, hstill.trans hstill'⟩
    | cons row rest =>
      obtain ⟨w', hnext, hstill, hleft'⟩ := next_of_left_cons hr hleft
      have hdone : r.done = true → r.left w' = [] := fun hdone => by
        cases (hr.done hdone).symm.trans hleft
      obtain ⟨hitems, hstill'⟩ := ih (hr.still hstill r.done hdone)
      rw [hleft'] at hitems
      -- a row that fails is used up like any other
      cases hread : r.mapper.read r.types row with
      | ok v =>
        simp only [ask, hnext, hread, Mapper.items]
        exact ⟨congrArg _ hitems, hstill.trans hstill'⟩
      | error e =>
        simp only [ask, hnext, hread, Mapper.items]
        exact ⟨congrArg _ hitems, hstill.trans hstill'⟩

/-- The first round of a loop over rows. -/
theorem advance_apply (r : Rows) (w : World) :
    r.advance w = match r.next w with
      | .ok x w' => .ok x w'
      | .error e w' => if e.endsIteration then .ok (none, r) w' else .error e w' := by
  unfold advance
  show EStateM.tryCatch r.next _ w = _
  unfold EStateM.tryCatch
  cases r.next w with
  | ok x w' => rfl
  | error e w' =>
    show (if e.endsIteration = true then _ else _ : Session (Option Value × Rows)) w' =
      if e.endsIteration = true then .ok (none, r) w' else .error e w'
    cases e.endsIteration with
    | true => rfl
    | false => rfl

end Rows

/-! ## Requests -/

namespace Handle

variable {h : Handle} {w : World}

/-- The rows of a handle that is ready are those of the answer. -/
theorem rows_cases (hready : h.Ready w) (values : List (String × Value)) (f : Mapper) :
    ∃ (r : Rows) (w' : World), h.Sent values w w' ∧ r.types = h.outputs ∧ r.mapper = f ∧
      (w.answer.error = none → r.Open w' ∧ r.left w' = w.answer.rows.getD []) ∧
      h.rows values f w = match w.answer.error with
        | some e => .error e w'
        | none => .ok r w' := by
  obtain ⟨id, w', c, hsent, hline, hcursor, hrun⟩ := run_cases hready values
  refine ⟨{ cursor := id, types := h.outputs, mapper := f }, w', hsent, rfl, rfl,
    fun herror => ⟨⟨⟨_, hline⟩, nofun⟩, ?_⟩, ?_⟩
  · rw [Rows.left, hcursor]
    exact (c.receive_of_none herror).1
  · unfold rows
    rw [Session.bind_apply, hrun]
    cases w.answer.error with
    | some e => rfl
    | none => rfl

/-- The first row is what the first round of a loop over the rows gives. -/
theorem firstRow_apply {values : List (String × Value)} {f : Mapper} {r : Rows} {w' : World}
    (hrows : h.rows values f w = match w.answer.error with
      | some e => .error e w'
      | none => .ok r w') :
    h.firstRow values f w = match w.answer.error with
      | some e => .error e w'
      | none => match r.advance w' with
        | .ok (some v, _) w'' => .ok v w''
        | .ok (none, _) w'' => .error (.rows (.noRows (some h.statement))) w''
        | .error e w'' => .error e w'' := by
  unfold firstRow
  rw [Session.bind_apply, hrows]
  cases w.answer.error with
  | some e => rfl
  | none =>
    show (r.advance >>= _) w' = _
    rw [Session.bind_apply]
    rcases r.advance w' with ⟨⟨_ | v, r'⟩, w''⟩ | ⟨e, w''⟩
    · rfl
    · rfl
    · rfl

theorem firstRow_spec (hready : h.Ready w) (values : List (String × Value)) (f : Mapper) :
    Session.outcome (h.firstRow values f) w =
        w.answer.first h.statement (f.readInLoop h.outputs h.statement) ∧
      h.Sent values w (Session.after (h.firstRow values f) w) := by
  obtain ⟨r, w', hsent, htypes, hmapper, hopen, hrows⟩ := rows_cases hready values f
  unfold Session.outcome Session.after Answer.first Answer.fetched
  rw [firstRow_apply hrows]
  cases herror : w.answer.error with
  | some e => exact ⟨rfl, hsent⟩
  | none =>
    obtain ⟨hr, hleft⟩ := hopen herror
    simp only [Rows.advance_apply]
    cases hanswer : w.answer.rows.getD [] with
    | nil =>
      rw [hanswer] at hleft
      obtain ⟨done, w'', hnext, hstill, _⟩ := Rows.next_of_left_nil hr hleft
      simp only [hnext]
      exact ⟨rfl, hsent.still hstill⟩
    | cons row rest =>
      rw [hanswer] at hleft
      obtain ⟨w'', hnext, hstill, _⟩ := Rows.next_of_left_cons hr hleft
      rw [htypes, hmapper] at hnext
      show _ = f.readInLoop h.outputs h.statement row ∧ _
      unfold Mapper.readInLoop
      cases hread : f.read h.outputs row with
      | ok v =>
        simp only [hnext, hread]
        exact ⟨trivial, hsent.still hstill⟩
      | error e =>
        simp only [hnext, hread]
        cases e.endsIteration with
        | true => exact ⟨rfl, hsent.still hstill⟩
        | false => exact ⟨rfl, hsent.still hstill⟩

end Handle

/-! ## Functions without a handle -/

/-- The sign that an iteration is over does not come from decoding. -/
theorem ColumnType.decodeColumns_error {column : Nat} {types : List ColumnType}
    {values : List Value} {e : Failure} (h : decodeColumns none column types values = .error e) :
    e.endsIteration = false := by
  fun_induction decodeColumns none column types values with
  | case1 column t types v values ih =>
    cases hfirst : t.decode column v with
    | error e' =>
      rw [hfirst] at h
      cases h
      unfold decode at hfirst
      split at hfirst
      · cases hfirst
      · cases hfirst
        rfl
      · cases hfirst
        rfl
    | ok first =>
      rw [hfirst] at h
      cases hrest : decodeColumns none (column + 1) types values with
      | error e' =>
        rw [hrest] at h
        cases h
        exact ih hrest
      | ok rest =>
        rw [hrest] at h
        cases h
  | case2 => cases h

theorem ColumnType.decodeRow_error {types : List ColumnType} {row : List Value} {e : Failure}
    (h : decodeRow types row = .error e) : e.endsIteration = false := by
  unfold decodeRow at h
  split at h
  · cases h
    rfl
  · exact decodeColumns_error h

/-- A mapper that never gives the sign that an iteration is over. -/
def Mapper.GoesOn (f : Mapper) : Prop := ∀ values e, f values = .error e → e.endsIteration = false

/-- For such a mapper a loop is over only at the end of the rows. -/
theorem Mapper.GoesOn.readInLoop_eq {f : Mapper} (hf : f.GoesOn) (types : List ColumnType)
    (statement : String) : f.readInLoop types statement = f.read types := by
  funext row
  unfold readInLoop
  cases hread : f.read types row with
  | ok v => rfl
  | error e =>
    have hgoes : e.endsIteration = false := by
      unfold read at hread
      cases hdecode : ColumnType.decodeRow types row with
      | error e' =>
        rw [hdecode] at hread
        cases hread
        exact ColumnType.decodeRow_error hdecode
      | ok values =>
        rw [hdecode] at hread
        exact hf values e hread
    simp only [hgoes]
    rfl

namespace Session

variable (connection : Nat) (statement : String) (values : List (String × Value))
  (types : List ColumnType) (f : Mapper)

/-- A handle without a cursor of its own is always ready. -/
theorem cached_ready (w : World) : (Handle.cached connection statement types).Ready w := nofun

/-- Running a statement for its effect is a call of such a handle. -/
theorem executeFile_eq :
    executeFile connection statement values =
      (Handle.cached connection statement types).execute values := by
  simp [executeFile, Handle.execute, Handle.run, Handle.cached]

/-- Mapping its first row sends the statement as such a handle does, and closes the cursor. -/
theorem firstRowFile_eq :
    firstRowFile connection statement values types f =
      (Handle.cached connection statement types).run values >>= fun id =>
        always (fetchOne id) (closeCursor id) >>= fun row? =>
          match row? with
          | none => throw (.rows (.noRows (some statement)))
          | some row => ofExcept (f.read types row) := by
  simp only [firstRowFile, fetchRowFile, Handle.run, Handle.cached, bind_assoc, pure_bind]
  congr 1
  funext id
  congr 1
  funext _
  congr 1
  funext row?
  cases row? <;> rfl

theorem closeCursor_still (id : Nat) (w : World) : (after (closeCursor id) w).sent = w.sent := by
  show List.filterMap Event.sent? (w.events ++ [.closeCursor id]) = _
  rw [List.filterMap_append, List.filterMap_cons_none rfl, List.filterMap_nil, List.append_nil]
  rfl

theorem executeFile_spec (w : World) :
    outcome (executeFile connection statement values) w = w.answer.effect statement ∧
      (after (executeFile connection statement values) w).sent =
        w.sent ++ [(connection, { text := statement, arguments := .byName values })] := by
  rw [executeFile_eq connection statement values []]
  obtain ⟨houtcome, hsent⟩ := Handle.execute_spec (cached_ready connection statement [] w) values
  exact ⟨houtcome, hsent.sent⟩

theorem firstRowFile_spec (w : World) :
    outcome (firstRowFile connection statement values types f) w =
        w.answer.first statement (f.read types) ∧
      (after (firstRowFile connection statement values types f) w).sent =
        w.sent ++ [(connection, { text := statement, arguments := .byName values })] := by
  obtain ⟨id, w', c, hsent, hline, hcursor, hrun⟩ :=
    Handle.run_cases (cached_ready connection statement types w) values
  unfold Answer.first Answer.fetched outcome after
  rw [firstRowFile_eq, bind_apply, hrun]
  cases herror : w.answer.error with
  | some e => exact ⟨rfl, hsent.sent⟩
  | none =>
    let r : Rows := { cursor := id, types, mapper := f }
    have hr : r.Open w' := ⟨⟨_, hline⟩, nofun⟩
    have hleft : r.left w' = w.answer.rows.getD [] := by
      rw [Rows.left, hcursor]
      exact (c.receive_of_none herror).1
    obtain ⟨w'', hfetch, hstill, _⟩ := Rows.fetchOne_apply hr
    have hclosed : (after (closeCursor id) w'').sent =
        w.sent ++ [(connection, { text := statement, arguments := .byName values })] := by
      rw [closeCursor_still, hstill.sent, hsent.sent]
      rfl
    have hfetched : always (fetchOne id) (closeCursor id) w' =
        .ok (r.left w').head? (after (closeCursor id) w'') := by
      unfold always
      rw [hfetch]
      rfl
    simp only [bind_apply, hfetched, hleft]
    cases w.answer.rows.getD [] with
    | nil => exact ⟨rfl, hclosed⟩
    | cons row rest =>
      simp only [List.head?_cons]
      show _ = f.read types row ∧ _
      cases f.read types row with
      | ok v => exact ⟨rfl, hclosed⟩
      | error e => exact ⟨rfl, hclosed⟩

end Session

end QueryBook
