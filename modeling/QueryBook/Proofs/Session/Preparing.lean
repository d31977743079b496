import QueryBook.Proofs.Session.Sending

/-!
# What preparing a statement sends

The commands that prepare a statement and that execute one by name are told apart by their first
word, and the name stands behind it. A client that prepares a statement or executes one sends one
command and nothing else, whatever the driver refuses: it may send nothing at all, if there is no
cursor, and it may fail although the command was accepted, if the cursor cannot be closed. But when
it succeeds the command was accepted.
-/

namespace QueryBook

/-! ## Names in commands -/

namespace Command

/-- Whether a character can belong to a name: a blank or a parenthesis ends it. -/
def inName (c : Char) : Bool := c != ' ' && c != '('

/-- The name that follows a word at the start of a command. -/
def nameAfter? (word : String) (c : Command) : Option String :=
  (word.toList.isPrefixOf? c.text.toList).map fun rest => .ofList (rest.takeWhile inName)

/-- The name under which a command prepares a statement. -/
def preparedName? (c : Command) : Option String := c.nameAfter? "PREPARE "

/-- The name of the prepared statement that a command executes. -/
def executedName? (c : Command) : Option String := c.nameAfter? "EXECUTE "

theorem nameAfter?_eq_some {c : Command} {word name : String} {rest : List Char}
    (htext : word.toList.isPrefixOf? c.text.toList = some (name.toList ++ rest))
    (hname : ∀ x ∈ name.toList, inName x = true)
    (hrest : ∀ x, rest.head? = some x → inName x = false) :
    c.nameAfter? word = some name := by
  have hread : (name.toList ++ rest).takeWhile inName = name.toList := by
    rw [List.takeWhile_append_of_pos hname]
    cases rest with
    | nil => simp
    | cons x rest => simp [hrest x rfl]
  rw [nameAfter?, htext, Option.map_some, hread, String.ofList_toList]

end Command

/-- The name of this number. -/
def statementName (n : Nat) : String := s!"sqlfn_{n}"

theorem statementName_toList (n : Nat) :
    (statementName n).toList = "sqlfn_".toList ++ Nat.toDigits 10 n := by
  show ("sqlfn_" ++ toString n).toList = _
  rw [String.toList_append, Nat.toString_eq_repr, Nat.toList_repr]

theorem statementName_injective : Function.Injective statementName := by
  intro m n h
  have hdigits : Nat.toDigits 10 m = Nat.toDigits 10 n := by
    have hlists := congrArg String.toList h
    rw [statementName_toList, statementName_toList] at hlists
    exact List.append_cancel_left hlists
  calc m = Nat.ofDigitChars 10 (Nat.toDigits 10 m) 0 := Nat.ofDigitChars_ten_toDigits.symm
    _ = Nat.ofDigitChars 10 (Nat.toDigits 10 n) 0 := by rw [hdigits]
    _ = n := Nat.ofDigitChars_ten_toDigits

theorem inName_of_mem_statementName {n : Nat} {c : Char} (h : c ∈ (statementName n).toList) :
    Command.inName c = true := by
  rw [statementName_toList] at h
  rcases List.mem_append.mp h with h | h
  · have hword : "sqlfn_".toList.all Command.inName = true := by decide
    exact List.all_eq_true.mp hword c h
  · have hdigit : c.isDigit = true := Nat.isDigit_of_mem_toDigits (by decide) (by decide) h
    have hblank : c ≠ ' ' := by
      rintro rfl
      cases hdigit
    have hparen : c ≠ '(' := by
      rintro rfl
      cases hdigit
    simp [Command.inName, hblank, hparen]

namespace Command

/-- The name of a statement to prepare ends at a blank, before its types or its text. -/
theorem prepare_text (p : Prepared) :
    ∃ rest, (prepare p).text.toList = "PREPARE ".toList ++ (p.name.toList ++ ' ' :: rest) := by
  unfold prepare
  by_cases htypes : p.types.isEmpty = true
  · rw [if_pos htypes]
    exact ⟨_, by simp only [String.toList_append, List.append_assoc]; rfl⟩
  · rw [if_neg htypes]
    exact ⟨_, by simp only [String.toList_append, List.append_assoc]; rfl⟩

/-- The name of a statement to execute ends at a parenthesis, if not at the end. -/
theorem ofPrepared_text (name : String) (values : List Value) :
    ∃ rest, (ofPrepared name values).text.toList = "EXECUTE ".toList ++ (name.toList ++ rest) ∧
      ∀ x, rest.head? = some x → inName x = false := by
  unfold ofPrepared
  split
  · exact ⟨[], by rw [String.toList_append, List.append_nil], by rintro x ⟨⟩⟩
  · refine ⟨'(' :: _, by simp only [String.toList_append, List.append_assoc]; rfl, ?_⟩
    rintro x ⟨⟩
    rfl

theorem preparedName?_prepare {p : Prepared} {n : Nat} (h : p.name = statementName n) :
    (prepare p).preparedName? = some p.name := by
  obtain ⟨rest, htext⟩ := prepare_text p
  have hrest : "PREPARE ".toList.isPrefixOf? (prepare p).text.toList =
      some (p.name.toList ++ ' ' :: rest) := by
    rw [htext]
    rfl
  refine nameAfter?_eq_some hrest (fun x hx => inName_of_mem_statementName (h ▸ hx)) ?_
  rintro x ⟨⟩
  rfl

theorem executedName?_ofPrepared {name : String} {n : Nat} (h : name = statementName n)
    (values : List Value) : (ofPrepared name values).executedName? = some name := by
  obtain ⟨rest, htext, hrest⟩ := ofPrepared_text name values
  refine nameAfter?_eq_some ?_ (fun x hx => inName_of_mem_statementName (h ▸ hx)) hrest
  rw [htext]
  rfl

theorem executedName?_prepare (p : Prepared) : (prepare p).executedName? = none := by
  obtain ⟨rest, htext⟩ := prepare_text p
  rw [executedName?, nameAfter?, htext]
  rfl

theorem preparedName?_ofPrepared (name : String) (values : List Value) :
    (ofPrepared name values).preparedName? = none := by
  obtain ⟨rest, htext, _⟩ := ofPrepared_text name values
  rw [preparedName?, nameAfter?, htext]
  rfl

end Command

/-! ## What the operations of a client do to the world -/

/-- What was sent stays all that was sent if nothing is sent afterwards. -/
theorem Sends.quiet {connection : Nat} {command : Command} {w w' w'' : World}
    (h : Sends connection command w w') (hquiet : w'.Quiet w'') :
    Sends connection command w w'' := by
  obtain ⟨ha, cursor, channel, tail, he, htail⟩ := h
  obtain ⟨tail', he', htail'⟩ := hquiet.events
  refine ⟨hquiet.answers.trans ha, cursor, channel, tail ++ tail', ?_, ?_⟩
  · rw [he', he, List.append_assoc, List.cons_append]
  · intro e hmem
    rcases List.mem_append.mp hmem with hmem | hmem
    · exact htail e hmem
    · exact ⟨(htail' e hmem).1, (htail' e hmem).2.1⟩

theorem World.nothing_sent {w w' : World} (h : w'.events = w.events) :
    (w'.events.drop w.events.length).filterMap Event.sent? = [] := by
  rw [h, List.drop_length, List.filterMap_nil]

theorem Sends.sent_eq {connection : Nat} {command : Command} {w w' : World}
    (h : Sends connection command w w') :
    (w'.events.drop w.events.length).filterMap Event.sent? = [(connection, command)] := by
  obtain ⟨_, cursor, channel, tail, he, htail⟩ := h
  have hquiet : tail.filterMap Event.sent? = [] :=
    List.filterMap_eq_nil_iff.mpr fun e hmem => (htail e hmem).1
  rw [he, List.drop_left]
  show (connection, command) :: tail.filterMap Event.sent? = _
  rw [hquiet]

theorem Sends.accepted {connection : Nat} {command : Command} {w w' : World}
    (h : Sends connection command w w') (herror : w.answer.error = none) :
    ∃ cursor channel,
      Event.execute connection cursor channel command true ∈ w'.events.drop w.events.length := by
  obtain ⟨_, cursor, channel, tail, he, _⟩ := h
  refine ⟨cursor, channel, ?_⟩
  rw [he, List.drop_left, herror]
  exact List.mem_cons_self

namespace Session

variable {α β : Type}

/-- A session that sends nothing and gives out no name, whether it fails or not. -/
def Quiet (x : Session α) : Prop :=
  ∀ w, ∃ w', w.Quiet w' ∧ ((∃ a, x w = .ok a w') ∨ ∃ e, x w = .error e w')

theorem quiet_pure (a : α) : Quiet (pure a) := fun w => ⟨w, World.Quiet.refl w, .inl ⟨a, rfl⟩⟩

theorem Quiet.bind {x : Session α} {f : α → Session β} (hx : Quiet x) (hf : ∀ a, Quiet (f a)) :
    Quiet (x >>= f) := by
  intro w
  obtain ⟨w', hquiet, ⟨a, ha⟩ | ⟨e, he⟩⟩ := hx w
  · obtain ⟨w'', hquiet', h⟩ := hf a w'
    refine ⟨w'', hquiet.trans hquiet', ?_⟩
    rw [bind_apply, ha]
    exact h
  · refine ⟨w', hquiet, .inr ⟨e, ?_⟩⟩
    rw [bind_apply, he]

theorem quiet_refuse (fault : Option Failure) : Quiet (refuse fault) := by
  intro w
  cases fault with
  | some e => exact ⟨w, World.Quiet.refl w, .inr ⟨e, rfl⟩⟩
  | none => exact ⟨w, World.Quiet.refl w, .inl ⟨(), rfl⟩⟩

theorem quiet_closeCursor (id : Nat) : Quiet (closeCursor id) := fun w =>
  ⟨w.cursorClosed id, .of_event rfl rfl rfl rfl ⟨rfl, rfl, rfl⟩, .inl ⟨(), rfl⟩⟩

theorem quiet_fetchAll (id : Nat) : Quiet (fetchAll id) := by
  intro w
  have h : ∃ w', fetchAll id w = .ok (w.cursors.getD (id - 1) default).rows w' ∧
      w'.answers = w.answers ∧ w'.statementNames = w.statementNames ∧ w'.journal = w.journal ∧
      w'.events = w.events ++ [.fetchAll id] := ⟨_, rfl, rfl, rfl, rfl, rfl⟩
  obtain ⟨w', heq, ha, hn, hj, he⟩ := h
  exact ⟨w', .of_event ha hn hj he ⟨rfl, rfl, rfl⟩, .inl ⟨_, heq⟩⟩

theorem quiet_changedRows (id : Nat) : Quiet (changedRows id) := fun w =>
  ⟨w, World.Quiet.refl w, .inl ⟨_, rfl⟩⟩

/-- What is done in the end does not make a failing session succeed. -/
theorem always_of_error {x : Session α} {cleanup : Session Unit} (hcleanup : Quiet cleanup)
    {w w' : World} {e : Failure} (hx : x w = .error e w') :
    ∃ w'', w'.Quiet w'' ∧ ∃ e', always x cleanup w = .error e' w'' := by
  obtain ⟨w'', hquiet, ⟨_, h⟩ | ⟨e', h⟩⟩ := hcleanup w'
  · exact ⟨w'', hquiet, e, by simp only [always, hx, h]⟩
  · exact ⟨w'', hquiet, e', by simp only [always, hx, h]⟩

theorem always_of_ok {x : Session α} {cleanup : Session Unit} (hcleanup : Quiet cleanup)
    {w w' : World} {a : α} (hx : x w = .ok a w') :
    ∃ w'', w'.Quiet w'' ∧
      (always x cleanup w = .ok a w'' ∨ ∃ e, always x cleanup w = .error e w'') := by
  obtain ⟨w'', hquiet, ⟨_, h⟩ | ⟨e', h⟩⟩ := hcleanup w'
  · exact ⟨w'', hquiet, .inl (by simp only [always, hx, h])⟩
  · exact ⟨w'', hquiet, .inr ⟨e', by simp only [always, hx, h]⟩⟩

/-- A statement over a fresh cursor, and what follows it. -/
theorem submit_fresh_cases {rest : Session α} (hrest : Quiet rest) (connection : Nat)
    (channel : Channel) (command : Command) (w : World) :
    let x := submit (w.cursors.length + 1) channel command >>= fun _ => rest
    ∃ w', Sends connection command w w' ∧ w'.statementNames = w.statementNames ∧
      ((∃ e, x (w.withCursor connection) = .error e w') ∨
        (w.answer.error = none ∧ ∃ a, x (w.withCursor connection) = .ok a w')) := by
  intro x
  have hsends := sends_sentWorld w connection channel command
  have hx : x (w.withCursor connection) = _ := bind_apply _ _ _
  rw [hx, submit_fresh]
  cases herror : w.answer.error with
  | some e => exact ⟨_, hsends, rfl, .inl ⟨e, rfl⟩⟩
  | none =>
    obtain ⟨w', hquiet, hok | hfailed⟩ := hrest (sentWorld w connection channel command)
    · exact ⟨w', hsends.quiet hquiet, hquiet.names, .inr ⟨rfl, hok⟩⟩
    · exact ⟨w', hsends.quiet hquiet, hquiet.names, .inl hfailed⟩

/-- A session for one statement: the statement is sent and nothing else is, unless the driver does
not make a cursor for it, and it takes an answer without an error to succeed. -/
def SendsIfMade (connection : Nat) (command : Command) (faults : CursorFaults) (x : Session α) :
    Prop :=
  ∀ w, (faults.making ≠ none ∧ ∃ e, x w = .error e w) ∨
    ∃ w', Sends connection command w w' ∧ w'.statementNames = w.statementNames ∧
      ((∃ e, x w = .error e w') ∨ (w.answer.error = none ∧ ∃ a, x w = .ok a w'))

theorem sendsIfMade_withCursor {rest : Nat → Session α} (hrest : ∀ id, Quiet (rest id))
    (connection : Nat) (channel : Channel) (command : Command) (faults : CursorFaults) :
    SendsIfMade connection command faults (withCursor connection
      (fun id => submit id channel command >>= fun _ => rest id) faults) := by
  intro w
  rw [withCursor_apply]
  cases faults.making with
  | some e => exact .inl ⟨by simp, e, rfl⟩
  | none =>
    have hcleanup : Quiet (closeCursor (w.cursors.length + 1) >>= fun _ => refuse faults.closing) :=
      (quiet_closeCursor _).bind fun _ => quiet_refuse _
    obtain ⟨w₁, hsends, hnames, ⟨e, he⟩ | ⟨herror, a, ha⟩⟩ :=
      submit_fresh_cases (hrest (w.cursors.length + 1)) connection channel command w
    · obtain ⟨w', hquiet, hfailed⟩ := always_of_error hcleanup he
      exact .inr ⟨w', hsends.quiet hquiet, hquiet.names.trans hnames, .inl hfailed⟩
    · obtain ⟨w', hquiet, hok | hfailed⟩ := always_of_ok hcleanup ha
      · exact .inr ⟨w', hsends.quiet hquiet, hquiet.names.trans hnames, .inr ⟨herror, a, hok⟩⟩
      · exact .inr ⟨w', hsends.quiet hquiet, hquiet.names.trans hnames, .inl hfailed⟩

theorem sendsIfMade_execute (client : Nat) (r : Runnable) (values : List Value)
    (faults : CursorFaults) :
    SendsIfMade client (Command.ofRunnable r values) faults (execute client r values faults) :=
  sendsIfMade_withCursor quiet_changedRows client (channelOf r) _ faults

theorem sendsIfMade_query (client : Nat) (r : Runnable) (values : List Value)
    (faults : CursorFaults) :
    SendsIfMade client (Command.ofRunnable r values) faults (query client r values faults) :=
  sendsIfMade_withCursor (fun id => (quiet_refuse _).bind fun _ => quiet_fetchAll id) client
    (channelOf r) _ faults

end Session

/-- The statement that is prepared next for a key. -/
def World.nextStatement (w : World) (key : CacheKey) : Prepared :=
  { name := statementName (w.statementNames + 1), statement := key.1, types := key.2 }

namespace Session

/-- **What preparing a statement does.** A name is used up whatever happens. The statement is sent
under this name if the driver makes the cursor, and it takes an answer without an error to get it
back. -/
theorem prepare_cases (client : Nat) (key : CacheKey) (faults : CursorFaults) (w : World) :
    (faults.making ≠ none ∧ ∃ e, prepare client key faults w =
      .error e { w with statementNames := w.statementNames + 1 }) ∨
    ∃ w', Sends client (Command.prepare (w.nextStatement key)) w w' ∧
      w'.statementNames = w.statementNames + 1 ∧
      ((∃ e, prepare client key faults w = .error e w') ∨
        (w.answer.error = none ∧ prepare client key faults w = .ok (w.nextStatement key) w')) := by
  let w₀ : World := { w with statementNames := w.statementNames + 1 }
  let x : Session Unit := withCursor client
    (fun id => submit id .server (Command.prepare (w.nextStatement key))) faults
  have hx : SendsIfMade client (Command.prepare (w.nextStatement key)) faults x := by
    have hsubmit : ∀ id, (submit id .server (Command.prepare (w.nextStatement key)) >>= fun _ =>
        pure ()) = submit id .server (Command.prepare (w.nextStatement key)) :=
      fun id => bind_pure _
    have hpure := sendsIfMade_withCursor (fun _ => quiet_pure ()) client .server
      (Command.prepare (w.nextStatement key)) faults
    simp only [hsubmit] at hpure
    exact hpure
  obtain ⟨r, hprepare⟩ : ∃ r, prepare client key faults w =
      (x >>= fun _ => log r >>= fun _ => pure (w.nextStatement key)) w₀ := ⟨_, rfl⟩
  rw [hprepare, bind_apply]
  obtain ⟨hmaking, e, he⟩ | ⟨w', hsends, hnames, ⟨e, he⟩ | ⟨herror, _, hok⟩⟩ := hx w₀
  · exact .inl ⟨hmaking, e, by rw [he]⟩
  · exact .inr ⟨w', hsends, hnames, .inl ⟨e, by rw [he]⟩⟩
  · refine .inr ⟨{ w' with journal := w'.journal ++ [r] }, hsends, hnames,
      .inr ⟨herror, ?_⟩⟩
    rw [hok]
    rfl

/-- A statement that the cache has is not prepared again. -/
theorem prepareCached_of_find?_some {cache : StatementCache} {key : CacheKey} {p : Prepared}
    (h : cache.find? key = some p) (client : Nat) (faults : CursorFaults) (w : World) :
    ∃ r, prepareCached cache client key faults w =
      .ok (p, cache) { w with journal := w.journal ++ [r] } := by
  unfold prepareCached StatementCache.request
  rw [h]
  exact ⟨_, rfl⟩

theorem prepareCached_of_ok {cache : StatementCache} {client : Nat} {key : CacheKey}
    {faults : CursorFaults} {w w' : World} {p : Prepared} (h : cache.find? key = none)
    (hok : prepare client key faults w = .ok p w') :
    ∃ r, prepareCached cache client key faults w =
      .ok (p, cache.insert key p) { w' with journal := w'.journal ++ [r] } := by
  unfold prepareCached StatementCache.request
  rw [h, bind_apply]
  simp only [bind_apply, hok]
  exact ⟨_, rfl⟩

theorem prepareCached_of_error {cache : StatementCache} {client : Nat} {key : CacheKey}
    {faults : CursorFaults} {w w' : World} {e : Failure} (h : cache.find? key = none)
    (herror : prepare client key faults w = .error e w') :
    prepareCached cache client key faults w = .error e w' := by
  unfold prepareCached StatementCache.request
  rw [h, bind_apply]
  simp only [bind_apply, herror]

end Session

end QueryBook
