import QueryBook.Proofs.Grammar.Reading

/-!
# The leftmost fault

Tokens are viable if some continuation of them is derived from the grammar. The machine that reads
declarations never runs into a dead end: whatever stage it is in, there are tokens that lead it to
the end of the declaration. So the tokens it takes are exactly the viable ones, and the token that
it refuses is the first with which no book goes on, however the text continues behind it.

A text is cut into tokens up to its first fault, and the machine sees the tokens before that fault
only. Which of the two is reported is therefore decided by their order in the text.
-/

namespace QueryBook

namespace Grammar

open Reader

/-- The tokens of a book. -/
def Derivable (ts : List Token) : Prop := ∃ u : UnitTree, u.yield = ts

/-- The tokens that a book may begin with. -/
def Viable (ts : List Token) : Prop := ∃ rest, Derivable (ts ++ rest)

/-! ## No stage is a dead end -/

/-- Some tokens lead from a stage to the end of its declaration. -/
def Completable (st : Stage) : Prop :=
  ∃ ts : List Token, ∀ done, ∃ s, State.run ⟨done, st⟩ ts = .ok s ∧ s.stage = .ready

theorem Completable.of_step {st next : Stage} (token : Token) (h : st.step? token = some next)
    (hn : Completable next) : Completable st := by
  obtain ⟨ts, hts⟩ := hn
  refine ⟨token :: ts, fun done => ?_⟩
  rw [run_cons h]
  exact hts done

/-- A name to go on with. -/
def anyName : Token := (Name.mk "x" .start).token

/-- A mark to go on with. -/
def anyMark (m : Mark) : Token := mark m .start

theorem completable_braced (sig : Signature) (outputs : List TypeExpr) :
    Completable (.braced sig outputs) := by
  have hstated : ∀ d, Completable (.stated d) := fun d =>
    ⟨[anyMark .rbrace], fun done => ⟨⟨done ++ [d], .ready⟩, rfl, rfl⟩⟩
  exact .of_step (Literal.mk "" .start).token rfl (hstated _)

theorem completable_signed (sig : Signature) : Completable (.signed sig) :=
  .of_step (anyMark .lbrace) rfl (completable_braced sig [])

theorem completable_outputsRead (sig : Signature) (outputs : List TypeExpr) :
    Completable (.outputsRead sig outputs) ∧ Completable (.typed sig outputs) := by
  have htyped : Completable (.typed sig outputs) :=
    .of_step (anyMark .lbrace) rfl (completable_braced sig outputs)
  exact ⟨.of_step (anyMark .rbracket) rfl htyped, htyped⟩

/-- A type can be completed if it can where no bracket is open: open brackets can be closed one by
one. -/
theorem completable_type {ctx : TypeStage → Stage} (hctx : Carries ctx)
    (hend : ∀ s t, s.complete? = some ([], t) → Completable (ctx s)) (s : TypeStage) :
    Completable (ctx s) := by
  have hcomplete : ∀ outer s t, s.complete? = some (outer, t) → Completable (ctx s) := by
    intro outer
    induction outer with
    | nil => exact hend
    | cons o outer ih =>
      intro s t hs
      exact .of_step (anyMark .rbracket) (hctx _ _ _ (step?_of_complete hs).2) (ih _ _ rfl)
  cases s with
  | start outer =>
    exact .of_step anyName (hctx _ _ _ rfl) (hcomplete outer (.named outer "x") _ rfl)
  | named outer name => exact hcomplete outer _ _ rfl
  | closed outer type => exact hcomplete outer _ _ rfl

theorem completable_parameterType (sig : Signature) (name : String) (s : TypeStage) :
    Completable (.parameterType sig name s) := by
  refine completable_type (carries_parameterType sig name) (fun s t hs => ?_) s
  obtain ⟨-, hstep, hresult⟩ := step?_of_complete_nil hs
  refine .of_step (anyMark .rparen) ?_ (completable_signed (sig.push { name, type := t }))
  simp only [Stage.step?, anyMark, mark, hstep, hresult]

theorem completable_outputType (sig : Signature) (outputs : List TypeExpr) (s : TypeStage) :
    Completable (.outputType sig outputs s) := by
  refine completable_type (carries_outputType sig outputs) (fun s t hs => ?_) s
  obtain ⟨-, hstep, hresult⟩ := step?_of_complete_nil hs
  refine .of_step (anyMark .rparen) ?_ (completable_outputsRead sig (outputs ++ [t])).1
  simp only [Stage.step?, anyMark, mark, hstep, hresult]

theorem completable_parameters (sig : Signature) : Completable (.parameters sig) :=
  .of_step (anyMark .rparen) rfl (completable_signed sig)

theorem completable_named (head : Head) : Completable (.named head) :=
  .of_step (anyMark .lparen) rfl (completable_parameters _)

theorem completable_attributed (attributes : List Attribute) :
    Completable (.attributed attributes) :=
  .of_step anyName rfl (completable_named _)

theorem completable_attributeStart (before : List Attribute) :
    Completable (.attributeStart before) :=
  .of_step anyName rfl
    (.of_step (anyMark .rbracket) rfl (completable_attributed _))

theorem completable_optionRead (attr : OpenAttribute) : Completable (.optionRead attr) :=
  .of_step (anyMark .rparen) rfl
    (.of_step (anyMark .rbracket) rfl (completable_attributed _))

theorem completable_valueRead (attr : OpenAttribute) (name : String) (line : Int)
    (values : List String) : Completable (.valueRead attr name line values) :=
  .of_step (anyMark .rbracket) rfl (completable_optionRead _)

theorem completable_optionEquals (attr : OpenAttribute) (name : String) (line : Int) :
    Completable (.optionEquals attr name line) ∧ Completable (.valuesOpen attr name line) := by
  have hopen : Completable (.valuesOpen attr name line) :=
    .of_step (anyMark .rbracket) rfl (completable_optionRead _)
  exact ⟨.of_step (anyMark .lbracket) rfl hopen, hopen⟩

theorem completable_optionNamed (attr : OpenAttribute) (name : String) (line : Int) :
    Completable (.optionNamed attr name line) :=
  .of_step (anyMark .equals) rfl (completable_optionEquals attr name line).1

/-- **From every stage the declaration can be completed.** -/
theorem completable (st : Stage) : Completable st := by
  cases st with
  | ready => exact ⟨[], fun done => ⟨_, rfl, rfl⟩⟩
  | hash => exact .of_step (anyMark .lbracket) rfl (completable_attributeStart [])
  | attributeStart before => exact completable_attributeStart before
  | attributeNamed before name line =>
    exact .of_step (anyMark .rbracket) rfl (completable_attributed _)
  | option attr => exact .of_step anyName rfl (completable_optionNamed _ _ _)
  | optionNamed attr name line => exact completable_optionNamed attr name line
  | optionEquals attr name line => exact (completable_optionEquals attr name line).1
  | valuesOpen attr name line => exact (completable_optionEquals attr name line).2
  | valueRead attr name line values => exact completable_valueRead attr name line values
  | valueNext attr name line values =>
    exact .of_step anyName rfl (completable_valueRead _ _ _ _)
  | optionRead attr => exact completable_optionRead attr
  | attributeRead attributes =>
    exact .of_step (anyMark .rbracket) rfl (completable_attributed _)
  | attributed attributes => exact completable_attributed attributes
  | named head => exact completable_named head
  | parameters sig => exact completable_parameters sig
  | parameterNamed sig name =>
    exact .of_step (anyMark .colon) rfl (completable_parameterType _ _ _)
  | parameterType sig name s => exact completable_parameterType sig name s
  | signed sig => exact completable_signed sig
  | arrow sig =>
    exact .of_step (anyMark .lbracket) rfl
      (.of_step (anyMark .lparen) rfl (completable_outputType _ _ _))
  | outputsOpen sig => exact .of_step (anyMark .lparen) rfl (completable_outputType _ _ _)
  | outputType sig outputs s => exact completable_outputType sig outputs s
  | outputNext sig outputs =>
    exact .of_step (anyMark .rparen) rfl (completable_outputsRead sig outputs).1
  | outputsRead sig outputs => exact (completable_outputsRead sig outputs).1
  | typed sig outputs => exact (completable_outputsRead sig outputs).2
  | braced sig outputs => exact completable_braced sig outputs
  | stated d => exact ⟨[anyMark .rbrace], fun done => ⟨⟨done ++ [d], .ready⟩, rfl, rfl⟩⟩

/-! ## What the machine takes -/

theorem run_append (s : State) (ts us : List Token) :
    s.run (ts ++ us) =
      match s.run ts with
      | .ok s' => s'.run us
      | .error token => .error token := by
  induction ts generalizing s with
  | nil => rfl
  | cons token ts ih =>
    rw [List.cons_append, State.run, State.run]
    cases s.step? token with
    | some next => exact ih next
    | none => rfl

/-- The machine ends between declarations on derived tokens, and on no others. -/
theorem derivable_iff_run (ts : List Token) :
    Derivable ts ↔ ∃ s, State.run State.start ts = .ok s ∧ s.stage = .ready := by
  constructor
  · rintro ⟨u, rfl⟩
    exact ⟨_, run_unit u, rfl⟩
  · rintro ⟨s, hrun, hready⟩
    have hresult : s.result? = some s.done := by rw [State.result?, hready]
    obtain ⟨u, -, hyield⟩ := (readsState_start.run hrun).result hresult
    exact ⟨u, hyield⟩

/-- **The machine takes the viable tokens.** -/
theorem viable_iff_run (ts : List Token) :
    Viable ts ↔ ∃ s, State.run State.start ts = .ok s := by
  constructor
  · rintro ⟨rest, hrest⟩
    obtain ⟨s, hrun, -⟩ := (derivable_iff_run _).mp hrest
    rw [run_append] at hrun
    cases hts : State.run State.start ts with
    | ok s' => exact ⟨s', rfl⟩
    | error token => rw [hts] at hrun; cases hrun
  · rintro ⟨s, hrun⟩
    obtain ⟨rest, hrest⟩ := completable s.stage
    obtain ⟨s', hrun', hready⟩ := hrest s.done
    refine ⟨rest, (derivable_iff_run _).mpr ⟨s', ?_, hready⟩⟩
    rw [run_append, hrun]
    exact hrun'

/-- The machine stops at the token that it refuses, having taken those before it. -/
theorem run_eq_error_iff (s : State) (ts : List Token) (token : Token) :
    s.run ts = .error token ↔
      ∃ before after s', ts = before ++ token :: after ∧ s.run before = .ok s' ∧
        s'.step? token = none := by
  constructor
  · intro h
    induction ts generalizing s with
    | nil => cases h
    | cons t ts ih =>
      rw [State.run] at h
      cases hstep : s.step? t with
      | none =>
        rw [hstep] at h
        injection h with h
        subst h
        exact ⟨[], ts, s, rfl, rfl, hstep⟩
      | some next =>
        rw [hstep] at h
        obtain ⟨before, after, s', rfl, hrun, hs'⟩ := ih next h
        refine ⟨t :: before, after, s', rfl, ?_, hs'⟩
        rw [State.run, hstep]
        exact hrun
  · rintro ⟨before, after, s', rfl, hrun, hs'⟩
    rw [run_append, hrun]
    simp only [State.run, hs']

/-- **The token refused is the first that makes the tokens not viable.** -/
theorem run_start_eq_error_iff (ts : List Token) (token : Token) :
    State.run State.start ts = .error token ↔
      ∃ before after, ts = before ++ token :: after ∧ Viable before ∧
        ¬ Viable (before ++ [token]) := by
  rw [run_eq_error_iff]
  have hsnoc : ∀ {before s'}, State.run State.start before = .ok s' →
      (s'.step? token = none ↔ ¬ Viable (before ++ [token])) := by
    intro before s' hrun
    rw [viable_iff_run, run_append, hrun]
    simp only [State.run]
    cases s'.step? token <;> simp
  constructor
  · rintro ⟨before, after, s', hts, hrun, hs'⟩
    exact ⟨before, after, hts, (viable_iff_run _).mpr ⟨s', hrun⟩, (hsnoc hrun).mp hs'⟩
  · rintro ⟨before, after, hts, hviable, hnot⟩
    obtain ⟨s', hrun⟩ := (viable_iff_run _).mp hviable
    exact ⟨before, after, s', hts, hrun, (hsnoc hrun).mpr hnot⟩

/-! ## The fault of a text -/

/-- The leftmost fault of a text, reading its tokens from the left. -/
inductive Leftmost (text : String) : SyntaxError → Prop where
  /-- The text stops being cut into tokens while those before are viable. -/
  | cut {e : SyntaxError} : (Token.scan text).fault = some e →
      Viable (Token.scan text).tokens → Leftmost text e
  /-- A token is the first with which no book goes on. What comes behind plays no part. -/
  | token {before after : List Token} {t : Token} :
      (Token.scan text).tokens = before ++ t :: after → Viable before →
      ¬ Viable (before ++ [t]) → Leftmost text (.unexpected t.value t.line t.column)
  /-- The tokens are viable and the text ends, but they are no book. -/
  | ending : (Token.scan text).fault = none → Viable (Token.scan text).tokens →
      ¬ Derivable (Token.scan text).tokens → Leftmost text .unexpectedEnd

/-- What cuts a text short is an illegal character or an unknown escape. -/
theorem scanFrom_fault (p : Position) (cs : List Char) {e : SyntaxError}
    (h : (Token.scanFrom p cs).fault = some e) :
    (∃ c line column, e = .illegalCharacter c line column) ∨
      ∃ c line, e = .unknownEscape c line := by
  fun_induction Token.scanFrom p cs with
  | case1 p => cases h
  | case2 p c cs hpiece => exact .inl ⟨c, p.line, p.column, (Option.some.inj h).symm⟩
  | case3 p c cs n hpiece next ih => exact ih h
  | case4 p c cs n l hpiece next ih => exact ih h
  | case5 p c cs n c' hpiece => exact .inr ⟨c', p.line, (Option.some.inj h).symm⟩

theorem State.result?_eq_none_iff (s : State) : s.result? = none ↔ s.stage ≠ .ready := by
  unfold State.result?
  split
  · rename_i h
    simp [h]
  · rename_i h
    exact iff_of_true rfl fun hready => h hready

theorem Leftmost.readAll {text : String} {e : SyntaxError} (h : Leftmost text e) :
    Declaration.readAll text = .error e := by
  cases h with
  | cut hfault hviable =>
    obtain ⟨s, hrun⟩ := (viable_iff_run _).mp hviable
    simp only [Declaration.readAll, hrun, hfault]
  | token htokens hviable hnot =>
    have hrun := (run_start_eq_error_iff _ _).mpr ⟨_, _, htokens, hviable, hnot⟩
    simp only [Declaration.readAll, hrun]
  | ending hfault hviable hnot =>
    obtain ⟨s, hrun⟩ := (viable_iff_run _).mp hviable
    have hresult : s.result? = none := by
      rw [State.result?_eq_none_iff]
      exact fun hready => hnot ((derivable_iff_run _).mpr ⟨s, hrun, hready⟩)
    simp only [Declaration.readAll, hrun, hfault, hresult]

theorem leftmost_of_readAll {text : String} {e : SyntaxError}
    (h : Declaration.readAll text = .error e) : Leftmost text e := by
  unfold Declaration.readAll at h
  simp only at h
  split at h
  · rename_i t hrun
    obtain ⟨before, after, htokens, hviable, hnot⟩ := (run_start_eq_error_iff _ _).mp hrun
    injection h with h
    subst h
    exact .token htokens hviable hnot
  · rename_i s hrun
    have hviable := (viable_iff_run _).mpr ⟨s, hrun⟩
    split at h
    · rename_i fault hfault
      injection h with h
      subst h
      exact .cut hfault hviable
    · cases h
    · rename_i hfault hresult
      injection h with h
      subst h
      refine .ending hfault hviable fun hderivable => ?_
      obtain ⟨s', hrun', hready⟩ := (derivable_iff_run _).mp hderivable
      rw [hrun] at hrun'
      injection hrun' with hrun'
      subst hrun'
      exact (State.result?_eq_none_iff s).mp hresult hready

/-- **The fault reported is the leftmost one.** It is one of the text itself, or is described by the
token it is at, with the token's line and column, or by the end of the text, without a place. -/
theorem readAll_eq_error_iff_leftmost (text : String) (e : SyntaxError) :
    (Declaration.readAll text = .error e ↔ Leftmost text e) ∧
      (∀ fault, (Token.scan text).fault = some fault →
        (∃ c line column, fault = .illegalCharacter c line column) ∨
          ∃ c line, fault = .unknownEscape c line) ∧
      (∀ t : Token,
        (SyntaxError.unexpected t.value t.line t.column).description =
            "Syntax error at '" ++ t.value ++ "'" ∧
          (SyntaxError.unexpected t.value t.line t.column).line = some (t.line : Int) ∧
          (SyntaxError.unexpected t.value t.line t.column).column = some (t.column : Int)) ∧
      SyntaxError.unexpectedEnd.description = "Syntax error at end of input" ∧
      SyntaxError.unexpectedEnd.line = none ∧ SyntaxError.unexpectedEnd.column = none := by
  refine ⟨⟨leftmost_of_readAll, Leftmost.readAll⟩, fun _ h => scanFrom_fault _ _ h, fun t => ?_, ?_⟩
  · exact ⟨rfl, rfl, rfl⟩
  · exact ⟨rfl, rfl, rfl⟩

/-- A parenthesis where a type must come is reported, and not the illegal character behind it. -/
example : Declaration.readAll "q(x: ) $" = .error (.unexpected ")" 1 6) := by decide +kernel

/-- The same character is reported where the tokens before it may be continued. -/
example : Declaration.readAll "q(x:\n $" = .error (.illegalCharacter '$' 2 2) := by
  decide +kernel

end Grammar

end QueryBook
