import QueryBook.Declaration.Reader
import QueryBook.Proofs.Grammar.Unambiguous

/-!
# Every derivation is read

The machine that reads declarations takes the tokens of a derivation tree one by one and ends
with what the tree stands for. A list is followed item by item: from the stage `S vs`, where the
items `vs` have been read and another must come, an item leads to some stage that closes the list
of one item more, and a comma leads from there back to `S`. Which stage closes a list depends on
its last item, so the closing stages are a predicate `E`, and the induction over lists is done
once for all five of them.
-/

namespace QueryBook

namespace Grammar

open Reader

/-- A token that a stage takes is a token that the machine takes. -/
theorem step?_of_stage {done : List Declaration} {stage next : Stage} {token : Token}
    (h : stage.step? token = some next) :
    State.step? ⟨done, stage⟩ token = some ⟨done, next⟩ := by
  unfold State.step?
  split
  · rename_i d hstage _
    simp only at hstage
    subst hstage
    simp [Stage.step?] at h
  · simp only [h, Option.map_some]

theorem run_cons {done : List Declaration} {stage next : Stage} {token : Token}
    (h : stage.step? token = some next) (rest : List Token) :
    State.run ⟨done, stage⟩ (token :: rest) = State.run ⟨done, next⟩ rest := by
  rw [State.run, step?_of_stage h]

/-- From stage `st` the machine gets to stage `st'` over the tokens `ts`. -/
def Passes (st : Stage) (ts : List Token) (st' : Stage) : Prop :=
  ∀ (done : List Declaration) (rest : List Token),
    State.run ⟨done, st⟩ (ts ++ rest) = State.run ⟨done, st'⟩ rest

theorem Passes.nil (st : Stage) : Passes st [] st := fun _ _ => rfl

theorem Passes.cons {st st' st'' : Stage} {token : Token} {ts : List Token}
    (h : st.step? token = some st') (ht : Passes st' ts st'') : Passes st (token :: ts) st'' := by
  intro done rest
  rw [List.cons_append, run_cons h, ht]

theorem Passes.append {st st' st'' : Stage} {ts us : List Token} (h : Passes st ts st')
    (h' : Passes st' us st'') : Passes st (ts ++ us) st'' := by
  intro done rest
  rw [List.append_assoc, h, h']

theorem Passes.snoc {st st' st'' : Stage} {token : Token} {ts : List Token}
    (h : Passes st ts st') (ht : st'.step? token = some st'') : Passes st (ts ++ [token]) st'' :=
  h.append (.cons ht (.nil _))

/-- Two stages that take the same first token read the same from there. -/
theorem Passes.of_step?_eq {st₁ st₂ st' : Stage} {token : Token} {ts : List Token}
    (he : st₁.step? token = st₂.step? token) (hs : (st₂.step? token).isSome)
    (h : Passes st₂ (token :: ts) st') : Passes st₁ (token :: ts) st' := by
  obtain ⟨next, hnext⟩ := Option.isSome_iff_exists.mp hs
  intro done rest
  rw [List.cons_append, run_cons (he.trans hnext), ← run_cons hnext, ← List.cons_append, h]

/-! ## Lists -/

/-- From where one more item must come, the item leads to where the list may be closed. -/
def ItemPasses {α β : Type} (y : α → List Token) (v : α → β) (S : List β → Stage)
    (E : List β → Stage → Prop) (a : α) : Prop :=
  ∀ vs, ∃ st, E (vs ++ [v a]) st ∧ Passes (S vs) (y a) st

theorem passes_separated {α β : Type} {y : α → List Token} {v : α → β} {S : List β → Stage}
    {E : List β → Stage → Prop}
    (hcomma : ∀ vs st c, E vs st → st.step? (mark .comma c) = some (S vs)) (vs : List β)
    (as : Separated α) (h : as.All (ItemPasses y v S E)) :
    ∃ st, E (vs ++ as.values v) st ∧ Passes (S vs) (as.yield y) st := by
  induction as with
  | single a => exact h vs
  | more as c a ih =>
    -- the list grows on the right, so what is before the comma may be closed already
    obtain ⟨st, hE, hpass⟩ := ih h.1
    obtain ⟨st', hE', hpass'⟩ := h.2 (vs ++ as.values v)
    refine ⟨st', ?_, hpass.append (.cons (hcomma _ _ c hE) hpass')⟩
    rwa [Separated.values, ← List.append_assoc]

/-! ## Types -/

/-- A stage that holds a type stage and takes every token that the type stage takes. -/
def Carries (ctx : TypeStage → Stage) : Prop :=
  ∀ (s s' : TypeStage) (token : Token), s.step? token.lexeme = some s' →
    (ctx s).step? token = some (ctx s')

theorem carries_parameterType (sig : Signature) (name : String) :
    Carries (.parameterType sig name) := by
  intro s s' token h
  simp only [Stage.step?, h]

theorem carries_outputType (sig : Signature) (outputs : List TypeExpr) :
    Carries (.outputType sig outputs) := by
  intro s s' token h
  simp only [Stage.step?, h]

/-- Where a list of arguments may be closed: its last type is complete inside the open bracket. -/
def ArgumentsRead (ctx : TypeStage → Stage) (name : String) (outer : List OpenType)
    (args : List TypeExpr) (st : Stage) : Prop :=
  ∃ (s : TypeStage) (before : List TypeExpr) (last : TypeExpr), st = ctx s ∧
    s.complete? = some (⟨name, before⟩ :: outer, last) ∧ args = before ++ [last]

theorem step?_of_complete {s : TypeStage} {o : OpenType} {outer : List OpenType}
    {type : TypeExpr} (h : s.complete? = some (o :: outer, type)) :
    s.step? (.mark .comma) = some (.start (⟨o.name, o.args ++ [type]⟩ :: outer)) ∧
      s.step? (.mark .rbracket) = some (.closed outer ⟨o.name, o.args ++ [type]⟩) := by
  cases s with
  | start outer' => simp [TypeStage.complete?] at h
  | named outer' name => simp only [TypeStage.step?, TypeStage.continue?, h, and_self]
  | closed outer' type' => simp only [TypeStage.step?, TypeStage.continue?, h, and_self]

mutual

/-- A type is read to where it is complete, inside any open brackets. -/
theorem passes_type {ctx : TypeStage → Stage} (hctx : Carries ctx) (outer : List OpenType) :
    ∀ t : TypeTree, ∃ s : TypeStage, s.complete? = some (outer, t.value) ∧
      Passes (ctx (.start outer)) t.yield (ctx s)
  | .simple n => by
    refine ⟨.named outer n.text, by simp [TypeStage.complete?, TypeTree.value], ?_⟩
    rw [TypeTree.yield]
    exact .cons (hctx _ _ _ rfl) (.nil _)
  | .generic n l args r => by
    obtain ⟨st, ⟨s, before, last, rfl, hs, hargs⟩, hpass⟩ :=
      passes_separated (v := TypeTree.value)
        (S := fun args => ctx (.start (⟨n.text, args⟩ :: outer)))
        (E := ArgumentsRead ctx n.text outer)
        (by
          rintro vs st c ⟨s, before, last, rfl, hs, rfl⟩
          exact hctx _ _ _ (step?_of_complete hs).1)
        [] args (passes_types hctx outer n.text args)
    refine ⟨.closed outer (TypeTree.generic n l args r).value, rfl, ?_⟩
    rw [TypeTree.yield, TypeTree.yields_eq, TypeTree.value, TypeTree.valuesOf_eq]
    refine .cons (hctx _ (.named outer n.text) _ rfl) ?_
    refine .cons (hctx _ (.start (⟨n.text, []⟩ :: outer)) _ rfl) ?_
    refine hpass.snoc (hctx _ _ _ ?_)
    rw [List.nil_append] at hargs
    rw [hargs]
    exact (step?_of_complete hs).2

theorem passes_types {ctx : TypeStage → Stage} (hctx : Carries ctx) (outer : List OpenType)
    (name : String) : ∀ ts : Separated TypeTree,
      ts.All (ItemPasses TypeTree.yield TypeTree.value
        (fun args => ctx (.start (⟨name, args⟩ :: outer))) (ArgumentsRead ctx name outer))
  | .single t => fun args => by
    obtain ⟨s, hs, hpass⟩ := passes_type hctx (⟨name, args⟩ :: outer) t
    exact ⟨ctx s, ⟨s, args, t.value, rfl, hs, rfl⟩, hpass⟩
  | .more ts c t => by
    refine ⟨passes_types hctx outer name ts, fun args => ?_⟩
    obtain ⟨s, hs, hpass⟩ := passes_type hctx (⟨name, args⟩ :: outer) t
    exact ⟨ctx s, ⟨s, args, t.value, rfl, hs, rfl⟩, hpass⟩

end

/-! ## Attributes -/

/-- The values of an option are read from where another value must come. The first one is read
from another stage, which takes a name in the same way. -/
theorem passes_names (attr : OpenAttribute) (name : String) (line : Int) (vs : List String)
    (names : Separated Name) :
    Passes (.valueNext attr name line vs) (names.yield fun n => [n.token])
      (.valueRead attr name line (vs ++ names.values Name.text)) := by
  obtain ⟨st, rfl, hpass⟩ := passes_separated (v := Name.text)
    (S := .valueNext attr name line) (E := fun vs st => st = .valueRead attr name line vs)
    (by rintro vs st c rfl; rfl) vs names
    (Separated.all_of_forall
      (fun n vs => ⟨_, rfl, show Passes _ [n.token] _ from .cons rfl (.nil _)⟩) names)
  exact hpass

/-- The attribute at hand with these options. -/
def withOptions (attr : OpenAttribute) (options : List AttributeOption) : OpenAttribute :=
  { attr with options }

theorem passes_option (attr : OpenAttribute) (o : OptionTree) :
    Passes (.option attr) o.yield (.optionRead (attr.push o.value)) := by
  cases o with
  | full n e l names r =>
    obtain ⟨m, ts, hm⟩ := Separated.yield_name (y := fun n : Name => [n.token])
      (fun n => ⟨n, [], rfl⟩) names
    -- behind the bracket a first value may come, or none; a name is taken as everywhere else
    have hnames : Passes (.valuesOpen attr n.text n.line) (names.yield fun n => [n.token])
        (.valueRead attr n.text n.line (names.values Name.text)) := by
      have hpass := passes_names attr n.text n.line [] names
      rw [hm] at hpass ⊢
      exact .of_step?_eq rfl rfl hpass
    refine .cons rfl ?_
    refine .cons rfl ?_
    refine .cons rfl ?_
    exact hnames.snoc rfl
  | empty n e l r =>
    refine .cons rfl ?_
    refine .cons rfl ?_
    refine .cons rfl ?_
    exact .cons rfl (.nil _)

theorem passes_options (attr : OpenAttribute) (os : List AttributeOption)
    (options : Separated OptionTree) :
    Passes (.option (withOptions attr os)) (options.yield OptionTree.yield)
      (.optionRead (withOptions attr (os ++ options.values OptionTree.value))) := by
  obtain ⟨st, rfl, hpass⟩ := passes_separated (v := OptionTree.value)
    (S := fun os => .option (withOptions attr os))
    (E := fun os st => st = .optionRead (withOptions attr os))
    (by rintro vs st c rfl; rfl) os options
    (Separated.all_of_forall
      (fun o os => ⟨_, rfl, passes_option (withOptions attr os) o⟩) options)
  exact hpass

/-- Where an attribute list may be closed: behind a bare name, or behind the options. -/
inductive AttributesRead : List Attribute → Stage → Prop where
  | bare (before : List Attribute) (name : String) (line : Int) :
      AttributesRead (before ++ [{ name, line, options := none }])
        (.attributeNamed before name line)
  | applied (attributes : List Attribute) : AttributesRead attributes (.attributeRead attributes)

theorem passes_attribute (before : List Attribute) (a : AttributeTree) :
    ∃ st, AttributesRead (before ++ [a.value]) st ∧ Passes (.attributeStart before) a.yield st := by
  cases a with
  | bare n => exact ⟨_, .bare before n.text n.line, .cons rfl (.nil _)⟩
  | applied n l options r =>
    have hpass := passes_options { before, name := n.text, line := n.line, options := [] } []
      options
    refine ⟨_, .applied _, ?_⟩
    refine .cons rfl ?_
    exact .cons rfl (hpass.snoc rfl)

theorem passes_attributes (as : AttributesTree) :
    Passes .ready as.yield (.attributed as.values) := by
  obtain ⟨st, hst, hpass⟩ := passes_separated (v := AttributeTree.value) (S := .attributeStart)
    (E := AttributesRead)
    (by rintro vs st c (⟨before, name, line⟩ | ⟨attributes⟩) <;> rfl) [] as.attributes
    (Separated.all_of_forall (fun a before => passes_attribute before a) as.attributes)
  have close : st.step? (mark .rbracket as.rbracket) = some (.attributed as.values) := by
    rw [List.nil_append] at hst
    rw [AttributesTree.values]
    generalize as.attributes.values AttributeTree.value = attributes at hst
    cases hst <;> rfl
  exact .cons rfl (.cons rfl (hpass.snoc close))

/-! ## Signatures -/

/-- The signature at hand with these parameters. -/
def withParameters (sig : Signature) (parameters : List Parameter) : Signature :=
  { sig with parameters }

/-- Where a parameter list may be closed: the type of its last parameter is complete. -/
inductive ParametersRead (sig : Signature) : List Parameter → Stage → Prop where
  | read (before : List Parameter) (name : String) (s : TypeStage) (t : TypeExpr) :
      s.complete? = some ([], t) →
      ParametersRead sig (before ++ [{ name, type := t }])
        (.parameterType (withParameters sig before) name s)

/-- A type that is complete and inside no bracket takes neither a comma nor a parenthesis. -/
theorem step?_of_complete_nil {s : TypeStage} {t : TypeExpr} (h : s.complete? = some ([], t)) :
    s.step? (.mark .comma) = none ∧ s.step? (.mark .rparen) = none ∧ s.result? = some t := by
  cases s with
  | start outer => simp [TypeStage.complete?] at h
  | named outer name =>
    simp only [TypeStage.step?, TypeStage.continue?, TypeStage.result?, h, and_self]
  | closed outer type =>
    simp only [TypeStage.step?, TypeStage.continue?, TypeStage.result?, h, and_self]

theorem ParametersRead.close {sig : Signature} {ps : List Parameter} {st : Stage}
    (h : ParametersRead sig ps st) (p : Position) :
    st.step? (mark .comma p) = some (.parameters (withParameters sig ps)) ∧
      st.step? (mark .rparen p) = some (.signed (withParameters sig ps)) := by
  obtain ⟨before, name, s, t, hs⟩ := h
  obtain ⟨hc, hp, hr⟩ := step?_of_complete_nil hs
  simp only [Stage.step?, mark, hc, hp, hr]
  exact ⟨rfl, rfl⟩

theorem passes_parameter (sig : Signature) (p : ParameterTree) (before : List Parameter) :
    ∃ st, ParametersRead sig (before ++ [p.value]) st ∧
      Passes (.parameters (withParameters sig before)) p.yield st := by
  obtain ⟨s, hs, hpass⟩ := passes_type
    (carries_parameterType (withParameters sig before) p.name.text) [] p.type
  exact ⟨_, .read before p.name.text s p.type.value hs, .cons rfl (.cons rfl hpass)⟩

/-- The parameters are read up to the closing parenthesis, with or without a trailing comma. -/
theorem passes_parameters (head : Head) (ps : ParametersTree) (p : Position) :
    Passes (.parameters { head, parameters := [] }) (ps.yield ++ [mark .rparen p])
      (.signed { head, parameters := ps.values }) := by
  have hlist : ∀ ps : Separated ParameterTree, ∃ st,
      ParametersRead { head, parameters := [] } (ps.values ParameterTree.value) st ∧
        Passes (.parameters { head, parameters := [] }) (ps.yield ParameterTree.yield) st := by
    intro ps
    exact passes_separated (v := ParameterTree.value)
      (S := fun ps => .parameters (withParameters { head, parameters := [] } ps))
      (E := ParametersRead { head, parameters := [] })
      (fun vs st c h => (h.close c).1) [] ps
      (Separated.all_of_forall (passes_parameter _) ps)
  cases ps with
  | list ps =>
    obtain ⟨st, hst, hpass⟩ := hlist ps
    exact hpass.snoc (hst.close p).2
  | listComma ps c =>
    obtain ⟨st, hst, hpass⟩ := hlist ps
    exact (hpass.snoc (hst.close c).1).snoc rfl
  | empty => exact .cons rfl (.nil _)

/-- Where the outputs may be closed: the last type is complete. -/
inductive OutputsRead (sig : Signature) : List TypeExpr → Stage → Prop where
  | read (before : List TypeExpr) (s : TypeStage) (t : TypeExpr) :
      s.complete? = some ([], t) → OutputsRead sig (before ++ [t]) (.outputType sig before s)

theorem OutputsRead.close {sig : Signature} {ts : List TypeExpr} {st : Stage}
    (h : OutputsRead sig ts st) (p : Position) :
    st.step? (mark .comma p) = some (.outputNext sig ts) ∧
      st.step? (mark .rparen p) = some (.outputsRead sig ts) := by
  obtain ⟨before, s, t, hs⟩ := h
  obtain ⟨hc, hp, hr⟩ := step?_of_complete_nil hs
  simp only [Stage.step?, mark, hc, hp, hr, and_self]

theorem passes_output (sig : Signature) (t : TypeTree) (before : List TypeExpr) :
    ∃ st, OutputsRead sig (before ++ [t.value]) st ∧
      Passes (.outputNext sig before) t.yield st := by
  obtain ⟨s, hs, hpass⟩ := passes_type (carries_outputType sig before) [] t
  refine ⟨_, .read before s t.value hs, ?_⟩
  obtain ⟨n, ts, hn⟩ := t.yield_name
  rw [hn] at hpass ⊢
  exact .of_step?_eq rfl rfl hpass

theorem passes_types_outputs (sig : Signature) (types : Separated TypeTree) :
    ∃ st, OutputsRead sig (types.values TypeTree.value) st ∧
      Passes (.outputType sig [] (.start [])) (types.yield TypeTree.yield) st := by
  obtain ⟨st, hst, hpass⟩ := passes_separated (v := TypeTree.value) (S := .outputNext sig)
    (E := OutputsRead sig) (fun vs st c h => (h.close c).1) [] types
    (Separated.all_of_forall (passes_output sig) types)
  refine ⟨st, hst, ?_⟩
  obtain ⟨n, ts, hn⟩ := Separated.yield_name TypeTree.yield_name types
  rw [hn] at hpass ⊢
  exact .of_step?_eq rfl rfl hpass

/-- The outputs are read up to the opening brace, with or without a trailing comma. -/
theorem passes_returns (sig : Signature) (os : ReturnsTree) (p : Position) :
    Passes (.signed sig) (os.yield ++ [mark .lbrace p]) (.braced sig os.values) := by
  cases os with
  | list a l q types q₁ q₂ =>
    obtain ⟨st, hst, hpass⟩ := passes_types_outputs sig types
    have htail : Passes st [mark .rparen q₁, mark .rbracket q₂, mark .lbrace p]
        (.braced sig (types.values TypeTree.value)) :=
      .cons (hst.close q₁).2 (.cons rfl (.cons rfl (.nil _)))
    rw [ReturnsTree.yield, List.cons_append, List.cons_append, List.cons_append,
      List.append_assoc]
    exact .cons rfl (.cons rfl (.cons rfl (hpass.append htail)))
  | listComma a l q types c q₁ q₂ =>
    obtain ⟨st, hst, hpass⟩ := passes_types_outputs sig types
    have htail : Passes st
        [mark .comma c, mark .rparen q₁, mark .rbracket q₂, mark .lbrace p]
        (.braced sig (types.values TypeTree.value)) :=
      .cons (hst.close c).1 (.cons rfl (.cons rfl (.cons rfl (.nil _))))
    rw [ReturnsTree.yield, List.cons_append, List.cons_append, List.cons_append,
      List.append_assoc]
    exact .cons rfl (.cons rfl (.cons rfl (hpass.append htail)))
  | empty => exact .cons rfl (.nil _)

/-! ## Books -/

/-- From a stage that takes the name of a query, a signature is read to its end. -/
theorem run_signature (s : SignatureTree) {stage : Stage} {attributes : List Attribute}
    (h : stage.step? s.name.token =
      some (.named { attributes, name := s.name.text, line := s.name.line }))
    (done : List Declaration) (rest : List Token) :
    State.run ⟨done, stage⟩ (s.yield ++ rest) =
      State.run ⟨done ++ [s.declare attributes], .ready⟩ rest := by
  let head : Head := { attributes, name := s.name.text, line := s.name.line }
  have hhead : Passes stage [s.name.token, mark .lparen s.lparen]
      (.parameters { head, parameters := [] }) := .cons h (.cons rfl (.nil _))
  have hparams := passes_parameters head s.parameters s.rparen
  have hreturns := passes_returns { head, parameters := s.parameters.values } s.returns s.lbrace
  have hyield : s.yield ++ rest = [s.name.token, mark .lparen s.lparen] ++
      ((s.parameters.yield ++ [mark .rparen s.rparen]) ++
        ((s.returns.yield ++ [mark .lbrace s.lbrace]) ++
          s.statement.token :: mark .rbrace s.rbrace :: rest)) := by
    simp [SignatureTree.yield]
  rw [hyield, hhead, hparams, hreturns]
  rfl

theorem run_declaration (d : DeclarationTree) (done : List Declaration) (rest : List Token) :
    State.run ⟨done, .ready⟩ (d.yield ++ rest) = State.run ⟨done ++ [d.value], .ready⟩ rest := by
  cases d with
  | attributed as s =>
    rw [DeclarationTree.yield, List.append_assoc, passes_attributes as done]
    exact run_signature s rfl done rest
  | bare s => exact run_signature s rfl done rest

theorem run_declarations (ds : DeclarationsTree) (done : List Declaration) (rest : List Token) :
    State.run ⟨done, .ready⟩ (ds.yield ++ rest) = State.run ⟨done ++ ds.values, .ready⟩ rest := by
  induction ds generalizing rest with
  | single d => exact run_declaration d done rest
  | more ds d ih =>
    rw [DeclarationsTree.yield, List.append_assoc, ih, run_declaration, DeclarationsTree.values,
      List.append_assoc]

/-- **Every derivation is read, to the declarations it stands for.** -/
theorem run_unit (u : UnitTree) :
    State.run State.start u.yield = .ok { done := u.values, stage := .ready } := by
  cases u with
  | list ds =>
    have h := run_declarations ds [] []
    rw [List.append_nil, List.nil_append] at h
    exact h
  | empty => rfl

end Grammar

end QueryBook
