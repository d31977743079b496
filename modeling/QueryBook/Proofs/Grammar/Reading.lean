import QueryBook.Proofs.Grammar.Accepted
import Mathlib.Data.List.Basic

/-!
# Whatever is read has a derivation

For every stage of the machine `Reads` says which tokens of the declaration at hand lead there:
the tokens of the trees that are finished, and the tokens of the productions that are still open.
Each token that a stage takes carries `Reads` along, so an accepted sequence is the yield of a
tree, and the declarations that come out are the ones the tree stands for.

With `run_unit` and `UnitTree.yield_injective` this makes the machine the parser of the grammar:
`readAll_iff_derivation`.
-/

namespace QueryBook

namespace Grammar

open Reader

theorem eq_name_of_lexeme {t : Token} {text : String} (h : t.lexeme = .identifier text) :
    t = (Name.mk text t.position).token := by
  obtain ⟨lexeme, position⟩ := t
  rw [show lexeme = _ from h]; rfl

theorem eq_mark_of_lexeme {t : Token} {m : Mark} (h : t.lexeme = .mark m) :
    t = mark m t.position := by
  obtain ⟨lexeme, position⟩ := t
  rw [show lexeme = _ from h]; rfl

/-- A token is a name, a literal or a mark. -/
theorem token_cases (t : Token) :
    (∃ n : Name, t = n.token) ∨ (∃ l : Literal, t = l.token) ∨ ∃ m p, t = mark m p := by
  obtain ⟨lexeme, position⟩ := t
  cases lexeme with
  | identifier name => exact .inl ⟨⟨name, position⟩, rfl⟩
  | string text => exact .inr (.inl ⟨⟨text, position⟩, rfl⟩)
  | mark m => exact .inr (.inr ⟨m, position, rfl⟩)

/-! ## What has been read of a list -/

/-- What has been read of a list when another item must come: nothing, or some items and a comma. -/
inductive Begun {α β : Type} (y : α → List Token) (v : α → β) : List β → List Token → Prop where
  | nil : Begun y v [] []
  | comma (as : Separated α) (c : Position) :
      Begun y v (as.values v) (as.yield y ++ [mark .comma c])

/-- One more item makes it a list. -/
theorem Begun.push {α β : Type} {y : α → List Token} {v : α → β} {vs : List β}
    {ts : List Token} (h : Begun y v vs ts) (a : α) :
    ∃ as : Separated α, as.values v = vs ++ [v a] ∧ as.yield y = ts ++ y a := by
  cases h with
  | nil => exact ⟨.single a, rfl, rfl⟩
  | comma as c => exact ⟨.more as c a, rfl, by simp [Separated.yield]⟩

/-! ## What has been read of a type -/

/-- The tokens of the types whose brackets are open, the innermost first in the stack and last in
the text. -/
inductive OpenTypes : List OpenType → List Token → Prop where
  | nil : OpenTypes [] []
  | cons {outer : List OpenType} {args : List TypeExpr} {ts us : List Token} (n : Name)
      (l : Position) : OpenTypes outer ts → Begun TypeTree.yield TypeTree.value args us →
      OpenTypes (⟨n.text, args⟩ :: outer) (ts ++ n.token :: mark .lbracket l :: us)

/-- The tokens that lead to a type stage. -/
inductive ReadsType : TypeStage → List Token → Prop where
  | start {outer : List OpenType} {ts : List Token} : OpenTypes outer ts →
      ReadsType (.start outer) ts
  | named {outer : List OpenType} {ts : List Token} (n : Name) : OpenTypes outer ts →
      ReadsType (.named outer n.text) (ts ++ [n.token])
  | closed {outer : List OpenType} {ts : List Token} (t : TypeTree) : OpenTypes outer ts →
      ReadsType (.closed outer t.value) (ts ++ t.yield)

/-- A type that is complete has its tree. -/
theorem ReadsType.complete {s : TypeStage} {ts : List Token} (h : ReadsType s ts)
    {outer : List OpenType} {type : TypeExpr} (hc : s.complete? = some (outer, type)) :
    ∃ (us : List Token) (t : TypeTree), OpenTypes outer us ∧ t.value = type ∧
      ts = us ++ t.yield := by
  cases h with
  | start ho => simp [TypeStage.complete?] at hc
  | named n ho =>
    simp only [TypeStage.complete?, Option.some.injEq, Prod.mk.injEq] at hc
    obtain ⟨rfl, rfl⟩ := hc
    exact ⟨_, .simple n, ho, by rw [TypeTree.value], by rw [TypeTree.yield]⟩
  | closed t ho =>
    simp only [TypeStage.complete?, Option.some.injEq, Prod.mk.injEq] at hc
    obtain ⟨rfl, rfl⟩ := hc
    exact ⟨_, t, ho, rfl, rfl⟩

theorem ReadsType.continue {s s' : TypeStage} {ts : List Token} {m : Mark}
    (h : ReadsType s ts) (hs : s.continue? m = some s') (p : Position) :
    ReadsType s' (ts ++ [mark m p]) := by
  unfold TypeStage.continue? at hs
  split at hs
  · rename_i o outer type hc
    obtain ⟨us, t, ho, rfl, rfl⟩ := h.complete hc
    cases ho with
    | @cons _ args ts' us' n l ho hb =>
      injection hs with hs
      subst hs
      obtain ⟨as, hvalues, hyield⟩ := hb.push t
      have hopen := OpenTypes.cons n l ho (.comma as p)
      rw [hvalues, hyield] at hopen
      simpa using ReadsType.start hopen
  · rename_i o outer type hc
    obtain ⟨us, t, ho, rfl, rfl⟩ := h.complete hc
    cases ho with
    | @cons _ args ts' us' n l ho hb =>
      injection hs with hs
      subst hs
      obtain ⟨as, hvalues, hyield⟩ := hb.push t
      have hclosed := ReadsType.closed (.generic n l as p) ho
      rw [TypeTree.value, TypeTree.valuesOf_eq, hvalues, TypeTree.yield, TypeTree.yields_eq,
        hyield] at hclosed
      simpa using hclosed
  · simp at hs

/-- **Each token of a type carries `ReadsType` along.** -/
theorem ReadsType.step {s s' : TypeStage} {ts : List Token} {token : Token}
    (h : ReadsType s ts) (hs : s.step? token.lexeme = some s') :
    ReadsType s' (ts ++ [token]) := by
  unfold TypeStage.step? at hs
  split at hs
  · rename_i outer name hl
    injection hs with hs
    subst hs
    cases h with
    | start ho =>
      rw [eq_name_of_lexeme hl]
      exact .named ⟨name, token.position⟩ ho
  · rename_i outer name hl
    injection hs with hs
    subst hs
    cases h with
    | named n ho =>
      rw [eq_mark_of_lexeme hl]
      have hopen := OpenTypes.cons n token.position ho .nil
      simpa using ReadsType.start hopen
  · rename_i m _ hl
    rw [eq_mark_of_lexeme hl]
    exact h.continue hs _
  · simp at hs

/-- A whole type has its tree. -/
theorem ReadsType.result {s : TypeStage} {ts : List Token} {type : TypeExpr}
    (h : ReadsType s ts) (hr : s.result? = some type) :
    ∃ t : TypeTree, t.value = type ∧ ts = t.yield := by
  unfold TypeStage.result? at hr
  split at hr
  · rename_i type' hc
    injection hr with hr
    subst hr
    obtain ⟨us, t, ho, ht, rfl⟩ := h.complete hc
    cases ho with
    | nil => exact ⟨t, ht, rfl⟩
  · simp at hr

/-! ## What has been read of the attributes -/

/-- `#[` and the attributes before one that must come. -/
inductive AttributesBegun : List Attribute → List Token → Prop where
  | mk {before : List Attribute} {ts : List Token} (h l : Position) :
      Begun AttributeTree.yield AttributeTree.value before ts →
      AttributesBegun before (mark .hash h :: mark .lbracket l :: ts)

/-- `#[` and the attributes up to the last one read. -/
inductive AttributeList : List Attribute → List Token → Prop where
  | mk (h l : Position) (as : Separated AttributeTree) :
      AttributeList (as.values AttributeTree.value)
        (mark .hash h :: mark .lbracket l :: as.yield AttributeTree.yield)

theorem AttributesBegun.push {before : List Attribute} {ts : List Token}
    (hb : AttributesBegun before ts) (a : AttributeTree) :
    AttributeList (before ++ [a.value]) (ts ++ a.yield) := by
  obtain ⟨h, l, hb⟩ := hb
  obtain ⟨as, hvalues, hyield⟩ := hb.push a
  rw [← hvalues, List.cons_append, List.cons_append, ← hyield]
  exact .mk h l as

theorem AttributeList.comma {attributes : List Attribute} {ts : List Token}
    (hl : AttributeList attributes ts) (c : Position) :
    AttributesBegun attributes (ts ++ [mark .comma c]) := by
  obtain ⟨h, l, as⟩ := hl
  exact .mk h l (.comma as c)

theorem AttributeList.close {attributes : List Attribute} {ts : List Token}
    (hl : AttributeList attributes ts) (r : Position) :
    ∃ as : AttributesTree, as.values = attributes ∧ as.yield = ts ++ [mark .rbracket r] := by
  obtain ⟨h, l, as⟩ := hl
  exact ⟨⟨h, l, as, r⟩, rfl, rfl⟩

/-- An attribute with an open parenthesis, and its options before one that must come. -/
inductive OptionsBegun : OpenAttribute → List Token → Prop where
  | mk {before : List Attribute} {options : List AttributeOption} {ts us : List Token} (n : Name)
      (l : Position) : AttributesBegun before ts →
      Begun OptionTree.yield OptionTree.value options us →
      OptionsBegun { before, name := n.text, line := n.line, options }
        (ts ++ n.token :: mark .lparen l :: us)

/-- An attribute with an open parenthesis, and its options up to the last one read. -/
inductive OptionList : OpenAttribute → List Token → Prop where
  | mk {before : List Attribute} {ts : List Token} (n : Name) (l : Position)
      (os : Separated OptionTree) : AttributesBegun before ts →
      OptionList
        { before, name := n.text, line := n.line, options := os.values OptionTree.value }
        (ts ++ n.token :: mark .lparen l :: os.yield OptionTree.yield)

theorem OptionsBegun.push {attr : OpenAttribute} {ts : List Token} (hb : OptionsBegun attr ts)
    (o : OptionTree) : OptionList (attr.push o.value) (ts ++ o.yield) := by
  obtain ⟨n, l, ha, hb⟩ := hb
  obtain ⟨os, hvalues, hyield⟩ := hb.push o
  have hlist := OptionList.mk n l os ha
  rw [hvalues, hyield] at hlist
  simpa [OpenAttribute.push] using hlist

theorem OptionList.comma {attr : OpenAttribute} {ts : List Token} (hl : OptionList attr ts)
    (c : Position) : OptionsBegun attr (ts ++ [mark .comma c]) := by
  obtain ⟨n, l, os, ha⟩ := hl
  simpa using OptionsBegun.mk n l ha (.comma os c)

theorem OptionList.close {attr : OpenAttribute} {ts : List Token} (hl : OptionList attr ts)
    (r : Position) : AttributeList attr.close (ts ++ [mark .rparen r]) := by
  obtain ⟨n, l, os, ha⟩ := hl
  simpa [AttributeTree.yield, AttributeTree.value, OpenAttribute.close] using
    ha.push (.applied n l os r)

/-- An option up to the bracket that opens its values. -/
inductive OptionOpen : OpenAttribute → String → Int → List Token → Prop where
  | mk {attr : OpenAttribute} {ts : List Token} (n : Name) (e l : Position) :
      OptionsBegun attr ts →
      OptionOpen attr n.text n.line (ts ++ [n.token, mark .equals e, mark .lbracket l])

theorem OptionOpen.close {attr : OpenAttribute} {name : String} {line : Int} {ts : List Token}
    (ho : OptionOpen attr name line ts) (r : Position) :
    OptionList (attr.push { name, values := [], line }) (ts ++ [mark .rbracket r]) := by
  obtain ⟨n, e, l, hb⟩ := ho
  simpa [OptionTree.yield, OptionTree.value] using hb.push (.empty n e l r)

theorem OptionOpen.closeNames {attr : OpenAttribute} {name : String} {line : Int}
    {ts : List Token} (ho : OptionOpen attr name line ts) (names : Separated Name)
    (r : Position) :
    OptionList (attr.push { name, values := names.values Name.text, line })
      (ts ++ names.yield (fun n => [n.token]) ++ [mark .rbracket r]) := by
  obtain ⟨n, e, l, hb⟩ := ho
  simpa [OptionTree.yield, OptionTree.value] using hb.push (.full n e l names r)

/-! ## What has been read of the signature -/

/-- The attributes and the name of a query. -/
inductive HeadRead : Head → List Token → Prop where
  | attributed (as : AttributesTree) (n : Name) :
      HeadRead { attributes := as.values, name := n.text, line := n.line } (as.yield ++ [n.token])
  | bare (n : Name) : HeadRead { attributes := [], name := n.text, line := n.line } [n.token]

/-- A query with an open parenthesis, and its parameters before one that may come. -/
inductive ParametersBegun : Signature → List Token → Prop where
  | mk {head : Head} {ps : List Parameter} {ts us : List Token} (l : Position) :
      HeadRead head ts → Begun ParameterTree.yield ParameterTree.value ps us →
      ParametersBegun { head, parameters := ps } (ts ++ mark .lparen l :: us)

/-- A query up to the parenthesis that closes its parameters. -/
inductive SignatureRead : Signature → List Token → Prop where
  | mk {head : Head} {ts : List Token} (l : Position) (ps : ParametersTree) (r : Position) :
      HeadRead head ts →
      SignatureRead { head, parameters := ps.values }
        (ts ++ mark .lparen l :: (ps.yield ++ [mark .rparen r]))

/-- A parenthesis closes the parameters where another one may come: there was none, or the last
was followed by a comma. -/
theorem ParametersBegun.close {sig : Signature} {ts : List Token} (hb : ParametersBegun sig ts)
    (r : Position) : SignatureRead sig (ts ++ [mark .rparen r]) := by
  obtain ⟨l, hh, hb⟩ := hb
  cases hb with
  | nil =>
    simpa [ParametersTree.yield, ParametersTree.values] using SignatureRead.mk l .empty r hh
  | comma ps c =>
    simpa [ParametersTree.yield, ParametersTree.values] using
      SignatureRead.mk l (.listComma ps c) r hh

theorem ParametersBegun.closeWith {sig : Signature} {ts : List Token}
    (hb : ParametersBegun sig ts) (p : ParameterTree) (r : Position) :
    SignatureRead (sig.push p.value) (ts ++ p.yield ++ [mark .rparen r]) := by
  obtain ⟨l, hh, hb⟩ := hb
  obtain ⟨ps, hvalues, hyield⟩ := hb.push p
  have hsig := SignatureRead.mk l (.list ps) r hh
  rw [ParametersTree.values, ParametersTree.yield, hvalues, hyield] at hsig
  simpa [Signature.push] using hsig

theorem ParametersBegun.comma {sig : Signature} {ts : List Token} (hb : ParametersBegun sig ts)
    (p : ParameterTree) (c : Position) :
    ParametersBegun (sig.push p.value) (ts ++ p.yield ++ [mark .comma c]) := by
  obtain ⟨l, hh, hb⟩ := hb
  obtain ⟨ps, hvalues, hyield⟩ := hb.push p
  have hbegun := ParametersBegun.mk l hh (.comma ps c)
  rw [hvalues, hyield] at hbegun
  simpa [Signature.push] using hbegun

/-- A signature with its outputs open, and the outputs before one that must come. -/
inductive OutputsBegun : Signature → List TypeExpr → List Token → Prop where
  | mk {sig : Signature} {outputs : List TypeExpr} {ts us : List Token} (a l p : Position) :
      SignatureRead sig ts → Begun TypeTree.yield TypeTree.value outputs us →
      OutputsBegun sig outputs (ts ++ mark .arrow a :: mark .lbracket l :: mark .lparen p :: us)

/-- A signature with its outputs open, and the outputs up to the last one read. -/
inductive OutputList : Signature → List TypeExpr → List Token → Prop where
  | mk {sig : Signature} {ts : List Token} (a l p : Position) (types : Separated TypeTree) :
      SignatureRead sig ts →
      OutputList sig (types.values TypeTree.value)
        (ts ++ mark .arrow a :: mark .lbracket l :: mark .lparen p :: types.yield TypeTree.yield)

/-- A signature up to the parenthesis that closes its outputs; a bracket completes them. -/
inductive OutputsClosed : Signature → List TypeExpr → List Token → Prop where
  | mk {sig : Signature} {outputs : List TypeExpr} {ts us : List Token} : SignatureRead sig ts →
      (∀ r, ∃ os : ReturnsTree, os.values = outputs ∧ os.yield = us ++ [mark .rbracket r]) →
      OutputsClosed sig outputs (ts ++ us)

theorem OutputsBegun.push {sig : Signature} {outputs : List TypeExpr} {ts : List Token}
    (hb : OutputsBegun sig outputs ts) (t : TypeTree) :
    OutputList sig (outputs ++ [t.value]) (ts ++ t.yield) := by
  obtain ⟨a, l, p, hs, hb⟩ := hb
  obtain ⟨types, hvalues, hyield⟩ := hb.push t
  have hlist := OutputList.mk a l p types hs
  rw [hvalues, hyield] at hlist
  simpa using hlist

theorem OutputList.comma {sig : Signature} {outputs : List TypeExpr} {ts : List Token}
    (hl : OutputList sig outputs ts) (c : Position) :
    OutputsBegun sig outputs (ts ++ [mark .comma c]) := by
  obtain ⟨a, l, p, types, hs⟩ := hl
  simpa using OutputsBegun.mk a l p hs (.comma types c)

theorem OutputList.close {sig : Signature} {outputs : List TypeExpr} {ts : List Token}
    (hl : OutputList sig outputs ts) (q : Position) :
    OutputsClosed sig outputs (ts ++ [mark .rparen q]) := by
  obtain ⟨a, l, p, types, hs⟩ := hl
  rw [List.append_assoc]
  refine .mk hs fun r => ⟨.list a l p types q r, rfl, ?_⟩
  simp [ReturnsTree.yield]

theorem OutputList.closeComma {sig : Signature} {outputs : List TypeExpr} {ts : List Token}
    (hl : OutputList sig outputs ts) (c q : Position) :
    OutputsClosed sig outputs (ts ++ [mark .comma c] ++ [mark .rparen q]) := by
  obtain ⟨a, l, p, types, hs⟩ := hl
  rw [List.append_assoc, List.append_assoc]
  refine .mk hs fun r => ⟨.listComma a l p types c q r, rfl, ?_⟩
  simp [ReturnsTree.yield]

/-! ## What has been read of a declaration -/

/-- The tokens of the declaration at hand that lead to a stage. -/
inductive Reads : Stage → List Token → Prop where
  | ready : Reads .ready []
  | hash (h : Position) : Reads .hash [mark .hash h]
  | attributeStart {before : List Attribute} {ts : List Token} :
      AttributesBegun before ts → Reads (.attributeStart before) ts
  | attributeNamed {before : List Attribute} {ts : List Token} (n : Name) :
      AttributesBegun before ts → Reads (.attributeNamed before n.text n.line) (ts ++ [n.token])
  | option {attr : OpenAttribute} {ts : List Token} :
      OptionsBegun attr ts → Reads (.option attr) ts
  | optionNamed {attr : OpenAttribute} {ts : List Token} (n : Name) :
      OptionsBegun attr ts → Reads (.optionNamed attr n.text n.line) (ts ++ [n.token])
  | optionEquals {attr : OpenAttribute} {ts : List Token} (n : Name) (e : Position) :
      OptionsBegun attr ts →
      Reads (.optionEquals attr n.text n.line) (ts ++ [n.token, mark .equals e])
  | valuesOpen {attr : OpenAttribute} {name : String} {line : Int} {ts : List Token} :
      OptionOpen attr name line ts → Reads (.valuesOpen attr name line) ts
  | valueRead {attr : OpenAttribute} {name : String} {line : Int} {ts : List Token}
      (names : Separated Name) : OptionOpen attr name line ts →
      Reads (.valueRead attr name line (names.values Name.text))
        (ts ++ names.yield fun n => [n.token])
  | valueNext {attr : OpenAttribute} {name : String} {line : Int} {ts : List Token}
      (names : Separated Name) (c : Position) : OptionOpen attr name line ts →
      Reads (.valueNext attr name line (names.values Name.text))
        (ts ++ (names.yield fun n => [n.token]) ++ [mark .comma c])
  | optionRead {attr : OpenAttribute} {ts : List Token} :
      OptionList attr ts → Reads (.optionRead attr) ts
  | attributeRead {attributes : List Attribute} {ts : List Token} :
      AttributeList attributes ts → Reads (.attributeRead attributes) ts
  | attributed (as : AttributesTree) : Reads (.attributed as.values) as.yield
  | named {head : Head} {ts : List Token} : HeadRead head ts → Reads (.named head) ts
  | parameters {sig : Signature} {ts : List Token} :
      ParametersBegun sig ts → Reads (.parameters sig) ts
  | parameterNamed {sig : Signature} {ts : List Token} (n : Name) :
      ParametersBegun sig ts → Reads (.parameterNamed sig n.text) (ts ++ [n.token])
  | parameterType {sig : Signature} {ts us : List Token} {s : TypeStage} (n : Name)
      (c : Position) : ParametersBegun sig ts → ReadsType s us →
      Reads (.parameterType sig n.text s) (ts ++ n.token :: mark .colon c :: us)
  | signed {sig : Signature} {ts : List Token} : SignatureRead sig ts → Reads (.signed sig) ts
  | arrow {sig : Signature} {ts : List Token} (a : Position) :
      SignatureRead sig ts → Reads (.arrow sig) (ts ++ [mark .arrow a])
  | outputsOpen {sig : Signature} {ts : List Token} (a l : Position) :
      SignatureRead sig ts → Reads (.outputsOpen sig) (ts ++ [mark .arrow a, mark .lbracket l])
  | outputType {sig : Signature} {outputs : List TypeExpr} {ts us : List Token} {s : TypeStage} :
      OutputsBegun sig outputs ts → ReadsType s us → Reads (.outputType sig outputs s) (ts ++ us)
  | outputNext {sig : Signature} {outputs : List TypeExpr} {ts : List Token} (c : Position) :
      OutputList sig outputs ts → Reads (.outputNext sig outputs) (ts ++ [mark .comma c])
  | outputsRead {sig : Signature} {outputs : List TypeExpr} {ts : List Token} :
      OutputsClosed sig outputs ts → Reads (.outputsRead sig outputs) ts
  | typed {sig : Signature} {ts : List Token} (os : ReturnsTree) :
      SignatureRead sig ts → Reads (.typed sig os.values) (ts ++ os.yield)
  | braced {sig : Signature} {ts : List Token} (os : ReturnsTree) (b : Position) :
      SignatureRead sig ts → Reads (.braced sig os.values) (ts ++ os.yield ++ [mark .lbrace b])
  | stated {sig : Signature} {ts : List Token} (os : ReturnsTree) (b : Position) (s : Literal) :
      SignatureRead sig ts →
      Reads (.stated (sig.declare os.values s.text))
        (ts ++ os.yield ++ [mark .lbrace b] ++ [s.token])

/-- The brace behind the statement completes the declaration. -/
theorem Reads.declaration {d : Declaration} {ts : List Token} (h : Reads (.stated d) ts)
    (r : Position) :
    ∃ t : DeclarationTree, t.value = d ∧ t.yield = ts ++ [mark .rbrace r] := by
  cases h with
  | stated os b s hs =>
    obtain ⟨l, ps, q, hh⟩ := hs
    cases hh with
    | attributed as n =>
      refine ⟨.attributed as ⟨n, l, ps, q, os, b, s, r⟩, rfl, ?_⟩
      simp [DeclarationTree.yield, SignatureTree.yield]
    | bare n =>
      refine ⟨.bare ⟨n, l, ps, q, os, b, s, r⟩, rfl, ?_⟩
      simp [DeclarationTree.yield, SignatureTree.yield]

/-! ## One token more -/

section Step

variable {ts us : List Token} {token : Token} {next : Stage}

theorem Reads.step_parameterType {sig : Signature} {s : TypeStage} {n : Name} {c : Position}
    (hb : ParametersBegun sig ts) (ht : ReadsType s us)
    (hs : (Stage.parameterType sig n.text s).step? token = some next) :
    Reads next (ts ++ n.token :: mark .colon c :: us ++ [token]) := by
  simp only [Stage.step?] at hs
  split at hs
  · rename_i s' hstep
    cases hs
    simpa using Reads.parameterType n c hb (ht.step hstep)
  · -- the token is not of the type, so the type was whole and the parameter ends
    split at hs
    · rename_i type hr hl
      cases hs
      obtain ⟨t, rfl, rfl⟩ := ht.result hr
      rw [eq_mark_of_lexeme hl]
      exact .parameters (hb.comma ⟨n, c, t⟩ _)
    · rename_i type hr hl
      cases hs
      obtain ⟨t, rfl, rfl⟩ := ht.result hr
      rw [eq_mark_of_lexeme hl]
      exact .signed (hb.closeWith ⟨n, c, t⟩ _)
    · cases hs

theorem Reads.step_outputType {sig : Signature} {outputs : List TypeExpr} {s : TypeStage}
    (hb : OutputsBegun sig outputs ts) (ht : ReadsType s us)
    (hs : (Stage.outputType sig outputs s).step? token = some next) :
    Reads next (ts ++ us ++ [token]) := by
  simp only [Stage.step?] at hs
  split at hs
  · rename_i s' hstep
    cases hs
    rw [List.append_assoc]
    exact .outputType hb (ht.step hstep)
  · split at hs
    · rename_i type hr hl
      cases hs
      obtain ⟨t, rfl, rfl⟩ := ht.result hr
      rw [eq_mark_of_lexeme hl]
      exact .outputNext _ (hb.push t)
    · rename_i type hr hl
      cases hs
      obtain ⟨t, rfl, rfl⟩ := ht.result hr
      rw [eq_mark_of_lexeme hl]
      exact .outputsRead ((hb.push t).close _)
    · cases hs

/-- A name carries `Reads` along. -/
theorem Reads.step_name {stage : Stage} (h : Reads stage ts) (n : Name)
    (hs : stage.step? n.token = some next) : Reads next (ts ++ [n.token]) := by
  cases h with
  | ready =>
    cases hs
    exact .named (.bare n)
  | attributeStart hb =>
    cases hs
    exact .attributeNamed n hb
  | option hb =>
    cases hs
    exact .optionNamed n hb
  | valuesOpen ho =>
    cases hs
    exact .valueRead (.single n) ho
  | valueNext names c ho =>
    cases hs
    simpa [Separated.yield, Separated.values] using Reads.valueRead (.more names c n) ho
  | attributed as =>
    cases hs
    exact .named (.attributed as n)
  | parameters hb =>
    cases hs
    exact .parameterNamed n hb
  | parameterType m c hb ht => exact step_parameterType hb ht hs
  | outputType hb ht => exact step_outputType hb ht hs
  | outputNext c ho =>
    cases hs
    exact .outputType (ho.comma c) (.named n .nil)
  | _ => cases hs

/-- A literal carries `Reads` along. Only the statement is one. -/
theorem Reads.step_literal {stage : Stage} (h : Reads stage ts) (l : Literal)
    (hs : stage.step? l.token = some next) : Reads next (ts ++ [l.token]) := by
  cases h with
  | parameterType m c hb ht => exact step_parameterType hb ht hs
  | outputType hb ht => exact step_outputType hb ht hs
  | braced os b hr =>
    cases hs
    exact .stated os b l hr
  | _ => cases hs

/-- A mark carries `Reads` along. -/
theorem Reads.step_mark {stage : Stage} (h : Reads stage ts) (m : Mark) (p : Position)
    (hs : stage.step? (mark m p) = some next) : Reads next (ts ++ [mark m p]) := by
  cases h with
  | ready =>
    cases m
    case hash =>
      cases hs
      exact .hash p
    all_goals cases hs
  | hash h =>
    cases m
    case lbracket =>
      cases hs
      exact .attributeStart (.mk h p .nil)
    all_goals cases hs
  | attributeNamed n hb =>
    cases m
    case lparen =>
      cases hs
      simpa using Reads.option (.mk n p hb .nil)
    case comma =>
      cases hs
      exact .attributeStart ((hb.push (.bare n)).comma p)
    case rbracket =>
      cases hs
      obtain ⟨as, hvalues, hyield⟩ := (hb.push (.bare n)).close p
      rw [AttributeTree.yield] at hyield
      rw [← hyield]
      exact hvalues ▸ .attributed as
    all_goals cases hs
  | optionNamed n hb =>
    cases m
    case equals =>
      cases hs
      simpa using Reads.optionEquals n p hb
    all_goals cases hs
  | optionEquals n e hb =>
    cases m
    case lbracket =>
      cases hs
      simpa using Reads.valuesOpen (.mk n e p hb)
    all_goals cases hs
  | valuesOpen ho =>
    cases m
    case rbracket =>
      cases hs
      exact .optionRead (ho.close p)
    all_goals cases hs
  | valueRead names ho =>
    cases m
    case comma =>
      cases hs
      exact .valueNext names p ho
    case rbracket =>
      cases hs
      exact .optionRead (ho.closeNames names p)
    all_goals cases hs
  | optionRead ho =>
    cases m
    case comma =>
      cases hs
      exact .option (ho.comma p)
    case rparen =>
      cases hs
      exact .attributeRead (ho.close p)
    all_goals cases hs
  | attributeRead ha =>
    cases m
    case comma =>
      cases hs
      exact .attributeStart (ha.comma p)
    case rbracket =>
      cases hs
      obtain ⟨as, rfl, hyield⟩ := ha.close p
      rw [← hyield]
      exact .attributed as
    all_goals cases hs
  | named hh =>
    cases m
    case lparen =>
      cases hs
      exact .parameters (.mk p hh .nil)
    all_goals cases hs
  | parameters hb =>
    cases m
    case rparen =>
      cases hs
      exact .signed (hb.close p)
    all_goals cases hs
  | parameterNamed n hb =>
    cases m
    case colon =>
      cases hs
      simpa using Reads.parameterType n p hb (.start .nil)
    all_goals cases hs
  | parameterType n c hb ht => exact step_parameterType hb ht hs
  | signed hr =>
    cases m
    case arrow =>
      cases hs
      exact .arrow p hr
    case lbrace =>
      cases hs
      simpa [ReturnsTree.values, ReturnsTree.yield] using Reads.braced .empty p hr
    all_goals cases hs
  | arrow a hr =>
    cases m
    case lbracket =>
      cases hs
      simpa using Reads.outputsOpen a p hr
    all_goals cases hs
  | outputsOpen a l hr =>
    cases m
    case lparen =>
      cases hs
      simpa using Reads.outputType (.mk a l p hr .nil) (.start .nil)
    all_goals cases hs
  | outputType hb ht => exact step_outputType hb ht hs
  | outputNext c ho =>
    cases m
    case rparen =>
      cases hs
      exact .outputsRead (ho.closeComma c p)
    all_goals cases hs
  | outputsRead ho =>
    cases m
    case rbracket =>
      cases hs
      obtain ⟨hr, hos⟩ := ho
      obtain ⟨os, rfl, hyield⟩ := hos p
      rw [List.append_assoc, ← hyield]
      exact .typed os hr
    all_goals cases hs
  | typed os hr =>
    cases m
    case lbrace =>
      cases hs
      exact .braced os p hr
    all_goals cases hs
  -- at every other stage a name or a literal must come
  | _ => cases m <;> cases hs

/-- **Each token that a stage takes carries `Reads` along.** -/
theorem Reads.step {stage : Stage} (h : Reads stage ts) (hs : stage.step? token = some next) :
    Reads next (ts ++ [token]) := by
  rcases token_cases token with ⟨n, rfl⟩ | ⟨l, rfl⟩ | ⟨m, p, rfl⟩
  · exact h.step_name n hs
  · exact h.step_literal l hs
  · exact h.step_mark m p hs

end Step

/-! ## Whole books -/

/-- A book with one declaration more. -/
def UnitTree.push : UnitTree → DeclarationTree → UnitTree
  | empty, d => list (.single d)
  | list ds, d => list (.more ds d)

theorem UnitTree.yield_push (u : UnitTree) (d : DeclarationTree) :
    (u.push d).yield = u.yield ++ d.yield := by
  cases u with
  | list ds => rfl
  | empty => rfl

theorem UnitTree.values_push (u : UnitTree) (d : DeclarationTree) :
    (u.push d).values = u.values ++ [d.value] := by
  cases u with
  | list ds => rfl
  | empty => rfl

/-- The tokens that lead to a state: a book of the declarations that are done, and what has been
read of the one at hand. -/
def ReadsState (s : State) (ts : List Token) : Prop :=
  ∃ (u : UnitTree) (us : List Token), u.values = s.done ∧ Reads s.stage us ∧ ts = u.yield ++ us

theorem readsState_start : ReadsState State.start [] := ⟨.empty, [], rfl, .ready, rfl⟩

theorem ReadsState.step {s next : State} {ts : List Token} {token : Token}
    (h : ReadsState s ts) (hs : s.step? token = some next) : ReadsState next (ts ++ [token]) := by
  obtain ⟨u, us, hdone, hreads, rfl⟩ := h
  unfold State.step? at hs
  split at hs
  -- a closing brace ends the declaration at hand and begins a book anew
  · rename_i d hstage hl
    rw [hstage] at hreads
    obtain ⟨t, hvalue, hyield⟩ := hreads.declaration token.position
    injection hs with hs; subst hs
    refine ⟨u.push t, [], ?_, .ready, ?_⟩
    · rw [UnitTree.values_push, hdone, hvalue]
    · rw [UnitTree.yield_push, hyield, ← eq_mark_of_lexeme hl, List.append_nil, List.append_assoc]
  · obtain ⟨stage, hstep, rfl⟩ := Option.map_eq_some_iff.mp hs
    exact ⟨u, us ++ [token], hdone, hreads.step hstep, List.append_assoc _ _ _⟩

/-- **Along every run the tokens read are those of a book, as far as it goes.** -/
theorem ReadsState.run {s s' : State} {ts tokens : List Token} (h : ReadsState s ts)
    (hr : s.run tokens = .ok s') : ReadsState s' (ts ++ tokens) := by
  induction tokens generalizing s ts with
  | nil =>
    rw [State.run] at hr
    injection hr with hr; subst hr
    rwa [List.append_nil]
  | cons token tokens ih =>
    rw [State.run] at hr
    split at hr
    · rename_i next hs
      have hnext := ih (h.step hs) hr
      rwa [List.append_assoc] at hnext
    · simp at hr

/-- Between declarations there is nothing but whole declarations. -/
theorem ReadsState.result {s : State} {ts : List Token} {ds : List Declaration}
    (h : ReadsState s ts) (hr : s.result? = some ds) :
    ∃ u : UnitTree, u.values = ds ∧ u.yield = ts := by
  obtain ⟨u, us, hdone, hreads, rfl⟩ := h
  unfold State.result? at hr
  split at hr
  · rename_i hstage
    injection hr with hr; subst hr
    rw [hstage] at hreads
    cases hreads with
    | ready => exact ⟨u, hdone, (List.append_nil _).symm⟩
  · simp at hr

/-- A text without a fault in its tokens is read by the machine alone. -/
theorem readAll_of_tokenize {text : String} {tokens : List Token}
    (h : Token.tokenize text = .ok tokens) (ds : List Declaration) :
    Declaration.readAll text = .ok ds ↔
      ∃ s, State.run State.start tokens = .ok s ∧ s.result? = some ds := by
  unfold Token.tokenize at h
  simp only at h
  split at h
  · simp at h
  · rename_i hfault
    injection h with h; subst h
    unfold Declaration.readAll
    simp only [hfault]
    cases hrun : State.run State.start (Token.scan text).tokens with
    | error token => simp
    | ok s =>
      simp only [Except.ok.injEq, exists_eq_left']
      cases hres : s.result? with
      | none => simp
      | some ds' => simp

/--
**Reading is parsing.** A text whose tokens are in order is read if and only if they are derived
from the grammar, and what is read is what their one derivation stands for.
-/
theorem readAll_iff_derivation {text : String} {tokens : List Token}
    (h : Token.tokenize text = .ok tokens) :
    ((∃ ds, Declaration.readAll text = .ok ds) ↔ ∃ u : UnitTree, u.yield = tokens) ∧
      ∀ ds, Declaration.readAll text = .ok ds →
        ∃ u : UnitTree, u.yield = tokens ∧ u.values = ds ∧
          ∀ u' : UnitTree, u'.yield = tokens → u' = u := by
  have sound : ∀ ds, Declaration.readAll text = .ok ds →
      ∃ u : UnitTree, u.values = ds ∧ u.yield = tokens := by
    intro ds hread
    obtain ⟨s, hrun, hresult⟩ := (readAll_of_tokenize h ds).mp hread
    exact (readsState_start.run hrun).result hresult
  refine ⟨⟨?_, ?_⟩, ?_⟩
  · rintro ⟨ds, hread⟩
    obtain ⟨u, -, hyield⟩ := sound ds hread
    exact ⟨u, hyield⟩
  · rintro ⟨u, rfl⟩
    exact ⟨u.values, (readAll_of_tokenize h _).mpr ⟨_, run_unit u, rfl⟩⟩
  · intro ds hread
    obtain ⟨u, hvalues, hyield⟩ := sound ds hread
    exact ⟨u, hyield, hvalues, fun u' hu' => UnitTree.yield_injective (hu'.trans hyield.symm)⟩

/-- A book with an empty option, a nested type and both trailing commas. -/
theorem readAll_iff_derivation_nested :
    ∃ tokens, Token.tokenize "#[t(w=[])]\nq(x: A[B],) -> [(T,)] \x7b\"s\"\x7d" = .ok tokens ∧
      ∃ u : UnitTree, u.yield = tokens ∧
        u.values = [
          { name := "q", line := 2
            attributes := [
              { name := "t", line := 1
                options := some [{ name := "w", values := [], line := 1 }] }]
            parameters := [{ name := "x", type := ⟨"A", [⟨"B", []⟩]⟩ }]
            outputs := [⟨"T", []⟩]
            statement := "s" }] ∧
        ∀ u' : UnitTree, u'.yield = tokens → u' = u := by
  have hcut : (Token.tokenize
      "#[t(w=[])]\nq(x: A[B],) -> [(T,)] \x7b\"s\"\x7d").toOption.isSome = true := by
    decide +kernel
  cases h : Token.tokenize "#[t(w=[])]\nq(x: A[B],) -> [(T,)] \x7b\"s\"\x7d" with
  | error e =>
    rw [h] at hcut
    cases hcut
  | ok tokens => exact ⟨tokens, rfl, (readAll_iff_derivation h).2 _ (by decide +kernel)⟩

end Grammar

end QueryBook
