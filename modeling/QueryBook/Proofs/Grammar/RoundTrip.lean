import QueryBook.Proofs.Grammar.Layout

/-!
# What is written is read back

Declarations that are written down by a layout are read back from the text, for every layout. The
text is cut into the words that were written, because of two neighbouring words one is always a
mark. That need not be looked up in the printer: the machine that reads declarations goes on with a
mark after every name and every literal, and it reads the words. Once the text is cut, its tokens
say what the words say, and their derivation stands for the declarations.
-/

namespace QueryBook

namespace Printing

open Grammar Reader

/-! ## Names and literals are followed by marks -/

/-- The stages behind a name or a literal. -/
inductive AfterWord : Stage → Prop where
  | attributeNamed (before : List Attribute) (name : String) (line : Int) :
      AfterWord (.attributeNamed before name line)
  | optionNamed (attr : OpenAttribute) (name : String) (line : Int) :
      AfterWord (.optionNamed attr name line)
  | valueRead (attr : OpenAttribute) (name : String) (line : Int) (values : List String) :
      AfterWord (.valueRead attr name line values)
  | named (head : Head) : AfterWord (.named head)
  | parameterNamed (sig : Signature) (name : String) : AfterWord (.parameterNamed sig name)
  | parameterType (sig : Signature) (parameter : String) (outer : List OpenType) (name : String) :
      AfterWord (.parameterType sig parameter (.named outer name))
  | outputType (sig : Signature) (outputs : List TypeExpr) (outer : List OpenType)
      (name : String) : AfterWord (.outputType sig outputs (.named outer name))
  | stated (d : Declaration) : AfterWord (.stated d)

/-- What is no mark begins a type, and is its name. -/
theorem typeStep_of_not_mark {s s' : TypeStage} {l : Lexeme} (h : s.step? l = some s')
    (hl : ¬ ∃ m, l = .mark m) : ∃ outer name, s = .start outer ∧ s' = .named outer name := by
  cases l with
  | mark m => exact absurd ⟨m, rfl⟩ hl
  | identifier name =>
    cases s with
    | start outer => cases h; exact ⟨outer, name, rfl, rfl⟩
    | _ => cases h
  | string text => cases s <;> cases h

theorem parameterType_step? {sig : Signature} {parameter : String} {type : TypeStage} {t : Token}
    (ht : ¬ ∃ m, t.lexeme = .mark m) : (Stage.parameterType sig parameter type).step? t =
      (type.step? t.lexeme).map (.parameterType sig parameter) := by
  obtain ⟨l, p⟩ := t
  cases l with
  | mark m => exact absurd ⟨m, rfl⟩ ht
  | identifier name => rcases type with outer | ⟨_ | _, _⟩ | ⟨_ | _, _⟩ <;> rfl
  | string text => rcases type with outer | ⟨_ | _, _⟩ | ⟨_ | _, _⟩ <;> rfl

theorem outputType_step? {sig : Signature} {outputs : List TypeExpr} {type : TypeStage} {t : Token}
    (ht : ¬ ∃ m, t.lexeme = .mark m) : (Stage.outputType sig outputs type).step? t =
      (type.step? t.lexeme).map (.outputType sig outputs) := by
  obtain ⟨l, p⟩ := t
  cases l with
  | mark m => exact absurd ⟨m, rfl⟩ ht
  | identifier name => rcases type with outer | ⟨_ | _, _⟩ | ⟨_ | _, _⟩ <;> rfl
  | string text => rcases type with outer | ⟨_ | _, _⟩ | ⟨_ | _, _⟩ <;> rfl

theorem AfterWord.of_step {st next : Stage} {t : Token} (h : st.step? t = some next)
    (ht : ¬ ∃ m, t.lexeme = .mark m) : AfterWord next := by
  cases st with
  | parameterType sig parameter type =>
    rw [parameterType_step? ht] at h
    obtain ⟨type', htype, rfl⟩ := Option.map_eq_some_iff.mp h
    obtain ⟨outer, name, -, rfl⟩ := typeStep_of_not_mark htype ht
    exact .parameterType sig parameter outer name
  | outputType sig outputs type =>
    rw [outputType_step? ht] at h
    obtain ⟨type', htype, rfl⟩ := Option.map_eq_some_iff.mp h
    obtain ⟨outer, name, -, rfl⟩ := typeStep_of_not_mark htype ht
    exact .outputType sig outputs outer name
  | _ =>
    obtain ⟨l, p⟩ := t
    cases l with
    | mark m => exact absurd ⟨m, rfl⟩ ht
    | identifier name => cases h <;> constructor
    | string text => cases h <;> constructor

theorem AfterWord.step {st next : Stage} {t : Token} (hst : AfterWord st)
    (h : st.step? t = some next) : ∃ m, t.lexeme = .mark m := by
  by_contra ht
  cases hst with
  | parameterType sig parameter outer name =>
    rw [parameterType_step? ht] at h
    obtain ⟨type', htype, -⟩ := Option.map_eq_some_iff.mp h
    obtain ⟨_, _, hstart, -⟩ := typeStep_of_not_mark htype ht
    cases hstart
  | outputType sig outputs outer name =>
    rw [outputType_step? ht] at h
    obtain ⟨type', htype, -⟩ := Option.map_eq_some_iff.mp h
    obtain ⟨_, _, hstart, -⟩ := typeStep_of_not_mark htype ht
    cases hstart
  | _ =>
    obtain ⟨l, p⟩ := t
    cases l with
    | mark m => exact ht ⟨m, rfl⟩
    | identifier name => cases h
    | string text => cases h

/-- One of two lexemes is a mark. -/
def OneMark (l l' : Lexeme) : Prop := (∃ m, l = .mark m) ∨ ∃ m, l' = .mark m

/-- A token that the machine takes after a name or a literal is a mark. -/
theorem oneMark_of_steps {s s' s'' : State} {t t' : Token} (h : s.step? t = some s')
    (h' : s'.step? t' = some s'') : OneMark t.lexeme t'.lexeme := by
  by_cases ht : ∃ m, t.lexeme = .mark m
  · exact .inl ht
  · right
    unfold State.step? at h
    split at h
    · rename_i hl
      exact absurd ⟨_, hl⟩ ht
    · obtain ⟨next, hnext, rfl⟩ := Option.map_eq_some_iff.mp h
      unfold State.step? at h'
      split at h'
      · rename_i hl
        exact ⟨_, hl⟩
      · obtain ⟨next', hnext', -⟩ := Option.map_eq_some_iff.mp h'
        exact (AfterWord.of_step hnext ht).step hnext'

/-- **In what the machine reads, one of two neighbours is a mark.** -/
theorem oneMark_of_run {s s' : State} {ts : List Token} (h : s.run ts = .ok s') :
    (ts.map Token.lexeme).IsChain OneMark := by
  induction ts generalizing s with
  | nil => exact .nil
  | cons t ts ih =>
    rw [State.run] at h
    cases hstep : s.step? t with
    | none => rw [hstep] at h; cases h
    | some next =>
      rw [hstep] at h
      cases ts with
      | nil => exact .singleton _
      | cons t' ts =>
        refine List.isChain_cons_cons.mpr ⟨?_, ih h⟩
        simp only [State.run] at h
        cases hstep' : next.step? t' with
        | none => rw [hstep'] at h; cases h
        | some next' => exact oneMark_of_steps hstep hstep'

/-! ## The words of a declaration -/

/-- Words that are all spelled as they must be. -/
def Sounds (ws : List Word) : Prop := ∀ w ∈ ws, w.Sound

theorem Sounds.nil : Sounds [] := nofun

theorem Sounds.mark (m : Mark) {ws : List Word} (h : Sounds ws) : Sounds (markWord m :: ws) :=
  List.forall_mem_cons.mpr ⟨.mark m, h⟩

theorem Sounds.name {name : String} (hname : isName name = true) {ws : List Word}
    (h : Sounds ws) : Sounds (nameWord name :: ws) :=
  List.forall_mem_cons.mpr ⟨.name hname, h⟩

theorem Sounds.append {ws ws' : List Word} (h : Sounds ws) (h' : Sounds ws') :
    Sounds (ws ++ ws') :=
  List.forall_mem_append.mpr ⟨h, h'⟩

theorem sounds_separated {α : Type} {words : α → List Word} {as : List α}
    (h : ∀ a ∈ as, Sounds (words a)) : Sounds (separated words as) := by
  cases as with
  | nil => exact .nil
  | cons a as =>
    refine (h a List.mem_cons_self).append fun w hw => ?_
    obtain ⟨b, hb, hw⟩ := List.mem_flatMap.mp hw
    exact Sounds.mark .comma (h b (List.mem_cons_of_mem _ hb)) w hw

theorem sounds_trailing {α : Type} (comma : Bool) (as : List α) : Sounds (trailing comma as) := by
  cases as with
  | nil => exact .nil
  | cons a as =>
    cases comma with
    | true => exact .mark .comma .nil
    | false => exact .nil

mutual

theorem sounds_type : ∀ t : TypeExpr, (∀ u ∈ t.nodes, isName u.name = true) → Sounds (typeWords t)
  | ⟨name, []⟩, h => by
    rw [TypeExpr.nodes] at h
    rw [typeWords]
    exact .name (h _ List.mem_cons_self) .nil
  | ⟨name, t :: ts⟩, h => by
    rw [TypeExpr.nodes] at h
    have hargs : Sounds (separated typeWords (t :: ts)) :=
      sounds_separated (sounds_types (t :: ts) fun u hu => h u (List.mem_cons_of_mem _ hu))
    rw [typeWords, argumentWords_eq]
    exact .name (h _ List.mem_cons_self) (.mark .lbracket (hargs.append (.mark .rbracket .nil)))

theorem sounds_types : ∀ ts : List TypeExpr, (∀ u ∈ TypeExpr.nodesOf ts, isName u.name = true) →
    ∀ t ∈ ts, Sounds (typeWords t)
  | [], _ => nofun
  | t :: ts, h => by
    rw [TypeExpr.nodesOf] at h
    obtain ⟨ht, hts⟩ := List.forall_mem_append.mp h
    exact List.forall_mem_cons.mpr ⟨sounds_type t ht, sounds_types ts hts⟩

end

def typeNames (t : TypeExpr) : List String := t.nodes.map TypeExpr.name

def optionNames (o : AttributeOption) : List String := o.name :: o.values

def attributeNames (a : Attribute) : List String :=
  a.name :: (a.options.getD []).flatMap optionNames

def parameterNames (p : Parameter) : List String := p.name :: typeNames p.type

/-- All names in a declaration. -/
def names (d : Declaration) : List String :=
  d.name :: (d.attributes.flatMap attributeNames ++ d.parameters.flatMap parameterNames ++
    d.outputs.flatMap typeNames)

/-- A declaration that can be written down. -/
structure Writable (d : Declaration) : Prop where
  names : ∀ name ∈ names d, isName name = true
  /-- An attribute has no parentheses, or something between them. -/
  options : ∀ a ∈ d.attributes, a.options ≠ some []

theorem sounds_option {o : AttributeOption} (h : ∀ name ∈ optionNames o, isName name = true) :
    Sounds (optionWords o) := by
  obtain ⟨hname, hvalues⟩ := List.forall_mem_cons.mp h
  have hlist : Sounds (separated (fun value => [nameWord value]) o.values) :=
    sounds_separated fun v hv => .name (hvalues v hv) .nil
  exact .name hname (.mark .equals (.mark .lbracket (hlist.append (.mark .rbracket .nil))))

theorem sounds_attribute {a : Attribute} (h : ∀ name ∈ attributeNames a, isName name = true) :
    Sounds (attributeWords a) := by
  obtain ⟨name, line, options⟩ := a
  obtain ⟨hname, hoptions⟩ := List.forall_mem_cons.mp h
  cases options with
  | none => exact .name hname .nil
  | some os =>
    have hlist : Sounds (separated optionWords os) := sounds_separated fun o ho =>
      sounds_option fun n hn => hoptions n (List.mem_flatMap.mpr ⟨o, ho, hn⟩)
    exact .name hname (.mark .lparen (hlist.append (.mark .rparen .nil)))

theorem sounds_attributes {as : List Attribute}
    (h : ∀ name ∈ as.flatMap attributeNames, isName name = true) :
    Sounds (attributesWords as) := by
  have hlist : Sounds (separated attributeWords as) := sounds_separated fun a ha =>
    sounds_attribute fun n hn => h n (List.mem_flatMap.mpr ⟨a, ha, hn⟩)
  unfold attributesWords
  split
  · exact .nil
  · exact .mark .hash (.mark .lbracket (hlist.append (.mark .rbracket .nil)))

theorem sounds_parameter {p : Parameter} (h : ∀ name ∈ parameterNames p, isName name = true) :
    Sounds (parameterWords p) := by
  obtain ⟨hname, htype⟩ := List.forall_mem_cons.mp h
  have hwords : Sounds (typeWords p.type) :=
    sounds_type p.type fun u hu => htype _ (List.mem_map_of_mem hu)
  exact .name hname (.mark .colon hwords)

theorem sounds_outputs {ts : List TypeExpr} (comma : Bool)
    (h : ∀ name ∈ ts.flatMap typeNames, isName name = true) : Sounds (outputsWords comma ts) := by
  have hlist : Sounds (separated typeWords ts) := sounds_separated fun t ht =>
    sounds_type t fun u hu => h _ (List.mem_flatMap.mpr ⟨t, ht, List.mem_map_of_mem hu⟩)
  have hitems := hlist.append (sounds_trailing comma ts)
  unfold outputsWords
  split
  · exact .nil
  · exact .mark .arrow (.mark .lbracket (.mark .lparen
      (hitems.append (.mark .rparen (.mark .rbracket .nil)))))

theorem sounds_declaration {d : Declaration} (h : ∀ name ∈ names d, isName name = true)
    {style : Style} (hfits : style.statement.Fits d.statement.toList) :
    Sounds (declarationWords style d) := by
  obtain ⟨hname, hrest⟩ := List.forall_mem_cons.mp h
  obtain ⟨hrest, houtputs⟩ := List.forall_mem_append.mp hrest
  obtain ⟨hattributes, hparameters⟩ := List.forall_mem_append.mp hrest
  have hlist : Sounds (separated parameterWords d.parameters) := sounds_separated fun p hp =>
    sounds_parameter fun n hn => hparameters n (List.mem_flatMap.mpr ⟨p, hp, hn⟩)
  have hstatement : Sounds (literalWord style.statement d.statement :: [markWord .rbrace]) :=
    List.forall_mem_cons.mpr ⟨.literal hfits, Sounds.mark .rbrace .nil⟩
  have hreturns := (sounds_outputs style.outputsComma houtputs).append (.mark .lbrace hstatement)
  have hitems := hlist.append (sounds_trailing style.parametersComma d.parameters)
  exact (sounds_attributes hattributes).append
    (.name hname (.mark .lparen (hitems.append (.mark .rparen hreturns))))

theorem sounds_words {layout : Layout} {ds : List Declaration} (h : ∀ d ∈ ds, Writable d)
    (hfits : layout.Fits ds) : Sounds (layout.words ds) := by
  intro w hw
  obtain ⟨ws, hws, hw⟩ := List.mem_flatten.mp hw
  obtain ⟨i, hi, rfl⟩ := List.mem_mapIdx.mp hws
  exact sounds_declaration (h _ (List.getElem_mem hi)).names (hfits i hi) w hw

/-- One of two neighbouring words is a mark, because their lexemes are derived. -/
theorem apart_words {layout : Layout} {ds : List Declaration} (h : ∀ d ∈ ds, Writable d) :
    (layout.words ds).IsChain Apart := by
  let ts : List Token := (layout.words ds).map fun w => { lexeme := w.lexeme, position := .start }
  have hagrees : Agrees ts (layout.words ds) := by simp [Agrees, ts]
  obtain ⟨u, hu, -⟩ := derives_words layout (fun d hd => (h d hd).options) ts hagrees
  have hrun := run_unit u
  rw [hu] at hrun
  have hchain := oneMark_of_run hrun
  rw [show ts.map Token.lexeme = _ from hagrees, List.isChain_map] at hchain
  exact hchain

/-! ## Reading back -/

/-- **Declarations are read back from the text that any layout makes of them, up to the lines on
which they stand.** -/
theorem readAll_print (layout : Layout) {ds : List Declaration} (h : ∀ d ∈ ds, Writable d)
    (hfits : layout.Fits ds) :
    ∃ ds', Declaration.readAll (layout.print ds) = .ok ds' ∧
      ds'.map Declaration.unplaced = ds.map Declaration.unplaced := by
  obtain ⟨hagrees, hfault⟩ :=
    scanFrom_spread (sounds_words h hfits) (apart_words h) layout.gaps .start
  have hscan : Token.scan (layout.print ds) =
      Token.scanFrom .start (spread layout.gaps (layout.words ds)) := by
    rw [Token.scan, Layout.print, String.toList_ofList]
  have htokens : Token.tokenize (layout.print ds) = .ok (Token.scan (layout.print ds)).tokens := by
    rw [Token.tokenize, hscan, hfault]
  rw [← hscan] at hagrees
  obtain ⟨u, hyield, hvalues⟩ := derives_words layout (fun d hd => (h d hd).options) _ hagrees
  have hrun := run_unit u
  rw [hyield] at hrun
  exact ⟨u.values, (readAll_of_tokenize htokens _).mpr ⟨_, hrun, rfl⟩, hvalues⟩

/-- A declaration with all its parts. -/
def sampleFull : Declaration :=
  { name := "get_pet", line := 7
    attributes :=
      [{ name := "sqlite", line := 0, options := none },
       { name := "test", line := 3
         options := some [{ name := "with", values := ["a", "_b2"], line := 1 },
           { name := "none", values := [], line := 2 }] }]
    parameters := [{ name := "id", type := ⟨"int", []⟩ },
      { name := "tags", type := ⟨"Map", [⟨"str", []⟩, ⟨"Optional", [⟨"bytes", []⟩]⟩]⟩ }]
    outputs := [⟨"int", []⟩, ⟨"Optional", [⟨"str", []⟩]⟩]
    statement := "SELECT '//' \\ \"x\"\n" }

/-- A declaration with as little as possible, whose statement has quotes in it. -/
def sampleBare : Declaration :=
  { name := "q", line := 1, attributes := [], parameters := [], outputs := []
    statement := "\"\" a // \\z\n" }

/-- Comments and blanks here and there, and a tripled statement at the end. -/
def sampleLayout : Layout :=
  { gaps := fun n => if n % 3 = 0 then [] else
      [.comment ⟨['"', '\x7b', '/'], by decide⟩, .tab, .carriageReturn, .newline, .space]
    styles := fun n =>
      { parametersComma := true, outputsComma := n = 0
        statement := if n = 0 then .single fun i => i % 2 = 0 else .tripled } }

theorem readAll_print_sample :
    (∀ d ∈ [sampleFull, sampleBare], Writable d) ∧ sampleLayout.Fits [sampleFull, sampleBare] ∧
      ∃ ds', Declaration.readAll (sampleLayout.print [sampleFull, sampleBare]) = .ok ds' ∧
        ds'.map Declaration.unplaced = [sampleFull, sampleBare].map Declaration.unplaced := by
  have hfull : Writable sampleFull := ⟨by decide, by decide⟩
  have hbare : Writable sampleBare := ⟨by decide, by decide⟩
  have hwritable : ∀ d ∈ [sampleFull, sampleBare], Writable d :=
    List.forall_mem_cons.mpr ⟨hfull, List.forall_mem_singleton.mpr hbare⟩
  have hfits : sampleLayout.Fits [sampleFull, sampleBare] := by decide
  exact ⟨hwritable, hfits, readAll_print sampleLayout hwritable hfits⟩

end Printing

end QueryBook
