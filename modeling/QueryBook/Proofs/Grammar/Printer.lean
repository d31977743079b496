import QueryBook.Proofs.Grammar.Reading

/-!
# Writing declarations down

Declarations are written as words, one for each token, and a word says how its token is spelled.
Which words there are is fixed by the declarations, up to a comma behind the last parameter and the
last output. A layout chooses those commas, how each statement is quoted, and the blanks and
comments before each word and behind the last.

The second part goes the other way, from tokens to derivations: tokens that say what the words say
are derived by a tree that stands for the declarations, wherever the tokens stand in a text. The
lines of a declaration come from there, so the two agree without their lines.
-/

namespace QueryBook

/-! ## Declarations without their lines -/

def AttributeOption.unplaced (o : AttributeOption) : AttributeOption := { o with line := 0 }

def Attribute.unplaced (a : Attribute) : Attribute :=
  { a with line := 0, options := a.options.map fun os => os.map AttributeOption.unplaced }

/-- The declaration with every line set to zero. -/
def Declaration.unplaced (d : Declaration) : Declaration :=
  { d with line := 0, attributes := d.attributes.map Attribute.unplaced }

namespace Printing

/-! ## Words -/

/-- A token as it is spelled. -/
structure Word where
  lexeme : Lexeme
  chars : List Char
deriving DecidableEq, Repr

def nameWord (name : String) : Word := { lexeme := .identifier name, chars := name.toList }

def markWord (m : Mark) : Word := { lexeme := .mark m, chars := m.spelling.toList }

/-- How the text of a string literal is quoted. -/
inductive Quoting where
  /-- Between tripled quotes, as it stands. -/
  | tripled
  /-- Between single quotes. What must be escaped is escaped, and of the characters that may be
  escaped those at the chosen places. -/
  | single (chosen : Nat → Bool)

/-- What a character is escaped as, if it can be. -/
def escapeFor? : Char → Option Char
  | '\n' => some 'n'
  | '\t' => some 't'
  | '\r' => some 'r'
  | '\\' => some '\\'
  | '"' => some '"'
  | '\'' => some '\''
  | '\x00' => some '0'
  | _ => none

/-- A character that cannot stand for itself between single quotes. -/
def MustEscape (c : Char) : Prop := c = '\\' ∨ c = '"' ∨ c = '\n'

instance (c : Char) : Decidable (MustEscape c) := inferInstanceAs (Decidable (_ ∨ _ ∨ _))

def escapeChar (chosen : Bool) (c : Char) : List Char :=
  match escapeFor? c with
  | some e => if MustEscape c ∨ chosen = true then ['\\', e] else [c]
  | none => [c]

/-- A text with its escapes. -/
def escaped (chosen : Nat → Bool) (cs : List Char) : List Char :=
  (cs.mapIdx fun i c => escapeChar (chosen i) c).flatten

def tripledQuote : List Char := ['"', '"', '"']

def Quoting.chars (q : Quoting) (cs : List Char) : List Char :=
  match q with
  | .tripled => tripledQuote ++ cs ++ tripledQuote
  | .single chosen => '"' :: escaped chosen cs ++ ['"']

/-- A text can be tripled if no tripled quote begins before the one that closes it. -/
def Quoting.Fits (q : Quoting) (cs : List Char) : Prop :=
  match q with
  | .tripled => ∀ i < cs.length, ¬ tripledQuote <+: (cs ++ tripledQuote).drop i
  | .single _ => True

instance (q : Quoting) (cs : List Char) : Decidable (q.Fits cs) :=
  match q with
  | .tripled => inferInstanceAs (Decidable (∀ i < cs.length, _))
  | .single _ => .isTrue trivial

def literalWord (q : Quoting) (text : String) : Word :=
  { lexeme := .string text, chars := q.chars text.toList }

/-! ## The words of a declaration -/

/-- Items with a comma between each two. -/
def separated {α : Type} (words : α → List Word) : List α → List Word
  | [] => []
  | a :: as => words a ++ as.flatMap fun b => markWord .comma :: words b

/-- A comma behind the last item, if there is an item and the comma is wanted. -/
def trailing {α : Type} (comma : Bool) : List α → List Word
  | [] => []
  | _ :: _ => if comma then [markWord .comma] else []

mutual

def typeWords : TypeExpr → List Word
  | ⟨name, []⟩ => [nameWord name]
  | ⟨name, t :: ts⟩ =>
    nameWord name :: markWord .lbracket :: (typeWords t ++ argumentWords ts ++ [markWord .rbracket])

/-- The arguments behind the first. -/
def argumentWords : List TypeExpr → List Word
  | [] => []
  | t :: ts => markWord .comma :: (typeWords t ++ argumentWords ts)

end

def optionWords (o : AttributeOption) : List Word :=
  nameWord o.name :: markWord .equals :: markWord .lbracket ::
    (separated (fun value => [nameWord value]) o.values ++ [markWord .rbracket])

def attributeWords (a : Attribute) : List Word :=
  match a.options with
  | none => [nameWord a.name]
  | some os =>
    nameWord a.name :: markWord .lparen :: (separated optionWords os ++ [markWord .rparen])

/-- The attribute list. Without an attribute there is none. -/
def attributesWords (as : List Attribute) : List Word :=
  if as.isEmpty then []
  else markWord .hash :: markWord .lbracket ::
    (separated attributeWords as ++ [markWord .rbracket])

def parameterWords (p : Parameter) : List Word :=
  nameWord p.name :: markWord .colon :: typeWords p.type

/-- The outputs. Without an output nothing is written. -/
def outputsWords (comma : Bool) (ts : List TypeExpr) : List Word :=
  if ts.isEmpty then []
  else markWord .arrow :: markWord .lbracket :: markWord .lparen ::
    (separated typeWords ts ++ trailing comma ts ++ [markWord .rparen, markWord .rbracket])

/-- What is chosen for one declaration. -/
structure Style where
  /-- Whether a comma follows the last parameter. -/
  parametersComma : Bool
  /-- Whether a comma follows the last output. -/
  outputsComma : Bool
  statement : Quoting

/-- A declaration without its attributes. -/
def signatureWords (style : Style) (d : Declaration) : List Word :=
  nameWord d.name :: markWord .lparen ::
    (separated parameterWords d.parameters ++ trailing style.parametersComma d.parameters ++
      markWord .rparen :: (outputsWords style.outputsComma d.outputs ++
        [markWord .lbrace, literalWord style.statement d.statement, markWord .rbrace]))

def declarationWords (style : Style) (d : Declaration) : List Word :=
  attributesWords d.attributes ++ signatureWords style d

/-! ## Layouts -/

/-- What may stand between two words. -/
inductive Blank where
  | space | tab | carriageReturn | newline
  /-- A comment, with the newline that ends it. -/
  | comment (text : { cs : List Char // '\n' ∉ cs })

def Blank.chars : Blank → List Char
  | space => [' ']
  | tab => ['\t']
  | carriageReturn => ['\r']
  | newline => ['\n']
  | comment text => '/' :: '/' :: text.val ++ ['\n']

/-- All that is chosen when declarations are written down. -/
structure Layout where
  /-- What stands before each word, and behind the last. -/
  gaps : Nat → List Blank
  styles : Nat → Style

/-- Words with gaps before each of them and behind the last. -/
def spread (gaps : Nat → List Blank) : List Word → List Char
  | [] => (gaps 0).flatMap Blank.chars
  | w :: ws => (gaps 0).flatMap Blank.chars ++ w.chars ++ spread (fun n => gaps (n + 1)) ws

namespace Layout

def words (layout : Layout) (ds : List Declaration) : List Word :=
  (ds.mapIdx fun i d => declarationWords (layout.styles i) d).flatten

/-- The declarations as a text. -/
def print (layout : Layout) (ds : List Declaration) : String :=
  .ofList (spread layout.gaps (layout.words ds))

/-- The statements can be quoted as the layout says. -/
def Fits (layout : Layout) (ds : List Declaration) : Prop :=
  ∀ i, (hi : i < ds.length) → (layout.styles i).statement.Fits ds[i].statement.toList

instance (layout : Layout) (ds : List Declaration) : Decidable (layout.Fits ds) :=
  inferInstanceAs (Decidable (∀ i, (hi : i < ds.length) → _))

end Layout

/-! ## Tokens that say what words say -/

open Grammar

/-- Some tokens and some words say the same. -/
def Agrees (ts : List Token) (ws : List Word) : Prop := ts.map Token.lexeme = ws.map Word.lexeme

theorem Agrees.cons_inv {ts : List Token} {w : Word} {ws : List Word} (h : Agrees ts (w :: ws)) :
    ∃ t us, ts = t :: us ∧ t.lexeme = w.lexeme ∧ Agrees us ws := by
  obtain ⟨t, us, rfl, ht, hus⟩ := List.map_eq_cons_iff.mp h
  exact ⟨t, us, rfl, ht, hus⟩

theorem Agrees.mark {ts : List Token} {m : Mark} {ws : List Word}
    (h : Agrees ts (markWord m :: ws)) :
    ∃ p us, ts = mark m p :: us ∧ Agrees us ws := by
  obtain ⟨t, us, rfl, ht, hus⟩ := h.cons_inv
  exact ⟨t.position, us, by rw [← eq_mark_of_lexeme ht], hus⟩

theorem Agrees.name {ts : List Token} {name : String} {ws : List Word}
    (h : Agrees ts (nameWord name :: ws)) :
    ∃ n : Name, n.text = name ∧ ∃ us, ts = n.token :: us ∧ Agrees us ws := by
  obtain ⟨t, us, rfl, ht, hus⟩ := h.cons_inv
  exact ⟨⟨name, t.position⟩, rfl, us, by rw [← eq_name_of_lexeme ht], hus⟩

theorem Agrees.append {ts : List Token} {ws ws' : List Word} (h : Agrees ts (ws ++ ws')) :
    ∃ us us', ts = us ++ us' ∧ Agrees us ws ∧ Agrees us' ws' := by
  unfold Agrees at h
  rw [List.map_append] at h
  obtain ⟨us, us', rfl, hus, hus'⟩ := List.map_eq_append_iff.mp h
  exact ⟨us, us', rfl, hus, hus'⟩

theorem Agrees.nil {ts : List Token} (h : Agrees ts []) : ts = [] := List.map_eq_nil_iff.mp h

theorem Agrees.snoc {ts : List Token} {ws : List Word} {m : Mark}
    (h : Agrees ts (ws ++ [markWord m])) :
    ∃ us p, ts = us ++ [Grammar.mark m p] ∧ Agrees us ws := by
  obtain ⟨us, last, rfl, hus, hlast⟩ := h.append
  obtain ⟨p, _, rfl, hnil⟩ := hlast.mark
  obtain rfl := hnil.nil
  exact ⟨us, p, rfl, hus⟩

/-- Tokens that say what the words say are the tokens of some tree, and it stands for `c`. -/
def Derives {α γ : Type} (y : α → List Token) (v : α → γ) (ws : List Word) (c : γ) : Prop :=
  ∀ ts, Agrees ts ws → ∃ a, y a = ts ∧ v a = c

theorem derives_name (name : String) :
    Derives (fun n : Name => [n.token]) Name.text [nameWord name] name := by
  intro ts h
  obtain ⟨n, hn, us, rfl, hus⟩ := h.name
  obtain rfl := hus.nil
  exact ⟨n, rfl, hn⟩

/-- The items behind the first, added to a tree for those before. -/
theorem derives_more {α β γ : Type} {y : α → List Token} {v : α → γ} {words : β → List Word}
    {c : β → γ} {bs : List β} (h : ∀ b ∈ bs, Derives y v (words b) (c b))
    (first : Separated α) (ts : List Token)
    (hts : Agrees ts (bs.flatMap fun b => markWord .comma :: words b)) :
    ∃ as : Separated α, as.yield y = first.yield y ++ ts ∧
      as.values v = first.values v ++ bs.map c := by
  -- the tree grows on the right, so the first items are what the induction leaves open
  induction bs generalizing first ts with
  | nil =>
    obtain rfl := hts.nil
    exact ⟨first, (List.append_nil _).symm, (List.append_nil _).symm⟩
  | cons b bs ih =>
    obtain ⟨item, rest, rfl, hitem, hrest⟩ := Agrees.append hts
    obtain ⟨p, us, rfl, hus⟩ := hitem.mark
    obtain ⟨a, rfl, hv⟩ := h b List.mem_cons_self us hus
    obtain ⟨as, hyield, hvalues⟩ :=
      ih (fun b hb => h b (List.mem_cons_of_mem _ hb)) (.more first p a) rest hrest
    refine ⟨as, ?_, ?_⟩
    · rw [hyield, Separated.yield, List.append_assoc]
    · rw [hvalues, Separated.values, hv, List.append_assoc, List.map_cons, List.singleton_append]

theorem derives_separated {α β γ : Type} {y : α → List Token} {v : α → γ}
    {words : β → List Word} {c : β → γ} {bs : List β} (hne : bs ≠ [])
    (h : ∀ b ∈ bs, Derives y v (words b) (c b)) :
    Derives (Separated.yield y) (Separated.values v) (separated words bs) (bs.map c) := by
  intro ts hts
  cases bs with
  | nil => exact absurd rfl hne
  | cons b bs =>
    obtain ⟨us, rest, rfl, hus, hrest⟩ := hts.append
    obtain ⟨a, rfl, hv⟩ := h b List.mem_cons_self us hus
    obtain ⟨as, hyield, hvalues⟩ :=
      derives_more (fun b hb => h b (List.mem_cons_of_mem _ hb)) (.single a) rest hrest
    refine ⟨as, hyield, ?_⟩
    rw [hvalues, Separated.values, hv, List.map_cons, List.singleton_append]

/-! ### Types -/

theorem argumentWords_eq (ts : List TypeExpr) :
    argumentWords ts = ts.flatMap fun t => markWord .comma :: typeWords t := by
  induction ts with
  | nil => rfl
  | cons t ts ih => rw [argumentWords, List.flatMap_cons, ih, List.cons_append]

mutual

theorem derives_type : ∀ t : TypeExpr, Derives TypeTree.yield TypeTree.value (typeWords t) t
  | ⟨name, []⟩ => by
    intro ts h
    rw [typeWords] at h
    obtain ⟨n, rfl, us, rfl, hus⟩ := h.name
    obtain rfl := hus.nil
    exact ⟨.simple n, by rw [TypeTree.yield], by rw [TypeTree.value]⟩
  | ⟨name, t :: ts⟩ => by
    intro tokens h
    rw [typeWords, argumentWords_eq] at h
    obtain ⟨n, rfl, _, rfl, h₁⟩ := h.name
    obtain ⟨l, _, rfl, h₂⟩ := h₁.mark
    obtain ⟨us, r, rfl, hus⟩ := h₂.snoc
    obtain ⟨args, rfl, hargs⟩ := derives_separated (List.cons_ne_nil t ts)
      (derives_types (t :: ts)) us hus
    refine ⟨.generic n l args r, ?_, ?_⟩
    · rw [TypeTree.yield, TypeTree.yields_eq]
    · rw [TypeTree.value, TypeTree.valuesOf_eq, hargs, List.map_id']

theorem derives_types : ∀ ts : List TypeExpr, ∀ t ∈ ts,
    Derives TypeTree.yield TypeTree.value (typeWords t) t
  | [] => by simp
  | t :: ts => by
    refine List.forall_mem_cons.mpr ⟨derives_type t, ?_⟩
    exact derives_types ts

end

/-! ### Attributes -/

theorem values_unplaced {α β : Type} (f : β → β) (v : α → β) (as : Separated α) :
    as.values (fun a => f (v a)) = (as.values v).map f := by
  induction as with
  | single a => rfl
  | more as c a ih => rw [Separated.values, Separated.values, ih, List.map_append]; rfl

theorem derives_option (o : AttributeOption) :
    Derives OptionTree.yield (fun t => t.value.unplaced) (optionWords o) o.unplaced := by
  intro ts h
  obtain ⟨name, values, line⟩ := o
  obtain ⟨n, rfl, _, rfl, h₁⟩ := h.name
  obtain ⟨e, _, rfl, h₂⟩ := h₁.mark
  obtain ⟨l, _, rfl, h₃⟩ := h₂.mark
  obtain ⟨us, r, rfl, hus⟩ := h₃.snoc
  by_cases hne : values = []
  · subst hne
    obtain rfl := hus.nil
    exact ⟨.empty n e l r, rfl, rfl⟩
  · obtain ⟨names, rfl, hnames⟩ := derives_separated hne (fun v _ => derives_name v) us hus
    rw [List.map_id'] at hnames
    refine ⟨.full n e l names r, rfl, ?_⟩
    simp only [OptionTree.value, AttributeOption.unplaced, hnames]

theorem derives_attribute (a : Attribute) (ha : a.options ≠ some []) :
    Derives AttributeTree.yield (fun t => t.value.unplaced) (attributeWords a) a.unplaced := by
  intro ts h
  obtain ⟨name, line, options⟩ := a
  cases options with
  | none =>
    obtain ⟨n, rfl, _, rfl, hnil⟩ := h.name
    obtain rfl := hnil.nil
    exact ⟨.bare n, rfl, rfl⟩
  | some os =>
    obtain ⟨n, rfl, _, rfl, h₁⟩ := h.name
    obtain ⟨l, _, rfl, h₂⟩ := h₁.mark
    obtain ⟨us, r, rfl, hus⟩ := h₂.snoc
    have hne : os ≠ [] := fun he => ha (he ▸ rfl)
    obtain ⟨options, rfl, hoptions⟩ := derives_separated hne (fun o _ => derives_option o) us hus
    rw [values_unplaced] at hoptions
    refine ⟨.applied n l options r, rfl, ?_⟩
    simp only [AttributeTree.value, Attribute.unplaced, Option.map_some, hoptions]

theorem derives_attributes {as : List Attribute} (hne : as ≠ [])
    (h : ∀ a ∈ as, a.options ≠ some []) :
    Derives AttributesTree.yield (fun t => t.values.map Attribute.unplaced) (attributesWords as)
      (as.map Attribute.unplaced) := by
  intro ts hts
  rw [attributesWords, if_neg (by simpa using hne)] at hts
  obtain ⟨p, _, rfl, hts₁⟩ := hts.mark
  obtain ⟨l, _, rfl, hts₂⟩ := hts₁.mark
  obtain ⟨us, r, rfl, hus⟩ := hts₂.snoc
  obtain ⟨attributes, rfl, hattributes⟩ :=
    derives_separated hne (fun a ha => derives_attribute a (h a ha)) us hus
  rw [values_unplaced] at hattributes
  exact ⟨⟨p, l, attributes, r⟩, rfl, hattributes⟩

/-! ### Signatures -/

theorem derives_parameter (p : Parameter) :
    Derives ParameterTree.yield ParameterTree.value (parameterWords p) p := by
  intro ts h
  obtain ⟨name, type⟩ := p
  obtain ⟨n, rfl, _, rfl, h₁⟩ := h.name
  obtain ⟨c, us, rfl, hus⟩ := h₁.mark
  obtain ⟨t, rfl, rfl⟩ := derives_type type us hus
  exact ⟨⟨n, c, t⟩, rfl, rfl⟩

theorem derives_parameters (comma : Bool) (ps : List Parameter) :
    Derives ParametersTree.yield ParametersTree.values
      (separated parameterWords ps ++ trailing comma ps) ps := by
  intro ts h
  obtain ⟨us, last, rfl, hus, hlast⟩ := h.append
  cases ps with
  | nil =>
    obtain rfl := hus.nil
    obtain rfl := hlast.nil
    exact ⟨.empty, rfl, rfl⟩
  | cons p ps =>
    obtain ⟨trees, rfl, htrees⟩ := derives_separated (List.cons_ne_nil p ps)
      (fun p _ => derives_parameter p) us hus
    rw [List.map_id'] at htrees
    cases comma with
    | true =>
      obtain ⟨c, _, rfl, hnil⟩ := Agrees.mark hlast
      obtain rfl := hnil.nil
      exact ⟨.listComma trees c, rfl, htrees⟩
    | false =>
      obtain rfl := Agrees.nil hlast
      exact ⟨.list trees, (List.append_nil _).symm, htrees⟩

theorem derives_outputs (comma : Bool) (ts : List TypeExpr) :
    Derives ReturnsTree.yield ReturnsTree.values (outputsWords comma ts) ts := by
  intro tokens h
  cases ts with
  | nil =>
    obtain rfl := h.nil
    exact ⟨.empty, rfl, rfl⟩
  | cons t ts =>
    obtain ⟨a, _, rfl, h₁⟩ := Agrees.mark h
    obtain ⟨l, _, rfl, h₂⟩ := h₁.mark
    obtain ⟨p, _, rfl, h₃⟩ := h₂.mark
    obtain ⟨items, close, rfl, hitems, hclose⟩ := h₃.append
    obtain ⟨q, _, rfl, hclose₁⟩ := hclose.mark
    obtain ⟨r, _, rfl, hnil⟩ := hclose₁.mark
    obtain rfl := hnil.nil
    obtain ⟨us, last, rfl, hus, hlast⟩ := hitems.append
    obtain ⟨trees, rfl, htrees⟩ := derives_separated (List.cons_ne_nil t ts)
      (fun t _ => derives_type t) us hus
    rw [List.map_id'] at htrees
    cases comma with
    | true =>
      obtain ⟨c, _, rfl, hnil⟩ := Agrees.mark hlast
      obtain rfl := hnil.nil
      exact ⟨.listComma a l p trees c q r, by simp [ReturnsTree.yield], htrees⟩
    | false =>
      obtain rfl := Agrees.nil hlast
      exact ⟨.list a l p trees q r, by simp [ReturnsTree.yield], htrees⟩

/-- A signature stands for the declaration under any attributes. -/
theorem derives_signature (style : Style) (d : Declaration) (ts : List Token)
    (h : Agrees ts (signatureWords style d)) :
    ∃ s : SignatureTree, s.yield = ts ∧
      ∀ attributes, s.declare attributes = { d with line := s.name.line, attributes } := by
  obtain ⟨name, line, attributes, parameters, outputs, statement⟩ := d
  obtain ⟨n, rfl, _, rfl, h₁⟩ := h.name
  obtain ⟨l, _, rfl, h₂⟩ := h₁.mark
  obtain ⟨us, _, rfl, hus, h₃⟩ := h₂.append
  obtain ⟨ps, rfl, rfl⟩ := derives_parameters _ _ us hus
  obtain ⟨r, _, rfl, h₄⟩ := h₃.mark
  obtain ⟨vs, _, rfl, hvs, h₅⟩ := h₄.append
  obtain ⟨os, rfl, rfl⟩ := derives_outputs _ _ vs hvs
  obtain ⟨lb, _, rfl, h₆⟩ := h₅.mark
  obtain ⟨t, _, rfl, ht, h₇⟩ := h₆.cons_inv
  obtain ⟨rb, _, rfl, hnil⟩ := h₇.mark
  obtain rfl := hnil.nil
  obtain ⟨lexeme, position⟩ := t
  obtain rfl : lexeme = .string statement := ht
  exact ⟨⟨n, l, ps, r, os, lb, ⟨statement, position⟩, rb⟩, rfl, fun _ => rfl⟩

/-! ### Books -/

theorem derives_declaration (style : Style) {d : Declaration}
    (h : ∀ a ∈ d.attributes, a.options ≠ some []) :
    Derives DeclarationTree.yield (fun t => t.value.unplaced) (declarationWords style d)
      d.unplaced := by
  intro ts hts
  obtain ⟨us, vs, rfl, hus, hvs⟩ := hts.append
  obtain ⟨s, rfl, hs⟩ := derives_signature style d vs hvs
  by_cases hne : d.attributes = []
  · rw [hne] at hus
    obtain rfl := hus.nil
    refine ⟨.bare s, rfl, ?_⟩
    simp only [DeclarationTree.value, hs, Declaration.unplaced, hne]
  · obtain ⟨as, rfl, has⟩ := derives_attributes hne h us hus
    refine ⟨.attributed as s, rfl, ?_⟩
    simp only [DeclarationTree.value, hs, Declaration.unplaced, has]

/-- **Tokens that say what a layout writes are derived, and the derivation stands for the
declarations.** -/
theorem derives_words (layout : Layout) {ds : List Declaration}
    (h : ∀ d ∈ ds, ∀ a ∈ d.attributes, a.options ≠ some []) :
    Derives UnitTree.yield (fun u => u.values.map Declaration.unplaced) (layout.words ds)
      (ds.map Declaration.unplaced) := by
  -- declarations are added on the right of a book, as they are read
  have key : ∀ (styles : Nat → Style) (u : UnitTree) (ts : List Token),
      Agrees ts (ds.mapIdx fun i d => declarationWords (styles i) d).flatten →
      ∃ u' : UnitTree, u'.yield = u.yield ++ ts ∧ u'.values.map Declaration.unplaced =
        u.values.map Declaration.unplaced ++ ds.map Declaration.unplaced := by
    induction ds with
    | nil =>
      intro styles u ts hts
      obtain rfl := Agrees.nil hts
      exact ⟨u, (List.append_nil _).symm, (List.append_nil _).symm⟩
    | cons d ds ih =>
      intro styles u ts hts
      rw [List.mapIdx_cons, List.flatten_cons] at hts
      obtain ⟨us, rest, rfl, hus, hrest⟩ := hts.append
      obtain ⟨t, rfl, ht⟩ : ∃ t : DeclarationTree, t.yield = us ∧ t.value.unplaced = d.unplaced :=
        derives_declaration (styles 0) (h d List.mem_cons_self) us hus
      obtain ⟨u', hyield, hvalues⟩ := ih (fun d hd => h d (List.mem_cons_of_mem _ hd))
        (fun i => styles (i + 1)) (u.push t) rest hrest
      refine ⟨u', ?_, ?_⟩
      · rw [hyield, UnitTree.yield_push, List.append_assoc]
      · rw [hvalues, UnitTree.values_push, List.map_append, List.append_assoc, List.map_cons,
          List.map_cons, ht]
        rfl
  intro ts hts
  exact key layout.styles .empty ts hts

end Printing

end QueryBook
