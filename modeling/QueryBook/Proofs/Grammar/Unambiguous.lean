import QueryBook.Proofs.Grammar.Derivation

/-!
# A token sequence has at most one derivation

A tree is found again from the tokens it yields and whatever comes behind them, as long as what
comes behind cannot be taken for a part of it: behind a type no bracket may open, and behind a
list no comma may be followed by another item. This is `Decodes`, and it is shown nonterminal by
nonterminal, from the inside out. The lists are the one place where the tree leans the wrong way:
productions grow them at the right, but the tokens are compared from the left. So a list is
first taken apart into its head and the rest.

The main statement is `UnitTree.yield_injective`.
-/

namespace QueryBook

namespace Grammar

@[simp] theorem mark_inj {m m' : Mark} {p p' : Position} :
    mark m p = mark m' p' ↔ m = m' ∧ p = p' := by
  simp [mark]

@[simp] theorem Name.token_inj {n n' : Name} : n.token = n'.token ↔ n = n' := by
  cases n; cases n'; simp [Name.token]

@[simp] theorem Literal.token_inj {l l' : Literal} : l.token = l'.token ↔ l = l' := by
  cases l; cases l'; simp [Literal.token]

@[simp] theorem mark_ne_name {m : Mark} {p : Position} {n : Name} : mark m p ≠ n.token := by
  simp [mark, Name.token]

@[simp] theorem name_ne_mark {m : Mark} {p : Position} {n : Name} : n.token ≠ mark m p := by
  simp [mark, Name.token]

/-- `a` is found again from its tokens, if what comes behind them satisfies `F`. -/
def Decodes {α : Type} (y : α → List Token) (F : List Token → Prop) (a : α) : Prop :=
  ∀ (b : α) (r r' : List Token), F r → F r' → y a ++ r = y b ++ r' → a = b ∧ r = r'

/-- No mark `m` comes first. -/
def Without (m : Mark) (r : List Token) : Prop := ∀ p t, r ≠ mark m p :: t

/-- A mark `m` comes first. -/
def Starting (m : Mark) (r : List Token) : Prop := ∃ p t, r = mark m p :: t

/-- A list ends here: `F` holds, and there is no comma with an item behind it. -/
def Ending (F : List Token → Prop) (r : List Token) : Prop :=
  F r ∧ ∀ c (n : Name) t, r ≠ mark .comma c :: n.token :: t

theorem without_mark {m m' : Mark} (h : m' ≠ m) (p : Position) (t : List Token) :
    Without m (mark m' p :: t) := by
  intro p' t' he
  exact h (mark_inj.mp (List.cons.inj he).1).1

/-- A mark other than a comma ends a list. -/
theorem ending_mark {F : List Token → Prop} {m : Mark} {p : Position} {t : List Token}
    (hF : F (mark m p :: t)) (hm : m ≠ .comma) : Ending F (mark m p :: t) := by
  refine ⟨hF, ?_⟩
  intro c n t' he
  exact hm (mark_inj.mp (List.cons.inj he).1).1

/-- So does a comma with another mark behind it, as where a trailing comma is allowed. -/
theorem ending_comma {F : List Token → Prop} {c p : Position} {m : Mark} {t : List Token}
    (hF : F (mark .comma c :: mark m p :: t)) : Ending F (mark .comma c :: mark m p :: t) := by
  refine ⟨hF, ?_⟩
  intro c' n t' he
  exact mark_ne_name (List.cons.inj (List.cons.inj he).2).1

/-! ## Lists -/

namespace Separated

variable {α : Type}

/-- Every item satisfies `P`. -/
def All (P : α → Prop) : Separated α → Prop
  | single a => P a
  | more as _ a => as.All P ∧ P a

theorem all_of_forall {P : α → Prop} (h : ∀ a, P a) (as : Separated α) : as.All P := by
  induction as with
  | single a => exact h a
  | more as c a ih => exact ⟨ih, h a⟩

/-- The first item. -/
def head : Separated α → α
  | single a => a
  | more as _ _ => as.head

/-- The other items, each with the comma before it. -/
def tail : Separated α → List (Position × α)
  | single _ => []
  | more as c a => as.tail ++ [(c, a)]

/-- The tokens behind the first item. -/
def tailYield (y : α → List Token) (l : List (Position × α)) : List Token :=
  l.flatMap fun p => mark .comma p.1 :: y p.2

theorem yield_eq (y : α → List Token) (as : Separated α) :
    as.yield y = y as.head ++ tailYield y as.tail := by
  induction as with
  | single a => simp [yield, head, tail, tailYield]
  | more as c a ih =>
    rw [yield, ih]
    simp [head, tail, tailYield]

theorem eq_of_head_tail {as bs : Separated α} (hh : as.head = bs.head)
    (ht : as.tail = bs.tail) : as = bs := by
  induction as generalizing bs with
  | single a =>
    cases bs with
    | single b => exact congrArg single hh
    | more bs c b => simp [tail] at ht
  | more as c a ih =>
    cases bs with
    | single b => simp [tail] at ht
    | more bs c' b =>
      obtain ⟨hinit, hlast⟩ := List.append_inj' ht rfl
      obtain ⟨rfl, rfl⟩ := Prod.mk.inj (List.cons.inj hlast).1
      rw [show as = bs from ih hh hinit]

theorem All.head {P : α → Prop} {as : Separated α} (h : as.All P) : P as.head := by
  induction as with
  | single a => exact h
  | more as c a ih => exact ih h.1

theorem All.tail {P : α → Prop} {as : Separated α} (h : as.All P) :
    ∀ p ∈ as.tail, P p.2 := by
  induction as with
  | single a => intro p hp; simp [Separated.tail] at hp
  | more as c a ih =>
    intro p hp
    rcases List.mem_append.mp hp with hp | hp
    · exact ih h.1 p hp
    · rw [List.mem_singleton.mp hp]; exact h.2

variable {y : α → List Token} {F : List Token → Prop}

/-- What comes behind an item of a list: the comma before the next one, or what ends the list. -/
theorem tailYield_follow (hF : ∀ c t, F (mark .comma c :: t)) (l : List (Position × α))
    {r : List Token} (hr : F r) : F (tailYield y l ++ r) := by
  cases l with
  | nil => exact hr
  | cons p l => exact hF _ _

theorem tail_decodes (hF : ∀ c t, F (mark .comma c :: t))
    (hy : ∀ a, ∃ (n : Name) (t : List Token), y a = n.token :: t) :
    ∀ (l l' : List (Position × α)) (r r' : List Token), (∀ p ∈ l, Decodes y F p.2) →
      Ending F r → Ending F r' → tailYield y l ++ r = tailYield y l' ++ r' → l = l' ∧ r = r' := by
  -- a tail that ends and one that goes on differ at once: the one goes on with a comma and an
  -- item, and every item starts with a name
  have stop : ∀ (c : Position) (a : α) (t r : List Token), Ending F r →
      r ≠ mark .comma c :: (y a ++ t) := by
    intro c a t r hr he
    obtain ⟨n, u, hu⟩ := hy a
    rw [hu] at he
    exact hr.2 c n (u ++ t) he
  intro l
  induction l with
  | nil =>
    intro l' r r' _ hr hr' he
    cases l' with
    | nil => exact ⟨rfl, he⟩
    | cons p l' =>
      simp only [tailYield, List.flatMap_nil, List.flatMap_cons, List.nil_append,
        List.cons_append, List.append_assoc] at he
      exact absurd he (stop _ _ _ _ hr)
  | cons p l ih =>
    intro l' r r' hd hr hr' he
    cases l' with
    | nil =>
      simp only [tailYield, List.flatMap_nil, List.flatMap_cons, List.nil_append,
        List.cons_append, List.append_assoc] at he
      exact absurd he.symm (stop _ _ _ _ hr')
    | cons p' l' =>
      simp only [tailYield, List.flatMap_cons, List.cons_append, List.append_assoc,
        List.cons.injEq, mark_inj, true_and] at he
      obtain ⟨hc, he⟩ := he
      obtain ⟨ha, he⟩ := hd p (by simp) p'.2 _ _
        (tailYield_follow (y := y) hF l hr.1) (tailYield_follow (y := y) hF l' hr'.1) he
      obtain ⟨rfl, rfl⟩ := ih l' r r' (fun q hq => hd q (by simp [hq])) hr hr' he
      exact ⟨by rw [Prod.ext hc ha], rfl⟩

/-- Lists are found again if their items are. -/
theorem decodes (hF : ∀ c t, F (mark .comma c :: t))
    (hy : ∀ a, ∃ (n : Name) (t : List Token), y a = n.token :: t) {as : Separated α}
    (h : as.All (Decodes y F)) : Decodes (Separated.yield y) (Ending F) as := by
  intro bs r r' hr hr' he
  rw [yield_eq, yield_eq, List.append_assoc, List.append_assoc] at he
  obtain ⟨hhead, he⟩ := h.head bs.head _ _
    (tailYield_follow hF as.tail hr.1) (tailYield_follow hF bs.tail hr'.1) he
  obtain ⟨htail, hrest⟩ := tail_decodes hF hy as.tail bs.tail r r' h.tail hr hr' he
  exact ⟨eq_of_head_tail hhead htail, hrest⟩

/-- The tokens of a list start with a name if those of its items do. -/
theorem yield_name (hy : ∀ a, ∃ (n : Name) (t : List Token), y a = n.token :: t)
    (as : Separated α) : ∃ (n : Name) (t : List Token), as.yield y = n.token :: t := by
  obtain ⟨n, t, h⟩ := hy as.head
  exact ⟨n, t ++ tailYield y as.tail, by rw [yield_eq, h]; rfl⟩

end Separated

/-- Names need nothing behind them. -/
theorem Name.decodes (n : Name) : Decodes (fun n : Name => [n.token]) (fun _ => True) n := by
  intro m r r' _ _ he
  simpa using he

/-! ## Types -/

theorem TypeTree.yield_name (t : TypeTree) :
    ∃ (n : Name) (u : List Token), t.yield = n.token :: u := by
  cases t with
  | simple n => exact ⟨n, [], rfl⟩
  | generic n l args r => exact ⟨n, _, by rw [TypeTree.yield]⟩

mutual

/-- A type is found again unless a bracket opens behind it. -/
theorem TypeTree.decodes : ∀ t : TypeTree, Decodes TypeTree.yield (Without .lbracket) t
  | .simple n => by
    intro b r r' hr hr' he
    cases b with
    | simple m => simpa [TypeTree.yield] using he
    | generic m l args q =>
      simp only [TypeTree.yield, List.cons_append, List.nil_append, List.cons.injEq] at he
      exact absurd he.2 (hr _ _)
  | .generic n l args q => by
    intro b r r' hr hr' he
    cases b with
    | simple m =>
      simp only [TypeTree.yield, List.cons_append, List.nil_append, List.cons.injEq] at he
      exact absurd he.2.symm (hr' _ _)
    | generic m l' args' q' =>
      simp only [TypeTree.yield, TypeTree.yields_eq, List.cons_append, List.nil_append,
        List.append_assoc, List.cons.injEq, Name.token_inj, mark_inj, true_and] at he
      obtain ⟨rfl, rfl, he⟩ := he
      have close : ∀ p t, Ending (Without .lbracket) (mark .rbracket p :: t) := fun p t =>
        ending_mark (without_mark (by decide) p t) (by decide)
      obtain ⟨rfl, hrest⟩ := Separated.decodes (without_mark (by decide)) TypeTree.yield_name
        (TypeTree.all_decodes args) args' _ _ (close q r) (close q' r') he
      simp only [List.cons.injEq, mark_inj, true_and] at hrest
      exact ⟨by rw [hrest.1], hrest.2⟩

theorem TypeTree.all_decodes :
    ∀ ts : Separated TypeTree, ts.All (Decodes TypeTree.yield (Without .lbracket))
  | .single t => TypeTree.decodes t
  | .more ts _ t => ⟨TypeTree.all_decodes ts, TypeTree.decodes t⟩

end

/-- A list of types is found again where it ends. -/
theorem TypeTree.list_decodes (ts : Separated TypeTree) :
    Decodes (Separated.yield TypeTree.yield) (Ending (Without .lbracket)) ts :=
  Separated.decodes (without_mark (by decide)) TypeTree.yield_name (TypeTree.all_decodes ts)

/-! ## Attributes -/

theorem OptionTree.yield_name (o : OptionTree) :
    ∃ (n : Name) (t : List Token), o.yield = n.token :: t := by
  cases o with
  | full n e l names r => exact ⟨n, _, rfl⟩
  | empty n e l r => exact ⟨n, _, rfl⟩

/-- A list of names starts with a name, so it cannot be taken for the bracket that closes it. -/
theorem names_ne_mark {names : Separated Name} {m : Mark} {p : Position} {r t : List Token} :
    names.yield (fun n => [n.token]) ++ r ≠ mark m p :: t := by
  intro he
  obtain ⟨n, u, hn⟩ := Separated.yield_name (y := fun n : Name => [n.token])
    (fun n => ⟨n, [], rfl⟩) names
  rw [hn] at he
  exact name_ne_mark (List.cons.inj he).1

theorem OptionTree.decodes (o : OptionTree) :
    Decodes OptionTree.yield (fun _ => True) o := by
  intro b r r' _ _ he
  cases o with
  | full n e l names q =>
    cases b with
    | full n' e' l' names' q' =>
      simp only [OptionTree.yield, List.cons_append, List.nil_append, List.append_assoc,
        List.cons.injEq, Name.token_inj, mark_inj, true_and] at he
      obtain ⟨rfl, rfl, rfl, he⟩ := he
      have close : ∀ p t, Ending (fun _ => True) (mark .rbracket p :: t) := fun p t =>
        ending_mark trivial (by decide)
      obtain ⟨rfl, hrest⟩ := Separated.decodes (fun _ _ => trivial) (fun n => ⟨n, [], rfl⟩)
        (Separated.all_of_forall Name.decodes names) names' _ _ (close q r) (close q' r') he
      simp only [List.cons.injEq, mark_inj, true_and] at hrest
      exact ⟨by rw [hrest.1], hrest.2⟩
    | empty n' e' l' q' =>
      simp only [OptionTree.yield, List.cons_append, List.append_assoc, List.cons.injEq] at he
      exact absurd he.2.2.2 names_ne_mark
  | empty n e l q =>
    cases b with
    | full n' e' l' names' q' =>
      simp only [OptionTree.yield, List.cons_append, List.append_assoc, List.cons.injEq] at he
      exact absurd he.2.2.2.symm names_ne_mark
    | empty n' e' l' q' =>
      simp only [OptionTree.yield, List.cons_append, List.nil_append, List.cons.injEq,
        Name.token_inj, mark_inj, true_and] at he
      obtain ⟨rfl, rfl, rfl, rfl, he⟩ := he
      exact ⟨rfl, he⟩

theorem AttributeTree.yield_name (a : AttributeTree) :
    ∃ (n : Name) (t : List Token), a.yield = n.token :: t := by
  cases a with
  | bare n => exact ⟨n, _, rfl⟩
  | applied n l options r => exact ⟨n, _, rfl⟩

/-- An attribute is found again unless a parenthesis opens behind it. -/
theorem AttributeTree.decodes (a : AttributeTree) :
    Decodes AttributeTree.yield (Without .lparen) a := by
  intro b r r' hr hr' he
  cases a with
  | bare n =>
    cases b with
    | bare n' => simpa [AttributeTree.yield] using he
    | applied n' l' options' q' =>
      simp only [AttributeTree.yield, List.cons_append, List.nil_append, List.cons.injEq] at he
      exact absurd he.2 (hr _ _)
  | applied n l options q =>
    cases b with
    | bare n' =>
      simp only [AttributeTree.yield, List.cons_append, List.nil_append, List.cons.injEq] at he
      exact absurd he.2.symm (hr' _ _)
    | applied n' l' options' q' =>
      simp only [AttributeTree.yield, List.cons_append, List.nil_append, List.append_assoc,
        List.cons.injEq, Name.token_inj, mark_inj, true_and] at he
      obtain ⟨rfl, rfl, he⟩ := he
      have close : ∀ p t, Ending (fun _ => True) (mark .rparen p :: t) := fun p t =>
        ending_mark trivial (by decide)
      obtain ⟨rfl, hrest⟩ := Separated.decodes (fun _ _ => trivial) OptionTree.yield_name
        (Separated.all_of_forall OptionTree.decodes options) options' _ _ (close q r)
        (close q' r') he
      simp only [List.cons.injEq, mark_inj, true_and] at hrest
      exact ⟨by rw [hrest.1], hrest.2⟩

theorem AttributesTree.decodes (as : AttributesTree) :
    Decodes AttributesTree.yield (fun _ => True) as := by
  intro bs r r' _ _ he
  obtain ⟨h, l, as, q⟩ := as
  obtain ⟨h', l', bs, q'⟩ := bs
  simp only [AttributesTree.yield, List.cons_append, List.nil_append, List.append_assoc,
    List.cons.injEq, mark_inj, true_and] at he
  obtain ⟨rfl, rfl, he⟩ := he
  have close : ∀ p t, Ending (Without .lparen) (mark .rbracket p :: t) := fun p t =>
    ending_mark (without_mark (by decide) p t) (by decide)
  obtain ⟨rfl, hrest⟩ := Separated.decodes (without_mark (by decide)) AttributeTree.yield_name
    (Separated.all_of_forall AttributeTree.decodes as) bs _ _ (close q r) (close q' r') he
  simp only [List.cons.injEq, mark_inj, true_and] at hrest
  exact ⟨by rw [hrest.1], hrest.2⟩

/-! ## Signatures -/

theorem ParameterTree.yield_name (p : ParameterTree) :
    ∃ (n : Name) (t : List Token), p.yield = n.token :: t :=
  ⟨p.name, _, rfl⟩

theorem ParameterTree.decodes (p : ParameterTree) :
    Decodes ParameterTree.yield (Without .lbracket) p := by
  intro b r r' hr hr' he
  obtain ⟨n, c, t⟩ := p
  obtain ⟨n', c', t'⟩ := b
  simp only [ParameterTree.yield, List.cons_append, List.cons.injEq, Name.token_inj, mark_inj,
    true_and] at he
  obtain ⟨rfl, rfl, he⟩ := he
  obtain ⟨rfl, hrest⟩ := t.decodes t' r r' hr hr' he
  exact ⟨rfl, hrest⟩

/-- A list of parameters is found again where it ends. -/
theorem ParameterTree.list_decodes (ps : Separated ParameterTree) :
    Decodes (Separated.yield ParameterTree.yield) (Ending (Without .lbracket)) ps :=
  Separated.decodes (without_mark (by decide)) ParameterTree.yield_name
    (Separated.all_of_forall ParameterTree.decodes ps)

/-- The closing parenthesis ends a list of parameters or types, also behind a trailing comma. -/
theorem ending_rparen (p : Position) (t : List Token) :
    Ending (Without .lbracket) (mark .rparen p :: t) :=
  ending_mark (without_mark (by decide) p t) (by decide)

theorem ending_comma_rparen (c p : Position) (t : List Token) :
    Ending (Without .lbracket) (mark .comma c :: mark .rparen p :: t) :=
  ending_comma (without_mark (by decide) c _)

/-- What stands between the parentheses is found again from the closing one. -/
theorem ParametersTree.decodes (ps : ParametersTree) :
    Decodes ParametersTree.yield (Starting .rparen) ps := by
  -- a list cannot be taken for the closing parenthesis
  have open_ : ∀ (ps : Separated ParameterTree) (r : List Token) (p : Position) (t : List Token),
      ps.yield ParameterTree.yield ++ r ≠ mark .rparen p :: t := by
    intro ps r p t he
    obtain ⟨n, u, hn⟩ := Separated.yield_name ParameterTree.yield_name ps
    rw [hn] at he
    exact name_ne_mark (List.cons.inj he).1
  rintro b r r' ⟨p, t, rfl⟩ ⟨p', t', rfl⟩ he
  cases ps with
  | list ps =>
    cases b with
    | list ps' =>
      obtain ⟨rfl, hrest⟩ := ParameterTree.list_decodes ps ps' _ _ (ending_rparen p t)
        (ending_rparen p' t') he
      exact ⟨rfl, hrest⟩
    | listComma ps' c' =>
      simp only [ParametersTree.yield, List.append_assoc, List.cons_append,
        List.nil_append] at he
      have hrest := (ParameterTree.list_decodes ps ps' _ _ (ending_rparen p t)
        (ending_comma_rparen c' p' t') he).2
      simp at hrest
    | empty => exact absurd he (open_ ps _ _ _)
  | listComma ps c =>
    simp only [ParametersTree.yield, List.append_assoc, List.cons_append, List.nil_append] at he
    cases b with
    | list ps' =>
      have hrest := (ParameterTree.list_decodes ps ps' _ _ (ending_comma_rparen c p t)
        (ending_rparen p' t') he).2
      simp at hrest
    | listComma ps' c' =>
      simp only [List.append_assoc, List.cons_append, List.nil_append] at he
      obtain ⟨rfl, hrest⟩ := ParameterTree.list_decodes ps ps' _ _ (ending_comma_rparen c p t)
        (ending_comma_rparen c' p' t') he
      obtain ⟨hc, hrest⟩ := List.cons.inj hrest
      exact ⟨by rw [(mark_inj.mp hc).2], hrest⟩
    | empty => exact absurd he (open_ ps _ _ _)
  | empty =>
    cases b with
    | list ps' => exact absurd he.symm (open_ ps' _ _ _)
    | listComma ps' c' =>
      simp only [ParametersTree.yield, List.append_assoc] at he
      exact absurd he.symm (open_ ps' _ _ _)
    | empty => exact ⟨rfl, he⟩

/-- The outputs are found again from the opening brace behind them. -/
theorem ReturnsTree.decodes (os : ReturnsTree) :
    Decodes ReturnsTree.yield (Starting .lbrace) os := by
  rintro b r r' ⟨p, t, rfl⟩ ⟨p', t', rfl⟩ he
  cases os with
  | list a l q types q₁ q₂ =>
    cases b with
    | list a' l' q' types' q₁' q₂' =>
      simp only [ReturnsTree.yield, List.cons_append, List.nil_append, List.append_assoc,
        List.cons.injEq, mark_inj, true_and] at he
      obtain ⟨rfl, rfl, rfl, he⟩ := he
      obtain ⟨rfl, hrest⟩ := TypeTree.list_decodes types types' _ _ (ending_rparen q₁ _)
        (ending_rparen q₁' _) he
      simp only [List.cons.injEq, mark_inj, true_and] at hrest
      obtain ⟨rfl, rfl, hrest⟩ := hrest
      exact ⟨rfl, by rw [hrest.1, hrest.2]⟩
    | listComma a' l' q' types' c' q₁' q₂' =>
      simp only [ReturnsTree.yield, List.cons_append, List.nil_append, List.append_assoc,
        List.cons.injEq] at he
      have hrest := (TypeTree.list_decodes types types' _ _ (ending_rparen q₁ _)
        (ending_comma_rparen c' q₁' _) he.2.2.2).2
      simp at hrest
    | empty => simp [ReturnsTree.yield] at he
  | listComma a l q types c q₁ q₂ =>
    cases b with
    | list a' l' q' types' q₁' q₂' =>
      simp only [ReturnsTree.yield, List.cons_append, List.nil_append, List.append_assoc,
        List.cons.injEq] at he
      have hrest := (TypeTree.list_decodes types types' _ _ (ending_comma_rparen c q₁ _)
        (ending_rparen q₁' _) he.2.2.2).2
      simp at hrest
    | listComma a' l' q' types' c' q₁' q₂' =>
      simp only [ReturnsTree.yield, List.cons_append, List.nil_append, List.append_assoc,
        List.cons.injEq, mark_inj, true_and] at he
      obtain ⟨rfl, rfl, rfl, he⟩ := he
      obtain ⟨rfl, hrest⟩ := TypeTree.list_decodes types types' _ _ (ending_comma_rparen c q₁ _)
        (ending_comma_rparen c' q₁' _) he
      simp only [List.cons.injEq, mark_inj, true_and] at hrest
      obtain ⟨rfl, rfl, rfl, hrest⟩ := hrest
      exact ⟨rfl, by rw [hrest.1, hrest.2]⟩
    | empty => simp [ReturnsTree.yield] at he
  | empty =>
    cases b with
    | list a' l' q' types' q₁' q₂' => simp [ReturnsTree.yield] at he
    | listComma a' l' q' types' c' q₁' q₂' => simp [ReturnsTree.yield] at he
    | empty => exact ⟨rfl, he⟩

theorem SignatureTree.decodes (s : SignatureTree) :
    Decodes SignatureTree.yield (fun _ => True) s := by
  intro b r r' _ _ he
  obtain ⟨n, l, ps, q, os, lb, st, rb⟩ := s
  obtain ⟨n', l', ps', q', os', lb', st', rb'⟩ := b
  simp only [SignatureTree.yield, List.cons_append, List.nil_append, List.append_assoc,
    List.cons.injEq, Name.token_inj, mark_inj, true_and] at he
  obtain ⟨rfl, rfl, he⟩ := he
  obtain ⟨rfl, hps⟩ := ps.decodes ps' _ _ ⟨_, _, rfl⟩ ⟨_, _, rfl⟩ he
  obtain ⟨hq, hps⟩ := List.cons.inj hps
  obtain ⟨rfl, hos⟩ := os.decodes os' _ _ ⟨_, _, rfl⟩ ⟨_, _, rfl⟩ hps
  simp only [List.cons.injEq, mark_inj, Literal.token_inj, true_and] at hos
  obtain ⟨rfl, rfl, rfl, hrest⟩ := hos
  exact ⟨by rw [(mark_inj.mp hq).2], hrest⟩

/-! ## Books -/

theorem DeclarationTree.decodes (d : DeclarationTree) :
    Decodes DeclarationTree.yield (fun _ => True) d := by
  intro b r r' _ _ he
  cases d with
  | attributed as s =>
    cases b with
    | attributed as' s' =>
      simp only [DeclarationTree.yield, List.append_assoc] at he
      obtain ⟨rfl, hs⟩ := as.decodes as' _ _ trivial trivial he
      obtain ⟨rfl, hrest⟩ := s.decodes s' _ _ trivial trivial hs
      exact ⟨rfl, hrest⟩
    | bare s' =>
      simp [DeclarationTree.yield, AttributesTree.yield, SignatureTree.yield] at he
  | bare s =>
    cases b with
    | attributed as' s' =>
      simp [DeclarationTree.yield, AttributesTree.yield, SignatureTree.yield] at he
    | bare s' =>
      obtain ⟨rfl, hrest⟩ := s.decodes s' _ _ trivial trivial he
      exact ⟨rfl, hrest⟩

theorem DeclarationTree.yield_ne_nil (d : DeclarationTree) : d.yield ≠ [] := by
  cases d with
  | attributed as s => simp [DeclarationTree.yield, AttributesTree.yield]
  | bare s => simp [DeclarationTree.yield, SignatureTree.yield]

/-- The declarations of a book as a list. -/
def DeclarationsTree.toList : DeclarationsTree → List DeclarationTree
  | single d => [d]
  | more ds d => ds.toList ++ [d]

theorem DeclarationsTree.toList_ne_nil (ds : DeclarationsTree) : ds.toList ≠ [] := by
  cases ds with
  | single d => simp [DeclarationsTree.toList]
  | more ds d => simp [DeclarationsTree.toList]

theorem DeclarationsTree.yield_eq (ds : DeclarationsTree) :
    ds.yield = ds.toList.flatMap DeclarationTree.yield := by
  induction ds with
  | single d => simp [DeclarationsTree.yield, DeclarationsTree.toList]
  | more ds d ih => simp [DeclarationsTree.yield, DeclarationsTree.toList, ih]

theorem DeclarationsTree.toList_injective {ds ds' : DeclarationsTree}
    (h : ds.toList = ds'.toList) : ds = ds' := by
  induction ds generalizing ds' with
  | single d =>
    cases ds' with
    | single d' => rw [(List.cons.inj h).1]
    | more ds' d' =>
      have hnil : ds'.toList = [] := (List.append_eq_singleton_iff.mp h.symm).elim
        And.left (fun h => absurd h.2 (by simp))
      exact absurd hnil ds'.toList_ne_nil
  | more ds d ih =>
    cases ds' with
    | single d' =>
      have hnil : ds.toList = [] := (List.append_eq_singleton_iff.mp h).elim
        And.left (fun h => absurd h.2 (by simp))
      exact absurd hnil ds.toList_ne_nil
    | more ds' d' =>
      obtain ⟨hinit, hlast⟩ := List.append_inj' h rfl
      rw [show ds = ds' from ih hinit, (List.cons.inj hlast).1]

/-- Declarations are found again one after the other, since each shows where it ends. -/
theorem flatMap_yield_injective : ∀ {l l' : List DeclarationTree},
    l.flatMap DeclarationTree.yield = l'.flatMap DeclarationTree.yield → l = l' := by
  intro l
  induction l with
  | nil =>
    intro l' h
    cases l' with
    | nil => rfl
    | cons d' l' =>
      rw [List.flatMap_cons] at h
      exact absurd (List.append_eq_nil_iff.mp h.symm).1 d'.yield_ne_nil
  | cons d l ih =>
    intro l' h
    rw [List.flatMap_cons] at h
    cases l' with
    | nil => exact absurd (List.append_eq_nil_iff.mp h).1 d.yield_ne_nil
    | cons d' l' =>
      rw [List.flatMap_cons] at h
      obtain ⟨hd, hrest⟩ := d.decodes d' _ _ trivial trivial h
      rw [hd, ih hrest]

/-- **A token sequence has at most one derivation.** -/
theorem UnitTree.yield_injective {u u' : UnitTree} (h : u.yield = u'.yield) : u = u' := by
  have nonempty : ∀ ds : DeclarationsTree, ds.yield ≠ [] := by
    intro ds
    rw [DeclarationsTree.yield_eq]
    obtain ⟨d, l, hl⟩ := List.exists_cons_of_ne_nil ds.toList_ne_nil
    rw [hl, List.flatMap_cons]
    intro he
    exact d.yield_ne_nil (List.append_eq_nil_iff.mp he).1
  cases u with
  | list ds =>
    cases u' with
    | list ds' =>
      rw [UnitTree.yield, UnitTree.yield, DeclarationsTree.yield_eq,
        DeclarationsTree.yield_eq] at h
      rw [DeclarationsTree.toList_injective (flatMap_yield_injective h)]
    | empty => exact absurd h (nonempty ds)
  | empty =>
    cases u' with
    | list ds' => exact absurd h.symm (nonempty ds')
    | empty => rfl

end Grammar

end QueryBook
