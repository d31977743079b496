import QueryBook.Proofs.Code.Built
import QueryBook.Proofs.Session.Sending
import Mathlib.Data.List.Nodup

/-!
# Named parameters reach the driver

A statement with named parameters is rewritten twice before the driver sees it: names become
positions when the code is generated, and positions become places of a template when it is run.
The two scanners know nothing of each other. Here the way from the statement to the template is
stated without either of them: `Bound` replaces markers by places, doubles percent signs and copies
the rest. On a statement without quotes and dollar signs both together do just this.

What makes it work is what can stand behind a position. The marker ended where its identifier did,
so the next character is no letter and no digit, and a position is read back as it was written.
Nor does a position start a dollar quotation, because a tag does not begin with a digit.
-/

namespace QueryBook.Binding

open Placeholder Template

/-! ## What the driver should get -/

/-- An identifier. -/
def IsIdentifier (name : List Char) : Prop :=
  (∃ c, name.head? = some c ∧ isStart c = true) ∧ ∀ c ∈ name, Text.isWord c = true

/-- A text that does not continue an identifier. -/
def Ends (rest : List Char) : Prop := ∀ c, rest.head? = some c → Text.isWord c = false

/-- A text that starts with the marker of a declared parameter. -/
def Marked (names : List String) (cs : List Char) : Prop :=
  ∃ name rest, cs = ':' :: (name ++ rest) ∧ IsIdentifier name ∧ Ends rest ∧
    String.ofList name ∈ names

/-- What the parameter at index `i` is called in a template. -/
def key (i : Nat) : String := "p" ++ toString (i + 1)

/-- The place for a parameter in a template. -/
def place (i : Nat) : List Char := "%(".toList ++ (key i).toList ++ ")s".toList

/-- `Bound names sql out`: the template `out` is the statement `sql` with the markers of declared
parameters replaced, percent signs doubled and every other character as it is. -/
inductive Bound (names : List String) : List Char → List Char → Prop where
  | done : Bound names [] []
  | marker {name rest out : List Char} {i : Nat} : IsIdentifier name → Ends rest →
      names[i]? = some (String.ofList name) → Bound names rest out →
      Bound names (':' :: (name ++ rest)) (place i ++ out)
  | percent {rest out : List Char} : Bound names rest out →
      Bound names ('%' :: rest) ('%' :: '%' :: out)
  | copy {c : Char} {rest out : List Char} : c ≠ '%' → ¬ Marked names (c :: rest) →
      Bound names rest out → Bound names (c :: rest) (c :: out)

/-- The keys of the places in a template, as the driver reads them. -/
def placeholders : List Char → List String
  | [] => []
  | '%' :: '%' :: rest => placeholders rest
  | '%' :: '(' :: rest =>
    .ofList (rest.takeWhile (· ≠ ')')) :: placeholders (rest.dropWhile (· ≠ ')'))
  | _ :: rest => placeholders rest
termination_by cs => cs.length
decreasing_by
  all_goals simp only [List.length_cons]
  · omega
  · exact Nat.lt_succ_of_lt (Nat.lt_succ_of_le (List.dropWhile_suffix _).length_le)
  · omega

/-! ## Identifiers -/

theorem toNat_of_isDigit {c : Char} (h : c.isDigit = true) : 48 ≤ c.toNat ∧ c.toNat ≤ 57 := by
  simp only [Char.isDigit, Bool.and_eq_true, decide_eq_true_eq, ge_iff_le,
    UInt32.le_iff_toNat_le] at h
  exact h

theorem isWord_of_isDigit {c : Char} (h : c.isDigit = true) : Text.isWord c = true := by
  have hranges : Text.alphanumericRanges = (48, 57) :: Text.alphanumericRanges.tail := rfl
  obtain ⟨hlo, hhi⟩ := toNat_of_isDigit h
  rw [Text.isWord, Text.isAlphanumeric, hranges, Text.Ranges.contains, if_neg (by omega),
    if_pos hhi, Bool.or_true]

theorem ne_of_isWord {c d : Char} (hc : Text.isWord c = true) (hd : Text.isWord d = false) :
    c ≠ d := by
  rintro rfl
  rw [hc] at hd
  cases hd

theorem IsIdentifier.ne_nil {name : List Char} (h : IsIdentifier name) : name ≠ [] := by
  rintro rfl
  obtain ⟨⟨c, hc, _⟩, _⟩ := h
  cases hc

theorem takeWhile_append_ends {p : Char → Bool} {cs rest : List Char}
    (hcs : ∀ c ∈ cs, p c = true) (hrest : ∀ c, rest.head? = some c → p c = false) :
    (cs ++ rest).takeWhile p = cs := by
  rw [List.takeWhile_append_of_pos hcs]
  cases rest with
  | nil => simp
  | cons c rest => simp [hrest c rfl]

theorem dropWhile_append_ends {p : Char → Bool} {cs rest : List Char}
    (hcs : ∀ c ∈ cs, p c = true) (hrest : ∀ c, rest.head? = some c → p c = false) :
    (cs ++ rest).dropWhile p = rest := by
  rw [List.dropWhile_append_of_pos hcs]
  cases rest with
  | nil => rfl
  | cons c rest => simp [hrest c rfl]

/-- The longest identifier is the one behind which none continues. -/
theorem identifier_append {name rest : List Char} (h : IsIdentifier name) (hrest : Ends rest) :
    identifier (name ++ rest) = name := by
  obtain ⟨⟨c, hc, hstart⟩, hword⟩ := h
  cases name with
  | nil => cases hc
  | cons d name =>
    cases hc
    rw [List.cons_append, identifier, if_pos hstart, ← List.cons_append,
      takeWhile_append_ends hword hrest]

theorem exists_identifier {cs : List Char} (h : identifier cs ≠ []) :
    ∃ name rest, cs = name ++ rest ∧ IsIdentifier name ∧ Ends rest := by
  cases cs with
  | nil => exact absurd rfl h
  | cons c cs =>
    by_cases hstart : isStart c = true
    · refine ⟨(c :: cs).takeWhile Text.isWord, (c :: cs).dropWhile Text.isWord,
        List.takeWhile_append_dropWhile.symm, ⟨⟨c, ?_, hstart⟩, fun d hd => ?_⟩, ?_⟩
      · rw [List.takeWhile_cons, (Bool.and_eq_true_iff.mp hstart).1]
        rfl
      · exact List.all_eq_true.mp List.all_takeWhile d hd
      · intro d hd
        have hnot := List.head?_dropWhile_not Text.isWord (c :: cs)
        rw [hd] at hnot
        exact hnot
    · exact absurd (by rw [identifier, if_neg hstart]) h

theorem marked_iff {names : List String} {cs : List Char} :
    Marked names (':' :: cs) ↔ identifier cs ≠ [] ∧ String.ofList (identifier cs) ∈ names := by
  constructor
  · rintro ⟨name, rest, hcs, hname, hrest, hmem⟩
    cases hcs
    rw [identifier_append hname hrest]
    exact ⟨hname.ne_nil, hmem⟩
  · rintro ⟨hne, hmem⟩
    obtain ⟨name, rest, rfl, hname, hrest⟩ := exists_identifier hne
    rw [identifier_append hname hrest] at hmem
    exact ⟨name, rest, rfl, hname, hrest, hmem⟩

theorem not_marked_of_ne {names : List String} {c : Char} {cs : List Char} (h : c ≠ ':') :
    ¬ Marked names (c :: cs) := by
  rintro ⟨name, rest, hcs, _⟩
  cases hcs
  exact h rfl

/-! ## There is one such template -/

/-- **A statement is bound in one way.** -/
theorem Bound.unique {names : List String} (hnames : names.Nodup) {sql out out' : List Char}
    (h : Bound names sql out) (h' : Bound names sql out') : out = out' := by
  induction h generalizing out' with
  | done => cases h' with | done => rfl
  | @marker name rest out i hname hrest hi _ ih =>
    have hmarked : Marked names (':' :: (name ++ rest)) :=
      ⟨name, rest, rfl, hname, hrest, List.mem_of_getElem? hi⟩
    generalize hsql : ':' :: (name ++ rest) = sql at h'
    cases h' with
    | done => cases hsql
    | @marker name' rest' out' j hname' hrest' hj hout' =>
      have hcs := List.cons.inj hsql |>.2
      -- both markers go as far as the identifier does
      have hsame : name = name' := by
        rw [← identifier_append hname hrest, hcs, identifier_append hname' hrest']
      subst hsame
      obtain rfl := List.append_cancel_left hcs
      have hij : i = j := by
        obtain ⟨hlt, _⟩ := List.getElem?_eq_some_iff.mp hi
        exact (List.getElem?_inj hlt hnames).mp (hi.trans hj.symm)
      rw [hij, ih hout']
    | percent _ => cases hsql
    | copy _ hnot _ => exact absurd (hsql ▸ hmarked) hnot
  | percent _ ih =>
    cases h' with
    | percent hout' => rw [ih hout']
    | copy hc _ _ => exact absurd rfl hc
  | @copy c rest out hc hnot _ ih =>
    generalize hsql : c :: rest = sql at h'
    cases h' with
    | done => cases hsql
    | @marker name' rest' out' j hname' hrest' hj _ =>
      exact absurd ⟨name', rest', hsql, hname', hrest', List.mem_of_getElem? hj⟩ hnot
    | percent _ =>
      cases hsql
      exact absurd rfl hc
    | copy _ _ hout' =>
      cases hsql
      rw [ih hout']

/-! ## Templates of a statement with positions -/

/-- A character that no quotation starts with. -/
def Plain (c : Char) : Prop := c ≠ '\'' ∧ c ≠ '"' ∧ c ≠ '$'

theorem isTagStart_of_isDigit {c : Char} (h : c.isDigit = true) : isTagStart c = false := by
  have hdigits : ∀ n ≤ 57, 48 ≤ n → isTagStart (Char.ofNat n) = false := by decide
  obtain ⟨hlo, hhi⟩ := toNat_of_isDigit h
  rw [← Char.ofNat_toNat c]
  exact hdigits c.toNat hhi hlo

theorem ofStatement_plain {c : Char} (h : Plain c) (cs : List Char) :
    Template.ofStatement (c :: cs) = doublePercent [c] ++ Template.ofStatement cs := by
  obtain ⟨h₁, h₂, h₃⟩ := h
  rw [Template.ofStatement, segments]
  simp [Template.segment, h₁, h₂, h₃, Segment.render, Template.ofStatement]

/-- A position is read back as it was written, as long as no digit follows. -/
theorem ofStatement_position {digits rest : List Char} (hne : digits ≠ [])
    (hdigits : ∀ c ∈ digits, c.isDigit = true)
    (hrest : ∀ c, rest.head? = some c → c.isDigit = false) :
    Template.ofStatement ('$' :: (digits ++ rest)) =
      "%(p".toList ++ digits ++ ")s".toList ++ Template.ofStatement rest := by
  have htake : (digits ++ rest).takeWhile Char.isDigit = digits :=
    takeWhile_append_ends hdigits hrest
  obtain ⟨d, ds, rfl⟩ := List.exists_cons_of_ne_nil hne
  have hd := hdigits d List.mem_cons_self
  have hdollar : d ≠ '$' := by
    rintro rfl
    cases hd
  -- a tag does not begin with a digit, and a digit is no dollar sign
  have hquote : dollarQuotation (d :: ds ++ rest) = none := by
    simp [dollarQuotation, tag, isTagStart_of_isDigit hd, hdollar]
  have hsegment : Template.segment '$' (d :: ds ++ rest) =
      (.parameter (d :: ds), (d :: ds).length) := by
    rw [Template.segment, if_neg (by decide), if_pos rfl, hquote]
    simp only [htake]
  rw [Template.ofStatement, segments, hsegment, List.drop_left]
  simp [Segment.render, Template.ofStatement]

/-! ## Both scanners together -/

/-- The statement behind the generated code: every piece resolved. -/
def resolved (names : List String) (afterColon : Bool) (cs : List Char) : List Char :=
  (pieces afterColon cs).flatMap (Piece.resolve (names.map String.toList))

theorem position?_eq_some {names : List String} {name : List Char} {n : Nat}
    (h : position? (names.map String.toList) name = some n) :
    ∃ i, n = i + 1 ∧ names[i]? = some (String.ofList name) := by
  obtain ⟨i, hi, rfl⟩ := Option.map_eq_some_iff.mp h
  obtain ⟨hlt, hget, _⟩ := List.idxOf?_eq_some_iff.mp hi
  refine ⟨i, rfl, ?_⟩
  rw [List.length_map] at hlt
  rw [List.getElem_map] at hget
  rw [List.getElem?_eq_getElem hlt, ← hget, String.ofList_toList]

theorem position?_eq_none {names : List String} {name : List Char}
    (h : position? (names.map String.toList) name = none) : String.ofList name ∉ names := by
  intro hmem
  have hnot := List.idxOf?_eq_none_iff.mp (Option.map_eq_none_iff.mp h)
  exact hnot (List.mem_map.mpr ⟨_, hmem, String.toList_ofList⟩)

theorem resolved_char {names : List String} {c : Char} (h : c ≠ ':') (b : Bool) (cs : List Char) :
    resolved names b (c :: cs) = c :: resolved names false cs := by
  rw [resolved, pieces, if_neg h]
  rfl

theorem resolved_colon {names : List String} {cs : List Char} (h : identifier cs = []) (b : Bool) :
    resolved names b (':' :: cs) = ':' :: resolved names true cs := by
  rw [resolved, pieces, if_pos rfl, h]
  rfl

theorem resolved_marker {names : List String} {name rest : List Char} (hname : IsIdentifier name)
    (hrest : Ends rest) (b : Bool) :
    resolved names b (':' :: (name ++ rest)) =
      Piece.resolve (names.map String.toList) (.marker name b) ++ resolved names false rest := by
  rw [resolved, pieces, if_pos rfl, identifier_append hname hrest]
  split
  · exact absurd rfl hname.ne_nil
  · rw [List.flatMap_cons, List.drop_left]
    rfl

/-- No digit comes of a text that does not continue an identifier. -/
theorem resolved_head {names : List String} {cs : List Char} (h : Ends cs) (b : Bool) :
    ∀ c, (resolved names b cs).head? = some c → c.isDigit = false := by
  intro d hd
  cases cs with
  | nil =>
    rw [resolved, pieces] at hd
    cases hd
  | cons c cs =>
    by_cases hc : c = ':'
    · subst hc
      by_cases hid : identifier cs = []
      · rw [resolved_colon hid] at hd
        cases hd
        rfl
      · obtain ⟨name, rest, rfl, hname, hrest⟩ := exists_identifier hid
        rw [resolved_marker hname hrest, Piece.resolve] at hd
        split at hd <;> cases hd <;> rfl
    · rw [resolved_char hc] at hd
      cases hd
      refine Bool.eq_false_iff.mpr fun hdigit => ?_
      exact ne_of_isWord (isWord_of_isDigit hdigit) (h d rfl) rfl

/-- A character that starts no marker is copied, or doubled. -/
theorem Bound.char {names : List String} {c : Char} {rest out : List Char}
    (hnot : ¬ Marked names (c :: rest)) (h : Bound names rest out) :
    Bound names (c :: rest) (doublePercent [c] ++ out) := by
  by_cases hc : c = '%'
  · subst hc
    exact .percent h
  · simpa [doublePercent, hc] using Bound.copy hc hnot h

/-- A word is copied. -/
theorem Bound.word {names : List String} {name rest out : List Char}
    (h : Bound names rest out) (hname : ∀ c ∈ name, Text.isWord c = true) :
    Bound names (name ++ rest) (name ++ out) := by
  induction name with
  | nil => exact h
  | cons c name ih =>
    have hc := hname c List.mem_cons_self
    refine .copy (ne_of_isWord hc (by decide)) (not_marked_of_ne (ne_of_isWord hc (by decide))) ?_
    exact ih fun d hd => hname d (List.mem_cons_of_mem _ hd)

/-- A word goes through the template as it is. -/
theorem ofStatement_word {name : List Char} (hword : ∀ c ∈ name, Text.isWord c = true)
    (hplain : ∀ c ∈ name, Plain c) (cs : List Char) :
    Template.ofStatement (name ++ cs) = name ++ Template.ofStatement cs := by
  induction name with
  | nil => rfl
  | cons c name ih =>
    have hc : c ≠ '%' := ne_of_isWord (hword c List.mem_cons_self) (by decide)
    rw [List.cons_append, ofStatement_plain (hplain c List.mem_cons_self),
      ih (fun d hd => hword d (List.mem_cons_of_mem _ hd))
        (fun d hd => hplain d (List.mem_cons_of_mem _ hd))]
    simp [doublePercent, hc]

theorem key_toList (i : Nat) : (key i).toList = 'p' :: Nat.toDigits 10 (i + 1) := by
  simp [key, Nat.toString_eq_repr]

/-- The place of a parameter is what its position becomes. -/
theorem ofStatement_resolve_position {i : Nat} {rest : List Char}
    (hrest : ∀ c, rest.head? = some c → c.isDigit = false) :
    Template.ofStatement ('$' :: (Nat.toDigits 10 (i + 1) ++ rest)) =
      place i ++ Template.ofStatement rest := by
  rw [ofStatement_position Nat.toDigits_ne_nil
    (fun c hc => Nat.isDigit_of_mem_toDigits (by decide) (by decide) hc) hrest]
  simp [place, key_toList]

/-- **The template of the resolved statement is the bound one.** -/
theorem bound_resolved (names : List String) (b : Bool) (cs : List Char)
    (h : ∀ c ∈ cs, Plain c) : Bound names cs (Template.ofStatement (resolved names b cs)) := by
  fun_induction pieces b cs with
  | case1 b =>
    rw [resolved, pieces, List.flatMap_nil, Template.ofStatement, segments]
    exact .done
  | case2 b cs hid ih =>
    rw [resolved_colon hid, ofStatement_plain (h _ List.mem_cons_self)]
    refine Bound.char (fun hmarked => (marked_iff.mp hmarked).1 hid) ?_
    exact ih fun c hc => h c (List.mem_cons_of_mem _ hc)
  | case3 b cs hid ih =>
    obtain ⟨name, rest, rfl, hname, hrest⟩ := exists_identifier hid
    rw [identifier_append hname hrest, List.drop_left] at ih
    have hout := ih fun c hc => h c (by simp [hc])
    rw [resolved_marker hname hrest, Piece.resolve]
    split
    · rename_i n hn
      obtain ⟨i, rfl, hi⟩ := position?_eq_some hn
      rw [List.cons_append, ofStatement_resolve_position (resolved_head hrest false)]
      exact .marker hname hrest hi hout
    · rename_i hn
      -- an undeclared marker is copied with its colon, character by character
      have hplain : ∀ c ∈ name, Plain c := fun c hc => h c (by simp [hc])
      rw [List.cons_append, ofStatement_plain (h _ List.mem_cons_self),
        ofStatement_word hname.2 hplain]
      refine Bound.char (fun hmarked => ?_) (hout.word hname.2)
      have hmem := (marked_iff.mp hmarked).2
      rw [identifier_append hname hrest] at hmem
      exact position?_eq_none hn hmem
  | case4 b c cs hc ih =>
    rw [resolved_char hc, ofStatement_plain (h c List.mem_cons_self)]
    refine Bound.char (not_marked_of_ne hc) ?_
    exact ih fun d hd => h d (List.mem_cons_of_mem _ hd)

/-! ## Keys and arguments -/

theorem key_injective : Function.Injective key := by
  intro i j h
  have hdigits : Nat.toDigits 10 (i + 1) = Nat.toDigits 10 (j + 1) := by
    have hlists := congrArg String.toList h
    rw [key_toList, key_toList] at hlists
    exact (List.cons.inj hlists).2
  have hread := congrArg (fun ds => Nat.ofDigitChars 10 ds 0) hdigits
  simpa [Nat.ofDigitChars_toDigits] using hread

theorem numbered_fst (n : Nat) (values : List Value) :
    (Command.numbered (n + 1) values).map Prod.fst = (List.range' n values.length).map key := by
  induction values generalizing n with
  | nil => rfl
  | cons v values ih =>
    rw [Command.numbered, List.map_cons, ih (n + 1)]
    rfl

theorem numbered_snd (n : Nat) (values : List Value) :
    (Command.numbered n values).map Prod.snd = values := by
  induction values generalizing n with
  | nil => rfl
  | cons v values ih => rw [Command.numbered, List.map_cons, ih (n + 1)]

theorem placeholders_cons {c : Char} (h : c ≠ '%') (cs : List Char) :
    placeholders (c :: cs) = placeholders cs := by
  rw [placeholders]
  · rintro _ rfl
    exact absurd rfl h
  · rintro _ rfl
    exact absurd rfl h

theorem ne_paren_of_mem_key {i : Nat} {c : Char} (h : c ∈ (key i).toList) : c ≠ ')' := by
  rw [key_toList] at h
  rcases List.mem_cons.mp h with rfl | h
  · decide
  · rintro rfl
    cases Nat.isDigit_of_mem_toDigits (by decide) (by decide) h

/-- The driver reads the key of a place. -/
theorem placeholders_place (i : Nat) (cs : List Char) :
    placeholders (place i ++ cs) = key i :: placeholders cs := by
  have hkey : ∀ c ∈ (key i).toList, decide (c ≠ ')') = true := fun c hc => by
    simpa using ne_paren_of_mem_key hc
  have hplace : place i ++ cs = '%' :: '(' :: ((key i).toList ++ ')' :: 's' :: cs) := by
    simp [place]
  have htake : ((key i).toList ++ ')' :: 's' :: cs).takeWhile (· ≠ ')') = (key i).toList :=
    takeWhile_append_ends hkey fun c hc => by cases hc; rfl
  have hdrop : ((key i).toList ++ ')' :: 's' :: cs).dropWhile (· ≠ ')') = ')' :: 's' :: cs := by
    rw [List.dropWhile_append_of_pos hkey]
    rfl
  rw [hplace, placeholders, htake, hdrop, String.ofList_toList, placeholders_cons (by decide),
    placeholders_cons (by decide)]

/-- Every place of a bound statement is one of a declared parameter. -/
theorem Bound.placeholders {names : List String} {sql out : List Char} (h : Bound names sql out) :
    ∀ k ∈ placeholders out, ∃ i, i < names.length ∧ k = key i := by
  induction h with
  | done =>
    intro k hk
    rw [Binding.placeholders] at hk
    cases hk
  | @marker name rest out i _ _ hi _ ih =>
    intro k hk
    rw [placeholders_place] at hk
    rcases List.mem_cons.mp hk with rfl | hk
    · exact ⟨i, (List.getElem?_eq_some_iff.mp hi).1, rfl⟩
    · exact ih k hk
  | percent _ ih =>
    rw [Binding.placeholders]
    exact ih
  | copy hc _ _ ih =>
    rw [placeholders_cons hc]
    exact ih

/-! ## Queries with named parameters -/

theorem toPositions_eq_ok {strict : Bool} {query : Option String} {names : List String}
    {sql t : String} (h : toPositions strict query names sql = .ok t) :
    t = .ofList (resolved names false sql.toList) := by
  unfold toPositions at h
  simp only at h
  split at h
  · cases h
  · cases h
    rfl

theorem statementText_named {config : Config} {q : Query} {t : String} (hb : q.backend = .network)
    (hn : q.named = true) (h : (q.backend.statementText config q).outcome = .ok t) :
    t = .ofList (resolved q.parameterNames false q.statement.toList) := by
  unfold Backend.statementText at h
  simp only [hb, hn, Journaled.outcome_bind, Journaled.outcome_lift, Journaled.outcome_log,
    Journaled.outcome_pure] at h
  obtain ⟨text, htext, h⟩ := bind_eq_ok_iff.mp h
  cases h
  exact toPositions_eq_ok (mapError_eq_ok_iff.mp htext)

/-- **Named parameters reach the driver.** The command has the bound statement for its text, there
is no other bound statement, and its arguments are the values under the names of their places. It
is what a query with this statement and these parameters sends. -/
theorem named_parameters_reach_driver {names : List String} {sql : String} {values : List Value}
    (hsql : ∀ c ∈ sql.toList, c ≠ '\'' ∧ c ≠ '"' ∧ c ≠ '$') (hnames : names ≠ [])
    (hnodup : names.Nodup) (hvalues : values.length = names.length) :
    ∃ (statement text : String) (arguments : List (String × Value)),
      (∀ query, toPositions false query names sql = .ok statement) ∧
      (∀ query t, toPositions true query names sql = .ok t → t = statement) ∧
      Command.ofRunnable (.plain statement) values = { text, arguments := .byName arguments } ∧
      Bound names sql.toList text.toList ∧
      (∀ out, Bound names sql.toList out → out = text.toList) ∧
      arguments.map Prod.fst = (List.range names.length).map key ∧
      (arguments.map Prod.fst).Nodup ∧
      arguments.map Prod.snd = values ∧
      (∀ k ∈ placeholders text.toList, k ∈ arguments.map Prod.fst) ∧
      ∀ (config : Config) (q : Query) (t : String), q.backend = .network → q.named = true →
        q.parameterNames = names → q.statement = sql →
        (q.backend.statementText config q).outcome = .ok t →
        ∀ (connection : Nat) (w : World), ∃ w',
          Sends connection { text, arguments := .byName arguments } w w' ∧
          ((∃ n, (Session.execute connection (.plain t) values) w = .ok n w') ∨
            ∃ e, (Session.execute connection (.plain t) values) w = .error e w') := by
  have hbound := bound_resolved names false sql.toList hsql
  have hempty : values.isEmpty = false := by
    cases values with
    | nil => exact absurd (List.length_eq_zero_iff.mp hvalues.symm) hnames
    | cons v values => rfl
  have hkeys : (Command.numbered 1 values).map Prod.fst = (List.range names.length).map key := by
    rw [numbered_fst 0, hvalues, List.range_eq_range']
  have hcommand : ∀ statement : String,
      Command.ofStatement statement values =
        { text := .ofList (Template.ofStatement statement.toList)
          arguments := .byName (Command.numbered 1 values) } := by
    intro statement
    rw [Command.ofStatement, hempty]
    rfl
  refine ⟨.ofList (resolved names false sql.toList),
    .ofList (Template.ofStatement (resolved names false sql.toList)), Command.numbered 1 values,
    fun query => ?_, fun query t h => toPositions_eq_ok h, ?_, ?_, ?_, hkeys, ?_,
    numbered_snd 1 values, ?_, ?_⟩
  · rfl
  · rw [Command.ofRunnable, hcommand, String.toList_ofList]
  · rwa [String.toList_ofList]
  · intro out hout
    rw [String.toList_ofList]
    exact hout.unique hnodup hbound
  · rw [hkeys]
    exact List.nodup_range.map key_injective
  · intro k hk
    rw [String.toList_ofList] at hk
    obtain ⟨i, hi, rfl⟩ := hbound.placeholders k hk
    rw [hkeys]
    exact List.mem_map_of_mem (List.mem_range.mpr hi)
  · rintro config q t hb hn rfl rfl ht connection w
    obtain ⟨w', hsends, -, -, hrun⟩ := Session.execute_sends .network connection (.plain t) values w
    rw [Command.ofRunnable, hcommand, statementText_named hb hn ht, String.toList_ofList] at hsends
    refine ⟨w', hsends, ?_⟩
    obtain ⟨e, -, hrun⟩ | ⟨-, n, hrun⟩ | ⟨-, e, hembedded, -⟩ := hrun
    · exact .inr ⟨e, hrun⟩
    · exact .inl ⟨n, hrun⟩
    · cases hembedded

/-- Markers side by side, a cast that is longer than a declared name, a percent sign and a marker
of no parameter. -/
theorem named_parameters_reach_driver_adjacent :
    Command.ofRunnable (.plain "$1$2::a5 %:c") [.int 7, .null] =
      { text := "%(p1)s%(p2)s::a5 %%:c", arguments := .byName [("p1", .int 7), ("p2", .null)] } ∧
    Bound ["a", "é"] ":a:é::a5 %:c".toList "%(p1)s%(p2)s::a5 %%:c".toList ∧
    ∀ out, Bound ["a", "é"] ":a:é::a5 %:c".toList out → out = "%(p1)s%(p2)s::a5 %%:c".toList := by
  obtain ⟨statement, text, arguments, hpositions, _, hcommand, hbound, hunique, _⟩ :=
    @named_parameters_reach_driver ["a", "é"] ":a:é::a5 %:c" [.int 7, .null]
      (by simp) (by decide) (by decide) rfl
  have hstatement : toPositions false none ["a", "é"] ":a:é::a5 %:c" = .ok "$1$2::a5 %:c" := by
    decide +kernel
  cases (hpositions none).symm.trans hstatement
  have htemplate : String.ofList (Template.ofStatement "$1$2::a5 %:c".toList) =
      "%(p1)s%(p2)s::a5 %%:c" := by decide +kernel
  have htext : Command.ofRunnable (.plain "$1$2::a5 %:c") [.int 7, .null] =
      { text := "%(p1)s%(p2)s::a5 %%:c"
        arguments := .byName [("p1", .int 7), ("p2", .null)] } := by
    rw [← htemplate]
    rfl
  cases hcommand.symm.trans htext
  exact ⟨htext, hbound, hunique⟩

end QueryBook.Binding
