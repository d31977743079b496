import QueryBook.Proofs.Grammar.Layout
import Mathlib.Data.List.TakeWhile

/-!
# Tokens tile the text

What a token, a blank or a comment looks like is said here by rules, one for each form, and without
regard to how a text is cut. The cut is then shown to follow the rules in both directions: the piece
that it finds has one of the forms, and where one of the forms begins it finds a piece, and none
that is shorter than a token beginning there.

So the pieces lie one behind the other from the beginning of the text to the place where the cut
ends, and all that is known of a token is read off its span and the text before it. The position is
carried along by the cut; `Position.behind` computes it anew from the text before it.
-/

namespace QueryBook

/-! ## Positions -/

namespace Position

/-- The position behind a text: one line more than there are line feeds, and the column by the
distance from the last of them, or from the beginning of the text. -/
def behind (before : List Char) : Position :=
  { offset := before.length
    line := before.count '\n' + 1
    column := (before.reverse.takeWhile (· ≠ '\n')).length + 1 }

theorem step_behind (before : List Char) (c : Char) :
    (behind before).step c = behind (before ++ [c]) := by
  unfold step
  by_cases hc : c = '\n'
  · subst hc
    simp [behind]
  · simp [behind, hc, List.count_append]

/-- A position is decided by the text before it. -/
theorem advance_behind (before cs : List Char) :
    (behind before).advance cs = behind (before ++ cs) := by
  unfold advance
  induction cs generalizing before with
  | nil => rw [List.foldl_nil, List.append_nil]
  | cons c cs ih =>
    rw [List.foldl_cons, step_behind, ih, List.append_assoc]
    rfl

theorem start_eq_behind : start = behind [] := rfl

end Position

namespace Token

open Printing (tripledQuote Quoting)

/-! ## Forms -/

/-- A character that separates tokens. -/
def IsBlank (c : Char) : Prop := c = ' ' ∨ c = '\t' ∨ c = '\r' ∨ c = '\n'

/-- Blanks and comments, with `rest` behind them. A comment ends with its line. -/
inductive Gap (rest : List Char) : List Char → Prop where
  | nil : Gap rest []
  | blank {c : Char} {cs : List Char} (hc : IsBlank c) (h : Gap rest cs) : Gap rest (c :: cs)
  | comment {text cs : List Char} (htext : '\n' ∉ text)
      (hend : ∀ c, (cs ++ rest).head? = some c → c = '\n') (h : Gap rest cs) :
      Gap rest ('/' :: '/' :: (text ++ cs))

/-- A character that stands for itself between single quotes. -/
def IsPlain (c : Char) : Prop := c ≠ '"' ∧ c ≠ '\\' ∧ c ≠ '\n'

/-- What is written between single quotes, and the text that it stands for. -/
inductive Unescapes : List Char → List Char → Prop where
  | nil : Unescapes [] []
  | plain {c : Char} {cs ds : List Char} (hc : IsPlain c) (h : Unescapes cs ds) :
      Unescapes (c :: cs) (c :: ds)
  | escape {e c : Char} {cs ds : List Char} (he : escape? e = some c) (h : Unescapes cs ds) :
      Unescapes ('\\' :: e :: cs) (c :: ds)

/-- What can be written between single quotes, also with unknown escapes. -/
inductive Quotable : List Char → Prop where
  | nil : Quotable []
  | plain {c : Char} {cs : List Char} (hc : IsPlain c) (h : Quotable cs) : Quotable (c :: cs)
  | escape {e : Char} {cs : List Char} (he : e ≠ '\n') (h : Quotable cs) :
      Quotable ('\\' :: e :: cs)

/-- The first unknown escape of what is written between single quotes. -/
inductive FirstUnknown : List Char → Char → Prop where
  | here {e : Char} {cs : List Char} (he : escape? e = none) : FirstUnknown ('\\' :: e :: cs) e
  | plain {c e : Char} {cs : List Char} (hc : IsPlain c) (h : FirstUnknown cs e) :
      FirstUnknown (c :: cs) e
  | escape {e c e' : Char} {cs : List Char} (he : escape? e = some c) (h : FirstUnknown cs e') :
      FirstUnknown ('\\' :: e :: cs) e'

/-- How a token is written. -/
inductive Spells : List Char → Lexeme → Prop where
  | mark (m : Mark) : Spells m.spelling.toList (.mark m)
  | name {c : Char} {cs : List Char} (hc : isNameStart c = true)
      (hcs : ∀ d ∈ cs, isNameRest d = true) :
      Spells (c :: cs) (.identifier (.ofList (c :: cs)))
  | tripled {cs : List Char} (h : Quoting.tripled.Fits cs) :
      Spells ('"' :: '"' :: '"' :: (cs ++ tripledQuote)) (.string (.ofList cs))
  | single {cs ds : List Char} (h : Unescapes cs ds) :
      Spells ('"' :: (cs ++ ['"'])) (.string (.ofList ds))

/-- A literal between single quotes, and its first unknown escape. -/
inductive Misspelled : List Char → Char → Prop where
  | single {cs : List Char} {e : Char} (h : Quotable cs) (he : FirstUnknown cs e) :
      Misspelled ('"' :: (cs ++ ['"'])) e

/-! ## Between single quotes -/

theorem Unescapes.quotable {cs ds : List Char} (h : Unescapes cs ds) : Quotable cs := by
  induction h with
  | nil => exact .nil
  | plain hc _ ih => exact .plain hc ih
  | @escape e c _ _ he _ ih =>
    have hne : e ≠ '\n' := by
      rintro rfl
      cases he
    exact .escape hne ih

theorem Unescapes.unescape_eq {cs ds : List Char} (h : Unescapes cs ds) :
    unescape cs = .ok ds := by
  induction h with
  | nil => rfl
  | @plain c cs ds hc _ ih =>
    rw [unescape, ih]
    · rfl
    · intro _ _ heq _
      exact hc.2.1 heq
  | escape he _ ih =>
    rw [unescape, he, ih]
    rfl

theorem FirstUnknown.unescape_eq {cs : List Char} {e : Char} (h : FirstUnknown cs e) :
    unescape cs = .error e := by
  induction h with
  | here he => rw [unescape, he]
  | @plain c e cs hc _ ih =>
    rw [unescape, ih]
    · rfl
    · intro _ _ heq _
      exact hc.2.1 heq
  | escape he _ ih =>
    rw [unescape, he, ih]
    rfl

/-- What is written between single quotes has a meaning, or an unknown escape. -/
theorem Quotable.cases {cs : List Char} (h : Quotable cs) :
    (∃ ds, Unescapes cs ds) ∨ ∃ e, FirstUnknown cs e := by
  induction h with
  | nil => exact .inl ⟨[], .nil⟩
  | plain hc _ ih =>
    rcases ih with ⟨ds, h⟩ | ⟨e, h⟩
    · exact .inl ⟨_, .plain hc h⟩
    · exact .inr ⟨e, .plain hc h⟩
  | @escape e cs _ _ ih =>
    cases he : escape? e with
    | none => exact .inr ⟨e, .here he⟩
    | some c =>
      rcases ih with ⟨ds, h⟩ | ⟨e', h⟩
      · exact .inl ⟨_, .escape he h⟩
      · exact .inr ⟨e', .escape he h⟩

theorem Quotable.head_ne {cs : List Char} (h : Quotable cs) : cs.head? ≠ some '"' := by
  cases h with
  | nil => exact nofun
  | plain hc => simpa using hc.1
  | escape => exact nofun

theorem Quotable.untilQuote_append {cs : List Char} (h : Quotable cs) (rest : List Char) :
    untilQuote (cs ++ '"' :: rest) = some cs := by
  induction h with
  | nil => rfl
  | @plain c cs hc _ ih =>
    obtain ⟨_, hbackslash, hnewline⟩ := hc
    simp [untilQuote, hbackslash, hnewline, ih]
  | escape he _ ih => simp [untilQuote, he, ih]

theorem quotable_of_untilQuote {cs body : List Char} (h : untilQuote cs = some body) :
    Quotable body ∧ ∃ rest, cs = body ++ '"' :: rest := by
  fun_induction untilQuote cs generalizing body with
  | case1 rest =>
    cases h
    exact ⟨.nil, rest, rfl⟩
  | case2 => cases h
  | case3 c cs hc ih =>
    obtain ⟨body, hbody, rfl⟩ := Option.map_eq_some_iff.mp h
    obtain ⟨hquotable, rest, rfl⟩ := ih hbody
    exact ⟨.escape hc hquotable, rest, rfl⟩
  | case4 => cases h
  | case5 c cs hquote _ hc ih =>
    obtain ⟨body, hbody, rfl⟩ := Option.map_eq_some_iff.mp h
    obtain ⟨hquotable, rest, rfl⟩ := ih hbody
    obtain ⟨hbackslash, hnewline⟩ := not_or.mp hc
    exact ⟨.plain ⟨hquote, hbackslash, hnewline⟩ hquotable, rest, rfl⟩
  | case6 => cases h

/-! ## Between tripled quotes -/

theorem fits_of_untilTripledQuote {cs body : List Char} (h : untilTripledQuote cs = some body) :
    Quoting.tripled.Fits body ∧ ∃ rest, cs = body ++ tripledQuote ++ rest := by
  fun_induction untilTripledQuote cs generalizing body with
  | case1 rest =>
    cases h
    exact ⟨fun i hi => absurd hi (Nat.not_lt_zero i), rest, rfl⟩
  | case2 c cs hfirst ih =>
    obtain ⟨body, hbody, rfl⟩ := Option.map_eq_some_iff.mp h
    obtain ⟨hfits, rest, rfl⟩ := ih hbody
    refine ⟨fun i hi => ?_, rest, rfl⟩
    cases i with
    | zero =>
      -- a tripled quote at the beginning would have closed the literal at once
      rintro ⟨inner, hinner⟩
      obtain ⟨hc, htail⟩ := List.cons.inj hinner
      exact hfirst (inner ++ rest) hc.symm (congrArg (· ++ rest) htail.symm)
    | succ i => exact hfits i (Nat.lt_of_succ_lt_succ hi)
  | case3 => cases h

/-! ## Literals -/

/-- A literal between single quotes, by what is found before the closing quote. -/
def plainPiece (body : List Char) : Piece × Nat :=
  match unescape body with
  | .ok text => (.lexeme (.string (.ofList text)), body.length + 1)
  | .error c => (.badEscape c, body.length + 1)

/-- Tripled quotes come first. -/
theorem stringPiece_cases (cs : List Char) :
    (∃ body rest, cs = '"' :: '"' :: (body ++ tripledQuote ++ rest) ∧ Quoting.tripled.Fits body ∧
      stringPiece cs = some (.lexeme (.string (.ofList body)), body.length + 5)) ∨
    ((∀ body rest, Quoting.tripled.Fits body →
        cs ≠ '"' :: '"' :: (body ++ tripledQuote ++ rest)) ∧
      stringPiece cs = (untilQuote cs).map plainPiece) := by
  unfold stringPiece
  dsimp only
  split
  · rename_i inner
    cases hinner : untilTripledQuote inner with
    | some body =>
      obtain ⟨hfits, rest, rfl⟩ := fits_of_untilTripledQuote hinner
      exact .inl ⟨body, rest, rfl, hfits, rfl⟩
    | none =>
      refine .inr ⟨fun body rest hfits heq => ?_, rfl⟩
      cases heq
      rw [Printing.untilTripledQuote_append hfits] at hinner
      cases hinner
  · rename_i hfirst
    exact .inr ⟨fun body rest _ heq => hfirst _ heq, rfl⟩

/-- A piece has the form that it is taken for. -/
def Formed (rest s : List Char) : Piece → Prop
  | .gap => Gap rest s
  | .lexeme l => Spells s l
  | .badEscape e => Misspelled s e

theorem stringPiece_sound {cs : List Char} {piece : Piece} {n : Nat}
    (h : stringPiece cs = some (piece, n)) :
    ∃ s rest, cs = s ++ rest ∧ s.length = n ∧ Formed rest ('"' :: s) piece := by
  rcases stringPiece_cases cs with ⟨body, rest, rfl, hfits, htripled⟩ | ⟨-, hplain⟩
  · cases h.symm.trans htripled
    refine ⟨'"' :: '"' :: (body ++ tripledQuote), rest, by simp, by simp [tripledQuote], ?_⟩
    exact .tripled hfits
  · obtain ⟨body, hbody, hpiece⟩ := Option.map_eq_some_iff.mp (hplain.symm.trans h)
    obtain ⟨hquotable, rest, rfl⟩ := quotable_of_untilQuote hbody
    unfold plainPiece at hpiece
    refine ⟨body ++ ['"'], rest, by simp, ?_⟩
    rcases hquotable.cases with ⟨text, htext⟩ | ⟨e, he⟩
    · rw [htext.unescape_eq] at hpiece
      cases hpiece
      exact ⟨by simp, .single htext⟩
    · rw [he.unescape_eq] at hpiece
      cases hpiece
      exact ⟨by simp, .single hquotable he⟩

/-- What can be written between single quotes, and is followed by two quotes more, is nothing. -/
theorem Quotable.eq_nil {cs rest inner : List Char} (h : Quotable cs)
    (heq : cs ++ '"' :: rest = '"' :: '"' :: inner) : cs = [] := by
  cases cs with
  | nil => rfl
  | cons c cs =>
    have hhead := h.head_ne
    rw [(List.cons.inj heq).1] at hhead
    exact absurd rfl hhead

/-- A literal that begins behind a quote is found, or a longer one. -/
theorem stringPiece_of_spells {s : List Char} {l : Lexeme} (h : Spells ('"' :: s) l)
    (rest : List Char) :
    ∃ l' n, stringPiece (s ++ rest) = some (.lexeme l', n) ∧ s.length ≤ n ∧
      (n = s.length → l = l') := by
  generalize hs : '"' :: s = source at h
  cases h with
  | mark m => cases m <;> cases hs
  | name hc _ =>
    cases hs
    cases hc
  | @tripled cs hfits =>
    cases hs
    refine ⟨.string (.ofList cs), cs.length + 5, ?_, by simp [tripledQuote], fun _ => rfl⟩
    show stringPiece ('"' :: '"' :: (cs ++ tripledQuote ++ rest)) = _
    simp only [stringPiece, Printing.untilTripledQuote_append hfits]
  | @single cs ds hds =>
    cases hs
    rw [List.append_assoc, List.singleton_append]
    rcases stringPiece_cases (cs ++ '"' :: rest) with ⟨body, inner, heq, -, htripled⟩ | ⟨-, hplain⟩
    · refine ⟨_, _, htripled, ?_⟩
      rw [hds.quotable.eq_nil heq]
      show 1 ≤ _ ∧ (_ = 1 → _)
      omega
    · rw [hds.quotable.untilQuote_append, Option.map_some, plainPiece, hds.unescape_eq] at hplain
      exact ⟨_, _, hplain, by simp, fun _ => rfl⟩

theorem stringPiece_of_misspelled {s : List Char} {e : Char} (h : Misspelled ('"' :: s) e)
    (rest : List Char) : stringPiece (s ++ rest) = some (.badEscape e, s.length) := by
  generalize hs : '"' :: s = source at h
  cases h with
  | @single cs e hquotable he =>
    cases hs
    rw [List.append_assoc, List.singleton_append]
    rcases stringPiece_cases (cs ++ '"' :: rest) with ⟨body, inner, heq, -, -⟩ | ⟨-, hplain⟩
    · -- an empty literal has no escape
      rw [hquotable.eq_nil heq] at he
      cases he
    · rw [hquotable.untilQuote_append, Option.map_some, plainPiece, he.unescape_eq] at hplain
      simpa using hplain

/-! ## Pieces -/

theorem piece?_of_blank {c : Char} (h : IsBlank c) (cs : List Char) :
    piece? c cs = some (.gap, 0) := by
  rcases h with rfl | rfl | rfl | rfl <;> rfl

theorem piece?_of_comment (cs : List Char) :
    piece? '/' ('/' :: cs) = some (.gap, (cs.takeWhile (· ≠ '\n')).length + 1) := by
  rfl

/-- Where a token begins, that token is found or a longer one. -/
theorem piece?_of_spells {c : Char} {s : List Char} {l : Lexeme} (h : Spells (c :: s) l)
    (rest : List Char) :
    ∃ l' n, piece? c (s ++ rest) = some (.lexeme l', n) ∧ s.length ≤ n ∧
      (n = s.length → l = l') := by
  by_cases hquote : c = '"'
  · subst hquote
    exact stringPiece_of_spells h rest
  · generalize hs : c :: s = source at h
    cases h with
    | mark m =>
      cases m <;> cases hs <;> exact ⟨_, _, rfl, Nat.le_refl _, fun _ => rfl⟩
    | @name c' cs hc hcs =>
      cases hs
      have hne : ∀ d, isNameStart d = false → c ≠ d := by
        rintro d hd rfl
        rw [hc] at hd
        cases hd
      have hspace : ¬ (isSpace c = true ∨ c = '\n') := by
        simp [isSpace, hne ' ' rfl, hne '\t' rfl, hne '\r' rfl, hne '\n' rfl]
      refine ⟨_, _, by rw [piece?, if_neg hspace, if_neg hquote, if_pos hc], ?_⟩
      rw [List.takeWhile_append_of_pos hcs, List.length_append]
      refine ⟨Nat.le_add_right _ _, fun hlength => ?_⟩
      have hrest : rest.takeWhile isNameRest = [] :=
        List.eq_nil_of_length_eq_zero (by omega)
      rw [hrest, List.append_nil]
    | tripled => cases hs; exact absurd rfl hquote
    | single => cases hs; exact absurd rfl hquote

theorem piece?_of_misspelled {c : Char} {s : List Char} {e : Char} (h : Misspelled (c :: s) e)
    (rest : List Char) : piece? c (s ++ rest) = some (.badEscape e, s.length) := by
  have hc : c = '"' := by
    generalize hs : c :: s = source at h
    cases h
    exact (List.cons.inj hs).1
  subst hc
  exact stringPiece_of_misspelled h rest

theorem spelling_of_mark? {c : Char} {m : Mark} (h : mark? c = some m) :
    m.spelling.toList = [c] := by
  unfold mark? at h
  split at h <;> cases h <;> rfl

/-- What is found has the form that it is taken for. -/
theorem piece?_sound {c : Char} {cs : List Char} {piece : Piece} {n : Nat}
    (h : piece? c cs = some (piece, n)) :
    ∃ s rest, cs = s ++ rest ∧ s.length = n ∧ Formed rest (c :: s) piece := by
  unfold piece? at h
  split at h
  · rename_i hc
    cases h
    refine ⟨[], cs, rfl, rfl, .blank ?_ .nil⟩
    simpa [isSpace, IsBlank, or_assoc] using hc
  split at h
  · rename_i hc
    subst hc
    exact stringPiece_sound h
  split at h
  · rename_i hc
    cases h
    refine ⟨cs.takeWhile isNameRest, cs.dropWhile isNameRest,
      List.takeWhile_append_dropWhile.symm, rfl, .name hc fun d hd => ?_⟩
    exact List.mem_takeWhile_imp hd
  split at h
  · rename_i hc
    obtain ⟨rfl, hhead⟩ := hc
    obtain ⟨cs, rfl⟩ := List.head?_eq_some_iff.mp hhead
    cases h
    refine ⟨'/' :: cs.takeWhile (· ≠ '\n'), cs.dropWhile (· ≠ '\n'), ?_, rfl, ?_⟩
    · rw [List.cons_append, List.takeWhile_append_dropWhile]
    · have hend : ∀ d, (cs.dropWhile (· ≠ '\n')).head? = some d → d = '\n' := by
        intro d hd
        have hnot := List.head?_dropWhile_not (· ≠ '\n') cs
        rw [hd] at hnot
        simpa using hnot
      have htext : '\n' ∉ cs.takeWhile (· ≠ '\n') := by
        intro hmem
        simpa using List.mem_takeWhile_imp hmem
      have hgap : Gap (cs.dropWhile (· ≠ '\n')) ('/' :: '/' :: (cs.takeWhile (· ≠ '\n') ++ [])) :=
        .comment htext hend .nil
      rwa [List.append_nil] at hgap
  split at h
  · rename_i hc
    obtain ⟨rfl, hhead⟩ := hc
    obtain ⟨cs, rfl⟩ := List.head?_eq_some_iff.mp hhead
    cases h
    exact ⟨['>'], cs, rfl, rfl, .mark .arrow⟩
  · obtain ⟨m, hm, hpiece⟩ := Option.map_eq_some_iff.mp h
    cases hpiece
    refine ⟨[], cs, rfl, rfl, ?_⟩
    rw [← spelling_of_mark? hm]
    exact .mark m

/-! ## Tiling -/

/-- A place of a text where no blank, no comment and no token begins. -/
structure Unstarted (rest : List Char) : Prop where
  no_blank : ∀ c, rest.head? = some c → ¬ IsBlank c
  no_comment : ¬ ['/', '/'] <+: rest
  no_token : ∀ s l, Spells s l → ¬ s <+: rest

/-- A token of a text, and the offset behind it. -/
structure Span where
  token : Token
  stop : Nat

/-- The offset where a span begins. -/
def Span.start (s : Span) : Nat := s.token.position.offset

/-- A span holds the source of its token and of no other, no longer token begins there, and the
token's position is the one behind the text before it. -/
structure Span.Reads (text : List Char) (s : Span) : Prop where
  start_lt_stop : s.start < s.stop
  stop_le : s.stop ≤ text.length
  spells_iff : ∀ l, Spells (text.extract s.start s.stop) l ↔ l = s.token.lexeme
  longest : ∀ source l, Spells source l → source <+: text.drop s.start →
    source.length ≤ s.stop - s.start
  position_eq : s.token.position = .behind (text.take s.start)

/-- Nothing but blanks and comments from one offset of a text to another. -/
structure GapBetween (text : List Char) (start stop : Nat) : Prop where
  start_le_stop : start ≤ stop
  gap : Gap (text.drop stop) (text.extract start stop)

/-- Spans one behind the other, from an offset of a text to the offset `reached`, with nothing but
blanks and comments before, between and behind them. -/
inductive Tiles (text : List Char) (reached : Nat) : Nat → List Span → Prop where
  | nil {start : Nat} (hreached : reached ≤ text.length)
      (hgap : GapBetween text start reached) : Tiles text reached start []
  | cons {start : Nat} {s : Span} {spans : List Span} (hgap : GapBetween text start s.start)
      (hreads : s.Reads text) (h : Tiles text reached s.stop spans) :
      Tiles text reached start (s :: spans)

/-- Why the cut of a text ends at the offset `reached`: there is no more text, or nothing begins
there, or a literal begins there that has an unknown escape. -/
inductive Stops (text : List Char) (reached : Nat) : Option SyntaxError → Prop where
  | finished (h : reached = text.length) : Stops text reached none
  | illegal {c : Char} {rest : List Char} (hrest : text.drop reached = c :: rest)
      (hnone : Unstarted (c :: rest)) (hliteral : ∀ s e, Misspelled s e → ¬ s <+: c :: rest) :
      Stops text reached (some (.illegalCharacter c
        (Position.behind (text.take reached)).line (Position.behind (text.take reached)).column))
  | escape {s : List Char} {e : Char} (hs : Misspelled s e) (hhere : s <+: text.drop reached)
      (hnone : Unstarted (text.drop reached)) :
      Stops text reached (some (.unknownEscape e (Position.behind (text.take reached)).line))

theorem Gap.append {rest s s' : List Char} (h : Gap (s' ++ rest) s) (h' : Gap rest s') :
    Gap rest (s ++ s') := by
  induction h with
  | nil => exact h'
  | blank hc _ ih => exact .blank hc ih
  | @comment text cs htext hend _ ih =>
    rw [List.cons_append, List.cons_append, List.append_assoc]
    refine .comment htext ?_ ih
    rwa [List.append_assoc]

theorem GapBetween.refl (text : List Char) (start : Nat) : GapBetween text start start := by
  refine ⟨Nat.le_refl start, ?_⟩
  rw [List.extract_eq_take_drop, Nat.sub_self, List.take_zero]
  exact .nil

theorem GapBetween.extend {before s rest : List Char} {stop : Nat} (hgap : Gap rest s)
    (h : GapBetween (before ++ s ++ rest) (before ++ s).length stop) :
    GapBetween (before ++ s ++ rest) before.length stop := by
  obtain ⟨n, rfl⟩ := Nat.exists_eq_add_of_le h.start_le_stop
  have hdrop : (before ++ s ++ rest).drop ((before ++ s).length + n) = rest.drop n :=
    List.drop_length_add_append n
  have hnext : (before ++ s ++ rest).extract (before ++ s).length ((before ++ s).length + n) =
      rest.take n := by
    rw [List.extract_eq_take_drop, Nat.add_sub_cancel_left, List.drop_left]
  have hwhole : (before ++ s ++ rest).extract before.length ((before ++ s).length + n) =
      s ++ rest.take n := by
    rw [List.extract_eq_take_drop, List.append_assoc, List.drop_left, List.length_append,
      Nat.add_assoc, Nat.add_sub_cancel_left, List.take_length_add_append]
  have hrest := h.gap
  rw [hdrop, hnext] at hrest
  rw [← List.take_append_drop n rest] at hgap
  refine ⟨by rw [List.length_append]; omega, ?_⟩
  rw [hdrop, hwhole]
  exact hgap.append hrest

/-- A gap more in front. -/
theorem Tiles.gap {before s rest : List Char} {reached : Nat} {spans : List Span}
    (hgap : Gap rest s)
    (h : Tiles (before ++ s ++ rest) reached (before ++ s).length spans) :
    Tiles (before ++ s ++ rest) reached before.length spans := by
  cases h with
  | nil hreached hnext => exact .nil hreached (hnext.extend hgap)
  | cons hnext hreads h => exact .cons (hnext.extend hgap) hreads h

theorem Spells.ne_nil {s : List Char} {l : Lexeme} (h : Spells s l) : s ≠ [] := by
  cases h with
  | mark m => cases m <;> exact nofun
  | name => exact nofun
  | tripled => exact nofun
  | single => exact nofun

/-- A token that begins a text is found, or a longer one. -/
theorem piece?_of_spells_of_isPrefix {c : Char} {cs s : List Char} {l : Lexeme} (h : Spells s l)
    (hs : s <+: c :: cs) :
    ∃ l' n, piece? c cs = some (.lexeme l', n) ∧ s.length ≤ n + 1 ∧
      (s.length = n + 1 → l = l') := by
  cases s with
  | nil => exact absurd rfl h.ne_nil
  | cons d s =>
    obtain ⟨rest, hrest⟩ := hs
    cases hrest
    obtain ⟨l', n, hpiece, hlength, hsame⟩ := piece?_of_spells h rest
    refine ⟨l', n, hpiece, Nat.succ_le_succ hlength, fun heq => ?_⟩
    exact hsame (Nat.succ.inj heq).symm

theorem piece?_of_misspelled_of_isPrefix {c : Char} {cs s : List Char} {e : Char}
    (h : Misspelled s e) (hs : s <+: c :: cs) :
    piece? c cs = some (.badEscape e, s.length - 1) := by
  cases s with
  | nil => cases h
  | cons d s =>
    obtain ⟨rest, hrest⟩ := hs
    cases hrest
    exact piece?_of_misspelled h rest

/-- The span of the token that is found. -/
theorem reads_of_piece? (before : List Char) {s rest : List Char} {c : Char} {l : Lexeme}
    (hpiece : piece? c (s ++ rest) = some (.lexeme l, s.length)) (hspells : Spells (c :: s) l) :
    Span.Reads (before ++ c :: s ++ rest)
      ⟨⟨l, .behind before⟩, (before ++ c :: s).length⟩ := by
  have hdrop : (before ++ c :: s ++ rest).drop before.length = c :: (s ++ rest) := by
    rw [List.append_assoc, List.drop_left, List.cons_append]
  have hsource : (before ++ c :: s ++ rest).extract before.length (before ++ c :: s).length =
      c :: s := by
    rw [List.extract_eq_take_drop, List.append_assoc, List.drop_left, List.length_append,
      Nat.add_sub_cancel_left, List.take_left]
  have hfound : ∀ source l', Spells source l' → source <+: c :: (s ++ rest) →
      source.length ≤ (c :: s).length ∧ (source.length = (c :: s).length → l' = l) := by
    intro source l' hsource hhere
    obtain ⟨l'', n, hother, hlength, hsame⟩ := piece?_of_spells_of_isPrefix hsource hhere
    cases hother.symm.trans hpiece
    exact ⟨hlength, hsame⟩
  refine ⟨?_, ?_, ?_, ?_, ?_⟩
  · show before.length < (before ++ c :: s).length
    rw [List.length_append, List.length_cons]
    omega
  · exact (List.prefix_append _ rest).length_le
  · intro l'
    show Spells (List.extract _ before.length _) l' ↔ l' = l
    rw [hsource]
    constructor
    · intro h
      exact (hfound _ l' h ⟨rest, rfl⟩).2 rfl
    · rintro rfl
      exact hspells
  · intro source l' h hhere
    have hhere : source <+: c :: (s ++ rest) := hdrop ▸ hhere
    show source.length ≤ (before ++ c :: s).length - before.length
    rw [List.length_append, Nat.add_sub_cancel_left]
    exact (hfound source l' h hhere).1
  · show Position.behind before = .behind (List.take before.length _)
    rw [List.append_assoc, List.take_left]

/-- Where at most a literal with an unknown escape is found, nothing begins. -/
theorem unstarted_of_piece? {c : Char} {cs : List Char}
    (h : ∀ piece n, piece? c cs = some (piece, n) → ∃ e, piece = .badEscape e) :
    Unstarted (c :: cs) := by
  refine ⟨?_, ?_, ?_⟩
  · intro d hd hblank
    cases hd
    obtain ⟨e, he⟩ := h _ _ (piece?_of_blank hblank cs)
    cases he
  · rintro ⟨rest, hrest⟩
    cases hrest
    obtain ⟨e, he⟩ := h _ _ (piece?_of_comment rest)
    cases he
  · intro s l hs hhere
    obtain ⟨l', n, hpiece, -, -⟩ := piece?_of_spells_of_isPrefix hs hhere
    obtain ⟨e, he⟩ := h _ _ hpiece
    cases he

/-- The position behind a piece. -/
theorem advance_piece {p : Position} {before : List Char} (hp : p = .behind before) (c : Char)
    (s rest : List Char) :
    p.advance (c :: (s ++ rest).take s.length) = .behind (before ++ c :: s) := by
  rw [hp, List.take_left, Position.advance_behind]

theorem Tiles.refl (before rest : List Char) :
    Tiles (before ++ rest) before.length before.length [] :=
  .nil (List.prefix_append before rest).length_le (.refl _ _)

/-- The cut of the rest of a text tiles it. -/
theorem scanFrom_tiles (p : Position) (cs before : List Char) (hp : p = .behind before) :
    ∃ spans reached, spans.map Span.token = (scanFrom p cs).tokens ∧
      Tiles (before ++ cs) reached before.length spans ∧
      Stops (before ++ cs) reached (scanFrom p cs).fault := by
  fun_induction scanFrom p cs generalizing before with
  | case1 p =>
    refine ⟨[], before.length, rfl, .refl before [], .finished ?_⟩
    rw [List.append_nil]
  | case2 p c cs hpiece =>
    have hnone : Unstarted (c :: cs) := by
      refine unstarted_of_piece? fun piece n h => ?_
      cases hpiece.symm.trans h
    have hliteral : ∀ s e, Misspelled s e → ¬ s <+: c :: cs := by
      intro s e hs hhere
      cases hpiece.symm.trans (piece?_of_misspelled_of_isPrefix hs hhere)
    have hrest : (before ++ c :: cs).drop before.length = c :: cs := List.drop_left
    have hstops := Stops.illegal hrest hnone hliteral
    rw [List.take_left, ← hp] at hstops
    exact ⟨[], before.length, rfl, .refl before (c :: cs), hstops⟩
  | case3 p c cs n next hpiece ih =>
    obtain ⟨s, rest, rfl, rfl, hgap⟩ := piece?_sound hpiece
    have hnext : next = .behind (before ++ c :: s) := advance_piece hp c s rest
    rw [List.drop_left] at ih ⊢
    obtain ⟨spans, reached, htokens, htiles, hstops⟩ := ih _ hnext
    rw [← List.cons_append, ← List.append_assoc]
    exact ⟨spans, reached, htokens, htiles.gap hgap, hstops⟩
  | case4 p c cs n next l hpiece ih =>
    obtain ⟨s, rest, rfl, rfl, hspells⟩ := piece?_sound hpiece
    have hnext : next = .behind (before ++ c :: s) := advance_piece hp c s rest
    rw [List.drop_left] at ih ⊢
    obtain ⟨spans, reached, htokens, htiles, hstops⟩ := ih _ hnext
    have hreads := reads_of_piece? before hpiece hspells
    rw [← hp] at hreads
    rw [← List.cons_append, ← List.append_assoc]
    refine ⟨⟨⟨l, p⟩, (before ++ c :: s).length⟩ :: spans, reached, ?_, ?_, hstops⟩
    · rw [List.map_cons, htokens]
      rfl
    · have hstart : p.offset = before.length := congrArg Position.offset hp
      refine .cons ?_ hreads htiles
      show GapBetween _ before.length p.offset
      rw [hstart]
      exact .refl _ _
  | case5 p c cs n e hpiece =>
    obtain ⟨s, rest, rfl, rfl, hmisspelled⟩ := piece?_sound hpiece
    have hnone : Unstarted (c :: (s ++ rest)) := by
      refine unstarted_of_piece? fun piece n h => ?_
      cases hpiece.symm.trans h
      exact ⟨e, rfl⟩
    have hdrop : (before ++ c :: (s ++ rest)).drop before.length = c :: (s ++ rest) :=
      List.drop_left
    have hhere : c :: s <+: (before ++ c :: (s ++ rest)).drop before.length := by
      rw [hdrop]
      exact List.prefix_append (c :: s) rest
    rw [← hdrop] at hnone
    have hstops := Stops.escape hmisspelled hhere hnone
    rw [List.take_left, ← hp] at hstops
    exact ⟨[], before.length, rfl, .refl before (c :: (s ++ rest)), hstops⟩

theorem Tiles.start_le {text : List Char} {reached start : Nat} {spans : List Span}
    (h : Tiles text reached start spans) : ∀ s ∈ spans, start ≤ s.start := by
  induction h with
  | nil => exact List.forall_mem_nil _
  | cons hgap hreads _ ih =>
    intro t ht
    rcases List.mem_cons.mp ht with rfl | ht
    · exact hgap.start_le_stop
    · have hlater := ih t ht
      have hlt := hreads.start_lt_stop
      have hle := hgap.start_le_stop
      omega

theorem Tiles.reads {text : List Char} {reached start : Nat} {spans : List Span}
    (h : Tiles text reached start spans) : ∀ s ∈ spans, s.Reads text := by
  induction h with
  | nil => exact List.forall_mem_nil _
  | cons _ hreads _ ih => exact List.forall_mem_cons.mpr ⟨hreads, ih⟩

theorem Tiles.disjoint {text : List Char} {reached start : Nat} {spans : List Span}
    (h : Tiles text reached start spans) : spans.Pairwise fun s t => s.stop ≤ t.start := by
  induction h with
  | nil => exact .nil
  | cons _ _ h ih => exact .cons h.start_le ih

/-- The tokens before the end of a text, or before its first fault, tile the text up to there: they
are spans one behind the other with only blanks and comments around them, and each span holds the
source of its token. The cut ends behind the last character, or at a place where nothing begins, or
at a literal with an unknown escape, and the fault tells the place. -/
theorem scan_tiles_text (text : String) :
    ∃ spans reached, spans.map Span.token = (scan text).tokens ∧
      Tiles text.toList reached 0 spans ∧
      (scan text).tokens.Pairwise (fun t u => t.position.offset < u.position.offset) ∧
      spans.Pairwise (fun s t => s.stop ≤ t.start) ∧
      Stops text.toList reached (scan text).fault ∧
      (∀ tokens, tokenize text = .ok tokens ↔
        (scan text).fault = none ∧ tokens = (scan text).tokens) ∧
      ∀ e, tokenize text = .error e ↔ (scan text).fault = some e := by
  obtain ⟨spans, reached, htokens, htiles, hstops⟩ :=
    scanFrom_tiles .start text.toList [] Position.start_eq_behind
  refine ⟨spans, reached, htokens, htiles, ?_, htiles.disjoint, hstops, ?_, ?_⟩
  · -- a token takes at least one character, so a span that begins behind it begins later
    have hstarts : spans.Pairwise fun s t => s.start < t.start := by
      refine htiles.disjoint.imp_of_mem fun hs _ hle => ?_
      exact Nat.lt_of_lt_of_le (htiles.reads _ hs).start_lt_stop hle
    have htokens : (scan text).tokens = spans.map Span.token := htokens.symm
    rw [htokens, List.pairwise_map]
    exact hstarts
  · intro tokens
    cases hfault : (scan text).fault with
    | none => simp [tokenize, hfault, eq_comm]
    | some e => simp [tokenize, hfault]
  · intro e
    cases hfault : (scan text).fault with
    | none => simp [tokenize, hfault]
    | some e' => simp [tokenize, hfault]

end Token

end QueryBook
