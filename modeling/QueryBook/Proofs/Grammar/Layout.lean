import QueryBook.Proofs.Grammar.Printer
import Mathlib.Data.List.Chain

/-!
# A layout is cut back into its words

A text that is spread out by a layout is cut at the words, whatever stands between them. Blanks and
comments are pieces of their own and say nothing. A mark ends where it ends. A name goes on as long
as it can, and two quotes ask for a third one, so behind a name or a literal must come something
that is neither: a blank, a comment, a mark, or the end. Words of which one of each two neighbours
is a mark are kept apart by that alone, and need no blank between them.
-/

namespace QueryBook

namespace Printing

open Token

/-! ## Single pieces -/

theorem scanFrom_lexeme {p : Position} {c : Char} (cs : List Char) {rest : List Char} {l : Lexeme}
    (h : piece? c (cs ++ rest) = some (.lexeme l, cs.length)) :
    ∃ q, scanFrom p (c :: cs ++ rest) = (scanFrom q rest).cons { lexeme := l, position := p } := by
  rw [List.cons_append, scanFrom, h]
  simp only [List.drop_left]
  exact ⟨_, rfl⟩

theorem scanFrom_gap {p : Position} {c : Char} (cs : List Char) {rest : List Char}
    (h : piece? c (cs ++ rest) = some (.gap, cs.length)) :
    ∃ q, scanFrom p (c :: cs ++ rest) = scanFrom q rest := by
  rw [List.cons_append, scanFrom, h]
  simp only [List.drop_left]
  exact ⟨_, rfl⟩

/-- What stands behind a name or a literal and is no part of it. -/
def Delimited (rest : List Char) : Prop :=
  ∀ c, rest.head? = some c → isNameRest c = false ∧ c ≠ '"'

/-! ## Blanks and comments -/

theorem scanFrom_blank (b : Blank) (p : Position) (rest : List Char) :
    ∃ q, scanFrom p (b.chars ++ rest) = scanFrom q rest := by
  cases b with
  | space => exact scanFrom_gap [] rfl
  | tab => exact scanFrom_gap [] rfl
  | carriageReturn => exact scanFrom_gap [] rfl
  | newline => exact scanFrom_gap [] rfl
  | comment text =>
    obtain ⟨text, htext⟩ := text
    -- the newline that ends a comment is a piece of its own
    have hline : ∀ c ∈ text, decide (c ≠ '\n') = true := by
      intro c hc
      have hne : c ≠ '\n' := fun he => htext (he ▸ hc)
      simpa using hne
    have hpiece : piece? '/' (('/' :: text) ++ '\n' :: rest) =
        some (.gap, ('/' :: text).length) := by
      have htake : (text ++ '\n' :: rest).takeWhile (· ≠ '\n') = text := by
        rw [List.takeWhile_append_of_pos hline]
        simp
      simp only [piece?, List.cons_append, List.takeWhile_cons, htake]
      rfl
    obtain ⟨q, hq⟩ := scanFrom_gap (p := p) _ hpiece
    have hchars : (Blank.comment ⟨text, htext⟩).chars ++ rest =
        '/' :: ('/' :: text) ++ '\n' :: rest := by simp [Blank.chars]
    rw [hchars, hq]
    exact scanFrom_gap [] rfl

theorem scanFrom_blanks (gap : List Blank) (p : Position) (rest : List Char) :
    ∃ q, scanFrom p (gap.flatMap Blank.chars ++ rest) = scanFrom q rest := by
  induction gap generalizing p with
  | nil => exact ⟨p, rfl⟩
  | cons b gap ih =>
    rw [List.flatMap_cons, List.append_assoc]
    obtain ⟨q, hq⟩ := scanFrom_blank b p (gap.flatMap Blank.chars ++ rest)
    rw [hq]
    exact ih q

theorem delimited_blanks {gap : List Blank} {rest : List Char} (h : Delimited rest) :
    Delimited (gap.flatMap Blank.chars ++ rest) := by
  cases gap with
  | nil => exact h
  | cons b gap =>
    intro c hc
    cases b <;> cases hc <;> decide

/-! ## Marks and names -/

theorem scanFrom_mark (m : Mark) (p : Position) (rest : List Char) :
    ∃ q, scanFrom p ((markWord m).chars ++ rest) =
      (scanFrom q rest).cons { lexeme := .mark m, position := p } := by
  cases m with
  | arrow => exact scanFrom_lexeme (c := '-') ['>'] rfl
  | _ => exact scanFrom_lexeme [] rfl

theorem delimited_mark (m : Mark) (rest : List Char) : Delimited ((markWord m).chars ++ rest) := by
  intro c hc
  cases m <;> cases hc <;> decide

/-- A letter or underscore, and letters, digits and underscores behind it. -/
def isName (name : String) : Bool :=
  match name.toList with
  | [] => false
  | c :: cs => (c.isAlpha || c == '_') && cs.all fun d => d.isAlphanum || d == '_'

theorem scanFrom_name {name : String} (h : isName name = true) (p : Position) {rest : List Char}
    (hrest : Delimited rest) :
    ∃ q, scanFrom p ((nameWord name).chars ++ rest) =
      (scanFrom q rest).cons { lexeme := .identifier name, position := p } := by
  unfold isName at h
  cases hname : name.toList with
  | nil => rw [hname] at h; cases h
  | cons c cs =>
    rw [hname] at h
    obtain ⟨hstart, hcs⟩ := Bool.and_eq_true_iff.mp h
    have hc : isNameStart c = true := hstart
    have hne : ∀ d, isNameStart d = false → c ≠ d := by
      rintro d hd rfl
      rw [hc] at hd
      cases hd
    have hall : ∀ d ∈ cs, isNameRest d = true := List.all_eq_true.mp hcs
    have htake : (cs ++ rest).takeWhile isNameRest = cs := by
      rw [List.takeWhile_append_of_pos hall]
      cases rest with
      | nil => simp
      | cons d rest => simp [(hrest d rfl).1]
    have hspace : ¬ (isSpace c = true ∨ c = '\n') := by
      simp [isSpace, hne ' ' rfl, hne '\t' rfl, hne '\r' rfl, hne '\n' rfl]
    have hpiece : piece? c (cs ++ rest) =
        some (.lexeme (.identifier (.ofList (c :: cs))), cs.length) := by
      rw [piece?, if_neg hspace, if_neg (hne '"' rfl), if_pos hc, htake]
    have hchars : (nameWord name).chars = c :: cs := hname
    have htext : String.ofList (c :: cs) = name := by rw [← hname, String.ofList_toList]
    rw [hchars]
    rw [htext] at hpiece
    exact scanFrom_lexeme _ hpiece

/-! ## Literals -/

/-- A character is escaped as something that stands for it, or needs no escape. -/
theorem escapeChar_cases (chosen : Bool) (c : Char) :
    (∃ e, escapeChar chosen c = ['\\', e] ∧ escape? e = some c ∧ e ≠ '\n') ∨
      (escapeChar chosen c = [c] ∧ ¬ MustEscape c) := by
  have hfor : ∀ e, escapeFor? c = some e → escape? e = some c ∧ e ≠ '\n' := by
    intro e he
    unfold escapeFor? at he
    split at he <;> cases he <;> decide
  have hnone : escapeFor? c = none → ¬ MustEscape c := by
    rintro h (rfl | rfl | rfl) <;> cases h
  unfold escapeChar
  cases hc : escapeFor? c with
  | none => exact .inr ⟨rfl, hnone hc⟩
  | some e =>
    by_cases hmust : MustEscape c ∨ chosen = true
    · exact .inl ⟨e, if_pos hmust, hfor e hc⟩
    · exact .inr ⟨if_neg hmust, fun h => hmust (.inl h)⟩

theorem escaped_cons (chosen : Nat → Bool) (c : Char) (cs : List Char) :
    escaped chosen (c :: cs) =
      escapeChar (chosen 0) c ++ escaped (fun i => chosen (i + 1)) cs := by
  rw [escaped, List.mapIdx_cons, List.flatten_cons]
  rfl

theorem untilQuote_escaped (chosen : Nat → Bool) (cs rest : List Char) :
    untilQuote (escaped chosen cs ++ '"' :: rest) = some (escaped chosen cs) := by
  induction cs generalizing chosen with
  | nil => rfl
  | cons c cs ih =>
    rw [escaped_cons, List.append_assoc]
    rcases escapeChar_cases (chosen 0) c with ⟨e, he, -, hne⟩ | ⟨hc, hmust⟩
    · simp [he, untilQuote, hne, ih]
    · simp only [MustEscape, not_or] at hmust
      simp [hc, untilQuote, hmust, ih]

theorem unescape_escaped (chosen : Nat → Bool) (cs : List Char) :
    unescape (escaped chosen cs) = .ok cs := by
  induction cs generalizing chosen with
  | nil => rfl
  | cons c cs ih =>
    rw [escaped_cons]
    rcases escapeChar_cases (chosen 0) c with ⟨e, he, hescape, -⟩ | ⟨hc, hmust⟩
    · simp only [he, List.cons_append, List.nil_append, unescape, hescape, ih]
      rfl
    · simp only [MustEscape, not_or] at hmust
      simp [hc, unescape, hmust, ih, Except.map]

/-- Between the quotes of an escaped text comes no quote first. -/
theorem head_escaped (chosen : Nat → Bool) (cs : List Char) :
    (escaped chosen cs).head? ≠ some '"' := by
  cases cs with
  | nil => exact nofun
  | cons c cs =>
    rw [escaped_cons]
    rcases escapeChar_cases (chosen 0) c with ⟨e, he, -, -⟩ | ⟨hc, hmust⟩
    · simp [he]
    · simp only [MustEscape, not_or] at hmust
      simp [hc, hmust]

theorem untilTripledQuote_append {cs : List Char} (h : Quoting.tripled.Fits cs)
    (rest : List Char) : untilTripledQuote (cs ++ tripledQuote ++ rest) = some cs := by
  induction cs with
  | nil => rfl
  | cons c cs ih =>
    have hcs : Quoting.tripled.Fits cs := by
      intro i hi
      exact h (i + 1) (Nat.succ_lt_succ hi)
    -- a tripled quote at the beginning would come before the one that closes
    have hfirst : ∀ inner, c :: (cs ++ tripledQuote ++ rest) ≠ '"' :: '"' :: '"' :: inner := by
      intro inner heq
      have hquote : tripledQuote <+: c :: (cs ++ tripledQuote ++ rest) := ⟨inner, heq.symm⟩
      have htext : c :: cs ++ tripledQuote <+: c :: (cs ++ tripledQuote ++ rest) := ⟨rest, rfl⟩
      exact h 0 (Nat.succ_pos _)
        (List.prefix_of_prefix_length_le hquote htext (by simp [tripledQuote]))
    rw [List.cons_append, List.cons_append]
    unfold untilTripledQuote
    split
    · rename_i heq
      exact absurd heq (hfirst _)
    · rename_i heq
      cases heq
      rw [ih hcs, Option.map_some]
    · rename_i heq
      cases heq

/-- A literal is cut as what it quotes. -/
theorem scanFrom_literal {q : Quoting} {text : String} (h : q.Fits text.toList) (p : Position)
    {rest : List Char} (hrest : Delimited rest) :
    ∃ q', scanFrom p ((literalWord q text).chars ++ rest) =
      (scanFrom q' rest).cons { lexeme := .string text, position := p } := by
  have hquote : ∀ cs, piece? '"' cs = stringPiece cs := fun _ => rfl
  have htext : String.ofList text.toList = text := String.ofList_toList
  cases q with
  | tripled =>
    have hpiece : piece? '"' (('"' :: '"' :: (text.toList ++ tripledQuote)) ++ rest) =
        some (.lexeme (.string text), ('"' :: '"' :: (text.toList ++ tripledQuote)).length) := by
      rw [hquote, List.cons_append, List.cons_append, stringPiece]
      simp only [untilTripledQuote_append h, htext]
      simp [tripledQuote]
    exact scanFrom_lexeme _ hpiece
  | single chosen =>
    -- two quotes in a row are those of an empty text, and behind it comes no third one
    have hfirst : ∀ inner, escaped chosen text.toList ++ '"' :: rest ≠ '"' :: '"' :: inner := by
      intro inner heq
      have hhead := head_escaped chosen text.toList
      cases hbody : escaped chosen text.toList with
      | nil =>
        rw [hbody, List.nil_append] at heq
        obtain ⟨-, rfl⟩ := List.cons.inj heq
        exact (hrest '"' rfl).2 rfl
      | cons c cs =>
        rw [hbody, List.cons_append] at heq
        rw [hbody, (List.cons.inj heq).1] at hhead
        exact hhead rfl
    have hpiece : piece? '"' ((escaped chosen text.toList ++ ['"']) ++ rest) =
        some (.lexeme (.string text), (escaped chosen text.toList ++ ['"']).length) := by
      rw [hquote, List.append_assoc, List.singleton_append, stringPiece]
      · simp only [untilQuote_escaped, Option.map_some, unescape_escaped, htext, List.length_append,
          List.length_singleton]
      · exact hfirst
    exact scanFrom_lexeme _ hpiece

/-! ## Words -/

/-- A word that is spelled as its token must be. -/
inductive Word.Sound : Word → Prop where
  | name {name : String} : isName name = true → Sound (nameWord name)
  | mark (m : Mark) : Sound (markWord m)
  | literal {q : Quoting} {text : String} : q.Fits text.toList → Sound (literalWord q text)

def Word.IsMark (w : Word) : Prop := ∃ m, w.lexeme = .mark m

/-- Two words that need nothing between them. -/
def Apart (w w' : Word) : Prop := w.IsMark ∨ w'.IsMark

theorem Word.Sound.eq_mark {w : Word} (h : w.Sound) (hm : w.IsMark) : ∃ m, w = markWord m := by
  obtain ⟨m, hm⟩ := hm
  cases h with
  | name h => cases hm
  | mark m => exact ⟨m, rfl⟩
  | literal h => cases hm

theorem scanFrom_word {w : Word} (h : w.Sound) (p : Position) {rest : List Char}
    (hrest : w.IsMark ∨ Delimited rest) :
    ∃ q, scanFrom p (w.chars ++ rest) =
      (scanFrom q rest).cons { lexeme := w.lexeme, position := p } := by
  cases h with
  | mark m => exact scanFrom_mark m p rest
  | name h => exact scanFrom_name h p (hrest.resolve_left fun ⟨_, hm⟩ => by cases hm)
  | literal h => exact scanFrom_literal h p (hrest.resolve_left fun ⟨_, hm⟩ => by cases hm)

theorem delimited_spread {ws : List Word} (h : ∀ w, ws.head? = some w → ∃ m, w = markWord m)
    (gaps : Nat → List Blank) : Delimited (spread gaps ws) := by
  cases ws with
  | nil =>
    have hend : Delimited ((gaps 0).flatMap Blank.chars ++ []) := delimited_blanks nofun
    rwa [List.append_nil] at hend
  | cons w ws =>
    obtain ⟨m, rfl⟩ := h w rfl
    rw [spread, List.append_assoc]
    exact delimited_blanks (delimited_mark m _)

/-- **A text is cut into the words that were spread out in it.** -/
theorem scanFrom_spread {ws : List Word} (hsound : ∀ w ∈ ws, w.Sound) (hapart : ws.IsChain Apart)
    (gaps : Nat → List Blank) (p : Position) :
    Agrees (scanFrom p (spread gaps ws)).tokens ws ∧
      (scanFrom p (spread gaps ws)).fault = none := by
  induction ws generalizing gaps p with
  | nil =>
    obtain ⟨q, hq⟩ := scanFrom_blanks (gaps 0) p []
    rw [List.append_nil] at hq
    rw [spread, hq, scanFrom]
    exact ⟨rfl, rfl⟩
  | cons w ws ih =>
    obtain ⟨hw, hws⟩ := List.forall_mem_cons.mp hsound
    have hrest : w.IsMark ∨ Delimited (spread (fun n => gaps (n + 1)) ws) := by
      cases ws with
      | nil => exact .inr (delimited_spread (by simp) _)
      | cons w' ws =>
        rcases (List.isChain_cons_cons.mp hapart).1 with hmark | hmark
        · exact .inl hmark
        · refine .inr (delimited_spread (fun v hv => ?_) _)
          cases hv
          exact (hws w' List.mem_cons_self).eq_mark hmark
    obtain ⟨q, hq⟩ := scanFrom_blanks (gaps 0) p (w.chars ++ spread (fun n => gaps (n + 1)) ws)
    obtain ⟨q', hq'⟩ := scanFrom_word hw q hrest
    obtain ⟨hagrees, hfault⟩ := ih hws hapart.tail (fun n => gaps (n + 1)) q'
    rw [spread, List.append_assoc, hq, hq']
    exact ⟨congrArg (w.lexeme :: ·) hagrees, hfault⟩

end Printing

end QueryBook
