import QueryBook.Proofs.Statement.Restoring
import QueryBook.Proofs.Statement.Splitting
import Mathlib.Data.List.Chain

/-!
# Templates region by region

A statement that closes what it opens is a row of regions: plain text, quotations and dollar-quoted
bodies. Its template is made region by region. Positions become places in the plain regions only,
percent signs are doubled everywhere, and nothing else changes.

A region may hold the beginnings of all other kinds, so each lemma says what is read from the start
of a region on, whatever comes behind it. Two quotations with the same quote side by side are read
as one, because the two quotes between them look doubled; the template is the same either way
(`ofStatement_quotation`). Only a plain region depends on what follows: a digit behind it would
join its last position, which is why two plain regions must not stand side by side.
-/

namespace QueryBook.Template

open Binding Text

/-! ## Regions -/

/-- Text without quotes in which a digit follows every dollar sign. -/
structure IsPlain (text : List Char) : Prop where
  unquoted : ∀ c ∈ text, c ≠ '\'' ∧ c ≠ '"'
  numbered : ∀ before after, text = before ++ '$' :: after →
    ∃ d, after.head? = some d ∧ d.isDigit = true

/-- An identifier of ASCII characters, or nothing. -/
def IsTag (tag : List Char) : Prop :=
  (∀ c ∈ tag, c.isAlphanum = true ∨ c = '_') ∧ ∀ c, tag.head? = some c → c.isDigit = false

/-- What stands on both sides of a dollar-quoted body. -/
def delimiter (tag : List Char) : List Char := '$' :: (tag ++ ['$'])

/-- Behind the body is the first occurrence of the delimiter. What follows that one does not matter:
an occurrence that begins in the body ends before it. -/
def ClosedBy (delimiter body : List Char) : Prop :=
  ∀ before after, body ++ delimiter = before ++ delimiter ++ after → body.length ≤ before.length

/-- A region of a statement. -/
inductive Region where
  | plain (text : List Char) (wellFormed : IsPlain text)
  /-- A quoted string or identifier. -/
  | quotation (quote : Char) (isQuote : quote = '\'' ∨ quote = '"') (content : List Char)
  | dollarBody (tag body : List Char) (isTag : IsTag tag) (closed : ClosedBy (delimiter tag) body)

/-- A text with each `quote` in it doubled. -/
def doubleQuote (quote : Char) (content : List Char) : List Char :=
  content.flatMap fun c => if c = quote then [quote, quote] else [c]

/-- What a piece behind a dollar sign becomes: the digits at its head are a place. -/
def placed (piece : List Char) : List Char :=
  "%(p".toList ++ piece.takeWhile Char.isDigit ++ ")s".toList ++ piece.dropWhile Char.isDigit

namespace Region

def isPlain : Region → Bool
  | plain _ _ => true
  | quotation _ _ _ => false
  | dollarBody _ _ _ _ => false

/-- The region in a statement. -/
def text : Region → List Char
  | plain text _ => text
  | quotation quote _ content => quote :: (doubleQuote quote content ++ [quote])
  | dollarBody tag body _ _ => delimiter tag ++ body ++ delimiter tag

/-- The region in a template. -/
def template (r : Region) : List Char :=
  if r.isPlain then afterEach '$' placed (doublePercent r.text) else doublePercent r.text

end Region

/-! ## Segments of a statement -/

theorem ofStatement_nil : ofStatement [] = [] := by
  rw [ofStatement, segments]
  rfl

theorem ofStatement_cons (c : Char) (cs : List Char) :
    ofStatement (c :: cs) =
      (segment c cs).1.render ++ ofStatement (cs.drop (segment c cs).2) := by
  rw [ofStatement, segments]
  rfl

theorem doublePercent_append (cs ds : List Char) :
    doublePercent (cs ++ ds) = doublePercent cs ++ doublePercent ds := List.flatMap_append

theorem doublePercent_cons (c : Char) (cs : List Char) :
    doublePercent (c :: cs) = doublePercent [c] ++ doublePercent cs := doublePercent_append [c] cs

/-- A quoted segment goes into the template with its percent signs doubled. -/
theorem ofStatement_of_quoted {c : Char} {body rest : List Char}
    (h : segment c (body ++ rest) = (.quoted (c :: body), body.length)) :
    ofStatement (c :: (body ++ rest)) = doublePercent (c :: body) ++ ofStatement rest := by
  rw [ofStatement_cons, h, List.drop_left]
  rfl

/-! ## Quotations -/

theorem segment_of_quotation {quote : Char} (hquote : quote = '\'' ∨ quote = '"')
    {cs body : List Char} (h : quotation quote cs = some body) :
    segment quote cs = (.quoted (quote :: body), body.length) := by
  rw [segment, if_pos hquote, h]

/-- What the scan takes for more of a quotation behind its closing quote. -/
def continuation (quote : Char) : List Char → List Char
  | [] => []
  | c :: cs => if c = quote then ((quotation quote cs).map (quote :: ·)).getD [] else []

theorem quotation_cons_of_ne {quote c : Char} (h : c ≠ quote) (cs : List Char) :
    quotation quote (c :: cs) = (quotation quote cs).map (c :: ·) := by
  rw [quotation.eq_def]
  exact if_pos h

theorem quotation_quote (quote : Char) (cs : List Char) :
    quotation quote (quote :: cs) = some (quote :: continuation quote cs) := by
  cases cs with
  | nil => simp [quotation, continuation]
  | cons d ds =>
    by_cases hd : d = quote
    · subst hd
      cases hds : quotation d ds with
      | none => simp [quotation, continuation, hds]
      | some body => simp [quotation, continuation, hds]
    · simp [quotation, continuation, hd]

/-- A quotation is read up to its closing quote, and on if it seems to go on. -/
theorem quotation_doubleQuote (quote : Char) (content rest : List Char) :
    quotation quote (doubleQuote quote content ++ quote :: rest) =
      some (doubleQuote quote content ++ quote :: continuation quote rest) := by
  induction content with
  | nil => exact quotation_quote quote rest
  | cons c content ih =>
    by_cases hc : c = quote
    · have hcons : doubleQuote quote (c :: content) =
          quote :: quote :: doubleQuote quote content := by simp [doubleQuote, hc]
      rw [hcons, List.cons_append, List.cons_append, quotation_quote, continuation, if_pos rfl, ih]
      rfl
    · have hcons : doubleQuote quote (c :: content) = c :: doubleQuote quote content := by
        simp [doubleQuote, hc]
      rw [hcons, List.cons_append, quotation_cons_of_ne hc, ih]
      rfl

/-- Where a quotation seems to go on, another one begins. -/
theorem exists_continuation {quote : Char} (hquote : quote = '\'' ∨ quote = '"')
    (rest : List Char) :
    ∃ tail, rest = continuation quote rest ++ tail ∧
      ofStatement rest = doublePercent (continuation quote rest) ++ ofStatement tail := by
  cases rest with
  | nil => exact ⟨[], rfl, rfl⟩
  | cons c cs =>
    by_cases hc : c = quote
    · subst hc
      cases hbody : quotation c cs with
      | none =>
        have hnone : continuation c (c :: cs) = [] := by simp [continuation, hbody]
        rw [hnone]
        exact ⟨c :: cs, rfl, rfl⟩
      | some body =>
        have hsome : continuation c (c :: cs) = c :: body := by simp [continuation, hbody]
        obtain ⟨tail, rfl⟩ := prefix_of_quotation hbody
        rw [hsome]
        exact ⟨tail, rfl, ofStatement_of_quoted (segment_of_quotation hquote hbody)⟩
    · have hnone : continuation quote (c :: cs) = [] := by simp [continuation, hc]
      rw [hnone]
      exact ⟨c :: cs, rfl, rfl⟩

/-- **A quotation is copied, whatever comes behind it.** -/
theorem ofStatement_quotation {quote : Char} (hquote : quote = '\'' ∨ quote = '"')
    (content rest : List Char) :
    ofStatement (quote :: (doubleQuote quote content ++ [quote]) ++ rest) =
      doublePercent (quote :: (doubleQuote quote content ++ [quote])) ++ ofStatement rest := by
  obtain ⟨tail, hrest, htail⟩ := exists_continuation hquote rest
  have hread := quotation_doubleQuote quote content rest
  generalize continuation quote rest = more at hrest htail hread
  subst hrest
  have hsegment := segment_of_quotation hquote hread
  calc ofStatement (quote :: (doubleQuote quote content ++ [quote]) ++ (more ++ tail))
      = ofStatement (quote :: ((doubleQuote quote content ++ quote :: more) ++ tail)) := by simp
    _ = doublePercent (quote :: (doubleQuote quote content ++ quote :: more)) ++
          ofStatement tail := ofStatement_of_quoted (by simpa using hsegment)
    _ = doublePercent (quote :: (doubleQuote quote content ++ [quote])) ++
          (doublePercent more ++ ofStatement tail) := by
        rw [← List.append_assoc, ← doublePercent_append]
        simp
    _ = _ := by rw [htail]

/-! ## Dollar-quoted bodies -/

theorem isTagRest_of_isTag {tag : List Char} (h : IsTag tag) :
    ∀ c ∈ tag, isTagRest c = true := by
  intro c hc
  rcases h.1 c hc with hc | rfl
  · simp [isTagRest, hc]
  · rfl

/-- The tag ends at the dollar sign. -/
theorem tag_append {name : List Char} (h : IsTag name) (rest : List Char) :
    tag (name ++ '$' :: rest) = name := by
  cases name with
  | nil => rfl
  | cons c name =>
    have hstart : isTagStart c = true := by
      rcases h.1 c List.mem_cons_self with hc | rfl
      · have hdigit : c.isDigit = false := h.2 c rfl
        simp only [Char.isAlphanum, hdigit, Bool.or_false] at hc
        simp [isTagStart, hc]
      · rfl
    have hends : ∀ d, ('$' :: rest).head? = some d → isTagRest d = false := by
      intro d hd
      cases hd
      rfl
    rw [List.cons_append, tag, if_pos hstart, ← List.cons_append,
      takeWhile_append_ends (isTagRest_of_isTag h) hends]

theorem ClosedBy.tail {delimiter body : List Char} {c : Char}
    (h : ClosedBy delimiter (c :: body)) : ClosedBy delimiter body := by
  intro before after hsame
  have hlength := h (c :: before) after (congrArg (c :: ·) hsame)
  exact Nat.le_of_succ_le_succ hlength

/-- The delimiter is found where it comes first. -/
theorem before?_of_closedBy {delimiter body : List Char} (h : ClosedBy delimiter body)
    (hne : delimiter ≠ []) (rest : List Char) :
    before? delimiter (body ++ (delimiter ++ rest)) = some body := by
  induction body with
  | nil =>
    obtain ⟨d, ds, rfl⟩ := List.exists_cons_of_ne_nil hne
    rw [List.nil_append, List.cons_append, before?, if_pos]
    exact List.isPrefixOf_iff_prefix.mpr ⟨rest, rfl⟩
  | cons c body ih =>
    -- an occurrence from `c` on would end within the body and its delimiter
    have hnot : ¬ delimiter <+: c :: (body ++ (delimiter ++ rest)) := by
      intro hfound
      have hclosed : c :: (body ++ delimiter) <+: c :: (body ++ (delimiter ++ rest)) :=
        ⟨rest, by simp⟩
      have hle : delimiter.length ≤ (c :: (body ++ delimiter)).length := by
        simp only [List.length_cons, List.length_append]
        omega
      obtain ⟨after, hafter⟩ := List.prefix_of_prefix_length_le hfound hclosed hle
      have hlength := h [] after hafter.symm
      simp at hlength
    rw [List.cons_append, before?, if_neg (mt List.isPrefixOf_iff_prefix.mp hnot), ih h.tail]
    rfl

/-- **A dollar-quoted body is copied, whatever comes behind it.** -/
theorem ofStatement_dollarBody {name body : List Char} (hname : IsTag name)
    (hbody : ClosedBy (delimiter name) body) (rest : List Char) :
    ofStatement (delimiter name ++ body ++ delimiter name ++ rest) =
      doublePercent (delimiter name ++ body ++ delimiter name) ++ ofStatement rest := by
  have hread : dollarQuotation (name ++ '$' :: (body ++ (delimiter name ++ rest))) =
      some (name ++ '$' :: (body ++ delimiter name)) := by
    simp only [dollarQuotation, tag_append hname, List.drop_left]
    have hfound := before?_of_closedBy hbody (List.cons_ne_nil _ _) rest
    rw [delimiter] at hfound ⊢
    rw [hfound]
    rfl
  have hsegment : segment '$' (name ++ '$' :: (body ++ delimiter name) ++ rest) =
      (.quoted ('$' :: (name ++ '$' :: (body ++ delimiter name))),
        (name ++ '$' :: (body ++ delimiter name)).length) := by
    rw [segment, if_neg (by decide), if_pos rfl]
    simp only [List.append_assoc, List.cons_append, hread]
  have hquoted := ofStatement_of_quoted hsegment
  simpa [delimiter] using hquoted

/-! ## Plain regions -/

theorem IsPlain.of_append (text : List Char) {rest : List Char} (h : IsPlain (text ++ rest)) :
    IsPlain rest where
  unquoted c hc := h.unquoted c (List.mem_append_right _ hc)
  numbered before after hrest := h.numbered (text ++ before) after (by simp [hrest])

/-- A dollar sign of a plain region has a number behind it. -/
theorem IsPlain.exists_digits {tail : List Char} (h : IsPlain ('$' :: tail)) :
    ∃ digits more, tail = digits ++ more ∧ digits ≠ [] ∧ (∀ c ∈ digits, c.isDigit = true) ∧
      (∀ c, more.head? = some c → c.isDigit = false) ∧ IsPlain more := by
  obtain ⟨d, hd, hdigit⟩ := h.numbered [] tail rfl
  refine ⟨tail.takeWhile Char.isDigit, tail.dropWhile Char.isDigit,
    List.takeWhile_append_dropWhile.symm, ?_, List.all_eq_true.mp List.all_takeWhile, ?_, ?_⟩
  · cases tail with
    | nil => cases hd
    | cons c tail =>
      cases hd
      simp [hdigit]
  · intro c hc
    have hnot := List.head?_dropWhile_not Char.isDigit tail
    rw [hc] at hnot
    exact hnot
  · refine IsPlain.of_append ('$' :: tail.takeWhile Char.isDigit) ?_
    rwa [List.cons_append, List.takeWhile_append_dropWhile]

/-- A character other than a dollar sign gives none. -/
theorem dollar_notMem_doublePercent {c : Char} (h : c ≠ '$') : '$' ∉ doublePercent [c] := by
  by_cases hc : c = '%'
  · simp [doublePercent, hc]
  · simp [doublePercent, hc, Ne.symm h]

theorem doublePercent_digits {digits : List Char} (h : ∀ c ∈ digits, c.isDigit = true) :
    doublePercent digits = digits := by
  induction digits with
  | nil => rfl
  | cons c digits ih =>
    have hc : c ≠ '%' := by
      rintro rfl
      cases h '%' List.mem_cons_self
    rw [doublePercent_cons, ih fun d hd => h d (List.mem_cons_of_mem _ hd)]
    simp [doublePercent, hc]

/-- No digit comes of a text that does not start with one. -/
theorem head_doublePercent {cs : List Char} (h : ∀ c, cs.head? = some c → c.isDigit = false) :
    ∀ c, (doublePercent cs).head? = some c → c.isDigit = false := by
  cases cs with
  | nil => nofun
  | cons c cs =>
    intro d hd
    rw [doublePercent_cons] at hd
    by_cases hc : c = '%'
    · simp only [doublePercent, hc] at hd
      cases hd
      rfl
    · simp only [doublePercent, List.flatMap_cons, if_neg hc] at hd
      cases hd
      exact h c rfl

/-- The digits at the head of a piece are a place. -/
theorem placed_append {digits piece : List Char} (hdigits : ∀ c ∈ digits, c.isDigit = true)
    (hpiece : ∀ c, piece.head? = some c → c.isDigit = false) :
    placed (digits ++ piece) = "%(p".toList ++ digits ++ ")s".toList ++ piece := by
  rw [placed, takeWhile_append_ends hdigits hpiece, dropWhile_append_ends hdigits hpiece]

/-- A position of a plain region becomes a place. -/
theorem afterEach_position {digits more : List Char} (hdigits : ∀ c ∈ digits, c.isDigit = true)
    (hmore : ∀ c, more.head? = some c → c.isDigit = false) :
    afterEach '$' placed (doublePercent ('$' :: (digits ++ more))) =
      "%(p".toList ++ digits ++ ")s".toList ++ afterEach '$' placed (doublePercent more) := by
  have hdouble : doublePercent ('$' :: (digits ++ more)) =
      '$' :: (digits ++ doublePercent more) := by
    rw [doublePercent_cons, doublePercent_append, doublePercent_digits hdigits]
    rfl
  have hdollar : '$' ∉ digits := by
    intro hmem
    cases hdigits '$' hmem
  rw [hdouble]
  refine afterEach_sep_append hdollar fun piece hpiece => ?_
  refine placed_append hdigits fun c hc => head_doublePercent hmore c ?_
  obtain ⟨others, hothers⟩ := hpiece
  rw [← hothers, List.head?_append, hc]
  rfl

/-- **A plain region has its positions replaced**, if no digit follows it. -/
theorem ofStatement_plainRegion {text rest : List Char} (h : IsPlain text)
    (hrest : ∀ c, rest.head? = some c → c.isDigit = false) :
    ofStatement (text ++ rest) =
      afterEach '$' placed (doublePercent text) ++ ofStatement rest := by
  -- by length, because a position is read at once
  induction hn : text.length using Nat.strong_induction_on generalizing text with
  | _ n ih =>
    cases text with
    | nil => rfl
    | cons c tail =>
      by_cases hc : c = '$'
      · subst hc
        obtain ⟨digits, more, rfl, hne, hdigits, hnext, hmore⟩ := h.exists_digits
        have hjoin : ∀ c, (more ++ rest).head? = some c → c.isDigit = false := by
          cases more with
          | nil => exact hrest
          | cons d more => exact hnext
        have hsmaller : more.length < n := by
          simp only [List.length_cons, List.length_append] at hn
          omega
        rw [List.cons_append, List.append_assoc, ofStatement_position hne hdigits hjoin,
          ih more.length hsmaller hmore rfl, afterEach_position hdigits hnext]
        exact (List.append_assoc _ _ _).symm
      · have hplain : Plain c :=
          ⟨(h.unquoted c List.mem_cons_self).1, (h.unquoted c List.mem_cons_self).2, hc⟩
        have hsmaller : tail.length < n := by
          simp only [List.length_cons] at hn
          omega
        rw [List.cons_append, ofStatement_plain hplain,
          ih tail.length hsmaller (IsPlain.of_append [c] h) rfl, doublePercent_cons c tail,
          afterEach_append_of_notMem (dollar_notMem_doublePercent hc), List.append_assoc]

/-! ## Whole statements -/

/-- A region behind a plain one starts with no digit. -/
theorem Region.head_text {r : Region} (h : r.isPlain = false) (rest : List Char) :
    ∀ c, (r.text ++ rest).head? = some c → c.isDigit = false := by
  intro c hc
  cases r with
  | plain text _ => cases h
  | quotation quote hquote content =>
    cases hc
    rcases hquote with rfl | rfl <;> rfl
  | dollarBody tag body _ _ =>
    cases hc
    rfl

/-- The regions of a statement are read one after the other. -/
theorem ofStatement_regions {regions : List Region}
    (h : regions.IsChain fun r s => ¬ (r.isPlain = true ∧ s.isPlain = true)) :
    ofStatement (regions.flatMap Region.text) = regions.flatMap Region.template := by
  induction regions with
  | nil => exact ofStatement_nil
  | cons r regions ih =>
    have hrest := ih h.tail
    rw [List.flatMap_cons, List.flatMap_cons, ← hrest, Region.template]
    cases r with
    | plain text hplain =>
      refine ofStatement_plainRegion hplain ?_
      cases regions with
      | nil => nofun
      | cons s regions =>
        have hs : s.isPlain = false :=
          Bool.eq_false_iff.mpr fun hs => (List.isChain_cons_cons.mp h).1 ⟨rfl, hs⟩
        exact Region.head_text hs _
    | quotation quote hquote content => exact ofStatement_quotation hquote content _
    | dollarBody tag body htag hclosed => exact ofStatement_dollarBody htag hclosed _

/-- **A template is made region by region.** A statement is a row of regions, no two plain ones side
by side. For such a statement and its values the driver gets the regions one after the other: plain
ones with their positions replaced by places, all others as they are, and every percent sign of
either doubled. -/
theorem ofRunnable_regions {regions : List Region} {values : List Value} (hvalues : values ≠ [])
    (h : regions.IsChain fun r s => ¬ (r.isPlain = true ∧ s.isPlain = true)) :
    Command.ofRunnable (.plain (.ofList (regions.flatMap Region.text))) values =
      { text := .ofList (regions.flatMap Region.template)
        arguments := .byName (Command.numbered 1 values) } := by
  rw [Command.ofRunnable, Command.ofStatement, if_neg (by simpa using hvalues),
    String.toList_ofList, ofStatement_regions h]

/-- A position alone is plain. -/
theorem isPlain_position {d : Char} {tail : List Char} (hd : d.isDigit = true)
    (hunquoted : '\'' ∉ d :: tail ∧ '"' ∉ d :: tail) (hdollar : '$' ∉ d :: tail) :
    IsPlain ('$' :: d :: tail) where
  unquoted c hc := by
    rcases List.mem_cons.mp hc with rfl | hc
    · decide
    · exact ⟨fun h => hunquoted.1 (h ▸ hc), fun h => hunquoted.2 (h ▸ hc)⟩
  numbered before after h := by
    cases before with
    | nil =>
      cases h
      exact ⟨d, rfl, hd⟩
    | cons c before =>
      refine absurd ?_ hdollar
      rw [(List.cons.inj h).2]
      simp

/-- Two strings that are read as one, with a quote, a position and a percent sign in them, and a
body with the beginnings of other bodies. -/
def adjacentRegions : List Region :=
  [.plain ['$', '1', '%'] (isPlain_position rfl (by decide) (by decide)),
    .quotation '\'' (.inl rfl) "a'$2".toList, .quotation '\'' (.inl rfl) ['%'],
    .dollarBody ['t'] ['$', '1', '$', '$'] ⟨by simp, by simp⟩ (by
      intro before after h
      rcases before with _ | ⟨_, _ | ⟨_, _ | ⟨_, _ | ⟨_, _⟩⟩⟩⟩ <;> simp_all [delimiter]),
    .plain ['$', '1', '0'] (isPlain_position rfl (by decide) (by decide))]

theorem ofRunnable_regions_adjacent :
    .ofList (adjacentRegions.flatMap Region.text) = "$1%'a''$2''%'$t$$1$$$t$$10" ∧
    Command.ofRunnable (.plain "$1%'a''$2''%'$t$$1$$$t$$10") [.int 7] =
      { text := "%(p1)s%%'a''$2''%%'$t$$1$$$t$%(p10)s"
        arguments := .byName [("p1", .int 7)] } := by
  have hregions := @ofRunnable_regions adjacentRegions [.int 7] (by simp)
    (by simp [adjacentRegions, Region.isPlain])
  have htext : .ofList (adjacentRegions.flatMap Region.text) = "$1%'a''$2''%'$t$$1$$$t$$10" := by
    decide +kernel
  have htemplate : .ofList (adjacentRegions.flatMap Region.template) =
      "%(p1)s%%'a''$2''%%'$t$$1$$$t$%(p10)s" := by decide +kernel
  rw [htext, htemplate] at hregions
  exact ⟨htext, hregions⟩

end QueryBook.Template
