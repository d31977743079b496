import QueryBook.Proofs.Statement.Binding

/-!
# A template gives back its statement

The driver reads a template from left to right, and a percent sign must start one of two things: a
second percent sign, or the place of a numbered parameter. `Mark.read` is that reading, and
`read_eq_some_iff` says that it accepts the texts that are made of marks and no others, each in one
way. The template of a statement is such a text, and its marks spell out the statement again,
whatever the statement is: where a quotation is not closed the cut into segments falls differently,
but wherever it falls, nothing is left out and every percent sign is doubled.
-/

namespace QueryBook.Template

/-! ## How a driver reads a template -/

/-- A part of a template. -/
inductive Mark where
  /-- A character that stands for itself. -/
  | copy (c : Char) (plain : c ≠ '%')
  /-- Two percent signs, which stand for one. -/
  | percent
  /-- The place of a parameter. -/
  | place (digits : List Char) (nonempty : digits ≠ []) (all : ∀ c ∈ digits, c.isDigit = true)

namespace Mark

/-- The mark in a template. -/
def text : Mark → List Char
  | copy c _ => [c]
  | percent => ['%', '%']
  | place digits _ _ => "%(p".toList ++ digits ++ ")s".toList

/-- What the mark stands for in a statement. -/
def original : Mark → List Char
  | copy c _ => [c]
  | percent => ['%']
  | place digits _ _ => '$' :: digits

/-- The mark of a character of a statement. -/
def ofChar (c : Char) : Mark := if h : c = '%' then percent else copy c h

/-- The mark that a percent sign starts, given what follows the sign. -/
def afterPercent? : List Char → Option Mark
  | '%' :: _ => some percent
  | '(' :: 'p' :: rest =>
    if h : rest.takeWhile Char.isDigit ≠ [] ∧ ")s".toList <+: rest.dropWhile Char.isDigit then
      some (place (rest.takeWhile Char.isDigit) h.1 (List.all_eq_true.mp List.all_takeWhile))
    else none
  | _ => none

/-- The marks of a template, unless some percent sign starts none. -/
def read : List Char → Option (List Mark)
  | [] => some []
  | c :: rest =>
    if h : c = '%' then
      match afterPercent? rest with
      | some m => (read (rest.drop (m.text.length - 1))).map (m :: ·)
      | none => none
    else (read rest).map (copy c h :: ·)
termination_by cs => cs.length
decreasing_by all_goals simp only [List.length_cons, List.length_drop]; omega

theorem prefix_of_afterPercent? {rest : List Char} {m : Mark} (h : afterPercent? rest = some m) :
    m.text <+: '%' :: rest := by
  unfold afterPercent? at h
  split at h
  · rename_i rest
    cases h
    exact ⟨rest, rfl⟩
  · rename_i rest
    split at h
    · rename_i hplace
      obtain ⟨_, tail, htail⟩ := hplace
      cases h
      have hrest : rest.takeWhile Char.isDigit ++ (")s".toList ++ tail) = rest := by
        rw [htail, List.takeWhile_append_dropWhile]
      refine ⟨tail, ?_⟩
      rw [text, List.append_assoc, List.append_assoc, hrest]
      rfl
    · cases h
  · cases h

theorem afterPercent?_eq_some {rest : List Char} {m : Mark} (h : afterPercent? rest = some m) :
    '%' :: rest = m.text ++ rest.drop (m.text.length - 1) := by
  have hpos : m.text.length = m.text.length - 1 + 1 := by
    cases m <;> simp [text]
  have happend := List.prefix_iff_eq_append.mp (prefix_of_afterPercent? h)
  rw [hpos, List.drop_succ_cons] at happend
  exact happend.symm

/-- A percent sign is read together with the mark that it starts. -/
theorem afterPercent?_text {m : Mark} {rest tail : List Char}
    (h : m.text ++ rest = '%' :: tail) : afterPercent? tail = some m := by
  cases m with
  | copy c hc => exact absurd (List.cons.inj h).1 hc
  | percent =>
    cases h
    rfl
  | place digits hne hall =>
    have htail : tail = '(' :: 'p' :: (digits ++ ')' :: 's' :: rest) := by
      simpa [text] using h.symm
    have htake : (digits ++ ')' :: 's' :: rest).takeWhile Char.isDigit = digits :=
      Binding.takeWhile_append_ends hall fun c hc => by cases hc; rfl
    have hdrop : (digits ++ ')' :: 's' :: rest).dropWhile Char.isDigit = ')' :: 's' :: rest := by
      rw [List.dropWhile_append_of_pos hall]
      rfl
    subst htail
    simp only [afterPercent?, htake, hdrop]
    rw [dif_pos ⟨hne, rest, rfl⟩]

theorem read_text_append (m : Mark) (rest : List Char) :
    read (m.text ++ rest) = (read rest).map (m :: ·) := by
  obtain ⟨c, tail, hcons⟩ : ∃ c tail, m.text ++ rest = c :: tail := by
    cases m <;> exact ⟨_, _, rfl⟩
  rw [hcons, read]
  by_cases hc : c = '%'
  · subst hc
    have hmark := afterPercent?_text hcons
    have hrest : tail.drop (m.text.length - 1) = rest :=
      List.append_cancel_left ((afterPercent?_eq_some hmark).symm.trans hcons.symm)
    simp only [↓reduceDIte, hmark, hrest]
  · cases m with
    | copy d hd =>
      cases hcons
      rw [dif_neg hd]
      rfl
    | percent => exact absurd (List.cons.inj hcons).1.symm hc
    | place digits _ _ => exact absurd (List.cons.inj hcons).1.symm hc

/-- **The texts that can be read are those made of marks, and each is read in one way.** -/
theorem read_eq_some_iff {t : List Char} {ms : List Mark} :
    read t = some ms ↔ t = ms.flatMap text := by
  constructor
  · intro h
    fun_induction read t generalizing ms with
    | case1 =>
      cases h
      rfl
    | case2 rest m hmark ih =>
      obtain ⟨others, hothers, rfl⟩ := Option.map_eq_some_iff.mp h
      rw [afterPercent?_eq_some hmark, ih hothers]
      rfl
    | case3 => cases h
    | case4 c rest hc ih =>
      obtain ⟨others, hothers, rfl⟩ := Option.map_eq_some_iff.mp h
      rw [ih hothers]
      rfl
  · rintro rfl
    induction ms with
    | nil =>
      rw [List.flatMap_nil, read]
    | cons m ms ih => rw [List.flatMap_cons, read_text_append, ih, Option.map_some]

end Mark

/-! ## Segments leave nothing out -/

/-- What a segment was cut from. -/
def Segment.original : Segment → List Char
  | .char c => [c]
  | .quoted text => text
  | .parameter digits => '$' :: digits

theorem prefix_of_quotation {quote : Char} {cs body : List Char}
    (h : quotation quote cs = some body) : body <+: cs := by
  fun_induction quotation quote cs generalizing body with
  | case1 => cases h
  | case2 c cs _ ih =>
    obtain ⟨inner, hinner, rfl⟩ := Option.map_eq_some_iff.mp h
    exact (List.prefix_cons_inj c).mpr (ih hinner)
  | case3 c hc =>
    cases h
    obtain rfl := Decidable.not_not.mp hc
    exact List.prefix_refl _
  | case4 c hc d ds _ =>
    cases h
    rw [Decidable.not_not.mp hc]
    exact ⟨d :: ds, rfl⟩
  | case5 c hc d ds hd inner hinner ih =>
    cases h
    rw [Decidable.not_not.mp hc, Decidable.not_not.mp hd]
    exact (List.prefix_cons_inj _).mpr ((List.prefix_cons_inj _).mpr (ih hinner))
  | case6 c hc d ds _ _ _ =>
    cases h
    rw [Decidable.not_not.mp hc]
    exact ⟨d :: ds, rfl⟩

theorem prefix_of_before? {delimiter cs body : List Char} (h : before? delimiter cs = some body) :
    body ++ delimiter <+: cs := by
  induction cs generalizing body with
  | nil =>
    rw [before?] at h
    split at h
    · rename_i hnil
      cases h
      rw [hnil]
      exact List.prefix_refl []
    · cases h
  | cons c cs ih =>
    rw [before?] at h
    split at h
    · rename_i hfound
      cases h
      exact List.isPrefixOf_iff_prefix.mp hfound
    · obtain ⟨inner, hinner, rfl⟩ := Option.map_eq_some_iff.mp h
      exact (List.prefix_cons_inj c).mpr (ih hinner)

theorem prefix_of_tag (cs : List Char) : tag cs <+: cs := by
  unfold tag
  split
  · split
    · exact List.takeWhile_prefix _
    · exact List.nil_prefix
  · exact List.nil_prefix

theorem prefix_of_dollarQuotation {cs body : List Char} (h : dollarQuotation cs = some body) :
    body <+: cs := by
  unfold dollarQuotation at h
  simp only at h
  split at h
  · rename_i rest hrest
    obtain ⟨inner, hinner, rfl⟩ := Option.map_eq_some_iff.mp h
    have hcs : tag cs ++ '$' :: rest = cs := by
      rw [← hrest]
      exact List.prefix_iff_eq_append.mp (prefix_of_tag cs)
    have hclosed := (List.prefix_cons_inj '$').mpr (prefix_of_before? hinner)
    have hbody := (List.prefix_append_right_inj (tag cs)).mpr hclosed
    rwa [hcs] at hbody
  · cases h

/-- A segment is cut from the head of a statement. -/
theorem segment_original (c : Char) (cs : List Char) :
    (segment c cs).1.original ++ cs.drop (segment c cs).2 = c :: cs := by
  have hquoted : ∀ {body : List Char}, body <+: cs → c :: body ++ cs.drop body.length = c :: cs :=
    fun hbody => congrArg (c :: ·) (List.prefix_iff_eq_append.mp hbody)
  unfold segment
  split
  · split
    · rename_i body hbody
      exact hquoted (prefix_of_quotation hbody)
    · rfl
  · split
    · rename_i hdollar
      split
      · rename_i body hbody
        exact hquoted (prefix_of_dollarQuotation hbody)
      · split
        · rfl
        · subst hdollar
          exact hquoted (List.takeWhile_prefix _)
    · rfl

/-- **The segments of a statement spell it out.** -/
theorem segments_original (cs : List Char) : (segments cs).flatMap Segment.original = cs := by
  fun_induction segments cs with
  | case1 => rfl
  | case2 c cs ih => rw [List.flatMap_cons, ih, segment_original]

/-- The parameter of a segment is a number. -/
theorem digits_of_mem_segments {cs digits : List Char} (h : .parameter digits ∈ segments cs) :
    digits ≠ [] ∧ ∀ c ∈ digits, c.isDigit = true := by
  fun_induction segments cs with
  | case1 => cases h
  | case2 c cs ih =>
    rcases List.mem_cons.mp h with h | h
    · unfold segment at h
      split at h
      · split at h <;> cases h
      · split at h
        · split at h
          · cases h
          · split at h
            · cases h
            · rename_i hne
              cases h
              exact ⟨hne, List.all_eq_true.mp List.all_takeWhile⟩
        · cases h
    · exact ih h

/-! ## The marks of a statement -/

theorem doublePercent_eq (cs : List Char) :
    doublePercent cs = (cs.map Mark.ofChar).flatMap Mark.text := by
  rw [doublePercent, List.flatMap_map]
  congr 1
  funext c
  unfold Mark.ofChar
  split <;> rfl

theorem original_map_ofChar (cs : List Char) :
    (cs.map Mark.ofChar).flatMap Mark.original = cs := by
  induction cs with
  | nil => rfl
  | cons c cs ih =>
    rw [List.map_cons, List.flatMap_cons, ih, Mark.ofChar]
    split
    · rename_i h
      rw [h]
      rfl
    · rfl

/-- A segment is written as marks that stand for it. -/
theorem Segment.exists_marks {cs : List Char} {s : Segment} (hs : s ∈ segments cs) :
    ∃ ms : List Mark, s.render = ms.flatMap Mark.text ∧ ms.flatMap Mark.original = s.original := by
  cases s with
  | char c => exact ⟨_, doublePercent_eq [c], original_map_ofChar [c]⟩
  | quoted text => exact ⟨_, doublePercent_eq text, original_map_ofChar text⟩
  | parameter digits =>
    obtain ⟨hne, hall⟩ := digits_of_mem_segments hs
    refine ⟨[.place digits hne hall], ?_, ?_⟩
    · simp [Segment.render, Mark.text]
    · simp [Segment.original, Mark.original]

/-- **The template of a statement is made of marks that stand for the statement.** -/
theorem ofStatement_marks (cs : List Char) :
    ∃ ms : List Mark, ofStatement cs = ms.flatMap Mark.text ∧ ms.flatMap Mark.original = cs := by
  have hall : ∀ ss : List Segment, (∀ s ∈ ss, s ∈ segments cs) → ∃ ms : List Mark,
      ss.flatMap Segment.render = ms.flatMap Mark.text ∧
        ms.flatMap Mark.original = ss.flatMap Segment.original := by
    intro ss hss
    induction ss with
    | nil => exact ⟨[], rfl, rfl⟩
    | cons s ss ih =>
      obtain ⟨ms, hrender, horiginal⟩ := Segment.exists_marks (hss s List.mem_cons_self)
      obtain ⟨others, hrenders, horiginals⟩ := ih fun r hr => hss r (List.mem_cons_of_mem _ hr)
      refine ⟨ms ++ others, ?_, ?_⟩
      · rw [List.flatMap_cons, List.flatMap_append, hrender, hrenders]
      · rw [List.flatMap_cons, List.flatMap_append, horiginal, horiginals]
  obtain ⟨ms, hrender, horiginal⟩ := hall (segments cs) fun _ h => h
  exact ⟨ms, hrender, horiginal.trans (segments_original cs)⟩

/-- **A template is well formed and loses nothing.** The text that the driver gets for a statement
and its values is made of marks, read from left to right in the one way there is, and with each mark
replaced by what it stands for it is the statement. -/
theorem ofRunnable_restores (statement : String) {values : List Value} (h : values ≠ []) :
    ∃ (text : String) (arguments : List (String × Value)) (ms : List Mark),
      Command.ofRunnable (.plain statement) values = { text, arguments := .byName arguments } ∧
      Mark.read text.toList = some ms ∧
      text.toList = ms.flatMap Mark.text ∧
      (∀ ms' : List Mark, text.toList = ms'.flatMap Mark.text → ms' = ms) ∧
      statement.toList = ms.flatMap Mark.original := by
  obtain ⟨ms, htext, horiginal⟩ := ofStatement_marks statement.toList
  have hread := Mark.read_eq_some_iff.mpr htext
  refine ⟨.ofList (ofStatement statement.toList), Command.numbered 1 values, ms, ?_, ?_, ?_, ?_,
    horiginal.symm⟩
  · rw [Command.ofRunnable, Command.ofStatement, if_neg (by simpa using h)]
  · rwa [String.toList_ofList]
  · rwa [String.toList_ofList]
  · intro ms' hms'
    rw [String.toList_ofList] at hms'
    exact Option.some.inj ((Mark.read_eq_some_iff.mpr hms').symm.trans hread)

/-- A quotation with a percent sign, text that looks like a place and like a doubled percent sign,
and behind it a dollar quotation and a quote that are never closed. -/
theorem ofRunnable_restores_unclosed :
    Command.ofRunnable (.plain "'%$9' %(p1)s $2 %% $q$ '$1") [.null, .int 7] =
      { text := "'%%$9' %%(p1)s %(p2)s %%%% $q$ '%(p1)s"
        arguments := .byName [("p1", .null), ("p2", .int 7)] } ∧
    (Mark.read "'%%$9' %%(p1)s %(p2)s %%%% $q$ '%(p1)s".toList).map (·.flatMap Mark.original) =
      some "'%$9' %(p1)s $2 %% $q$ '$1".toList := by
  obtain ⟨text, arguments, ms, hcommand, hread, _, _, horiginal⟩ :=
    @ofRunnable_restores "'%$9' %(p1)s $2 %% $q$ '$1" [.null, .int 7] (by simp)
  have htemplate : String.ofList (ofStatement "'%$9' %(p1)s $2 %% $q$ '$1".toList) =
      "'%%$9' %%(p1)s %(p2)s %%%% $q$ '%(p1)s" := by decide +kernel
  have htext : Command.ofRunnable (.plain "'%$9' %(p1)s $2 %% $q$ '$1") [.null, .int 7] =
      { text := "'%%$9' %%(p1)s %(p2)s %%%% $q$ '%(p1)s"
        arguments := .byName [("p1", .null), ("p2", .int 7)] } := by
    rw [← htemplate]
    rfl
  cases hcommand.symm.trans htext
  exact ⟨htext, by rw [hread, Option.map_some, horiginal]⟩

end QueryBook.Template
