import QueryBook.Proofs.Statement.Splitting

/-!
# What the strict mode refuses

A stray is a marker that is no parameter and has no second colon before it. The strict mode refuses
a statement for its leftmost stray and changes nothing else. The scan decides whether a colon comes
before a marker from a flag that it carries along, so the flag has to be tied to the text: a
statement can be cut before any colon, and the scan of the second part starts with the flag that
the last character of the first part gives (`pieces_append_colon`).

For a module this means that the two modes go in step. They differ in the statement texts only, and
`SameUnless` carries this through the generation: the strict work does what the lenient work does,
unless it has stopped at a stray.
-/

namespace QueryBook

namespace Placeholder

open Binding Text

/-! ## Where the markers are -/

/-- Whether a colon comes right before what follows `cs`, if `b` says so of `cs` itself. -/
def colonBefore (b : Bool) (cs : List Char) : Bool := (cs.getLast?.map (· == ':')).getD b

theorem colonBefore_cons (b : Bool) (c : Char) (cs : List Char) :
    colonBefore b (c :: cs) = colonBefore (c == ':') cs := by
  rw [colonBefore, colonBefore, List.getLast?_cons]
  cases cs.getLast? with
  | none => rfl
  | some d => rfl

/-- There is no colon at the end of a word. -/
theorem colonBefore_word {name : List Char} (hne : name ≠ []) (hname : ∀ c ∈ name, isWord c = true)
    (b : Bool) (cs : List Char) : colonBefore b (name ++ cs) = colonBefore false cs := by
  induction name generalizing b with
  | nil => exact absurd rfl hne
  | cons c name ih =>
    have hc : (c == ':') = false :=
      beq_eq_false_iff_ne.mpr (ne_of_isWord (hname c List.mem_cons_self) (by decide))
    rw [List.cons_append, colonBefore_cons, hc]
    cases name with
    | nil => rfl
    | cons d name =>
      exact ih (List.cons_ne_nil d name) (fun d hd => hname d (List.mem_cons_of_mem _ hd)) false

theorem colonBefore_marker {name : List Char} (hname : IsIdentifier name) (b : Bool)
    (cs : List Char) : colonBefore b (':' :: (name ++ cs)) = colonBefore false cs := by
  rw [colonBefore_cons, colonBefore_word hname.ne_nil hname.2]

theorem colonBefore_eq_false_iff {cs : List Char} :
    colonBefore false cs = false ↔ cs.getLast? ≠ some ':' := by
  rw [colonBefore]
  cases cs.getLast? with
  | none => simp
  | some c => simp

theorem pieces_colon {cs : List Char} (h : startsName cs = false) (b : Bool) :
    pieces b (':' :: cs) = .char ':' :: pieces true cs := by
  rw [pieces, if_pos rfl, identifier_eq_nil_iff.mpr h]

theorem pieces_marker {name rest : List Char} (hname : IsIdentifier name)
    (hrest : Binding.Ends rest) (b : Bool) :
    pieces b (':' :: (name ++ rest)) = .marker name b :: pieces false rest := by
  rw [pieces, if_pos rfl, identifier_append hname hrest]
  split
  · exact absurd rfl hname.ne_nil
  · rw [List.drop_left]

/-- **A statement can be cut before a colon.** -/
theorem pieces_append_colon (b : Bool) (cs ds : List Char) :
    pieces b (cs ++ ':' :: ds) = pieces b cs ++ pieces (colonBefore b cs) (':' :: ds) := by
  fun_induction pieces b cs with
  | case1 b => rfl
  | case2 b cs hid ih =>
    have hstarts : startsName (cs ++ ':' :: ds) = false := by
      cases cs with
      | nil => rfl
      | cons c cs =>
        have hcs : startsName (c :: cs) = false := identifier_eq_nil_iff.mp hid
        exact hcs
    rw [List.cons_append, pieces_colon hstarts, ih, colonBefore_cons]
    rfl
  | case3 b cs hid ih =>
    obtain ⟨name, rest, rfl, hname, hrest⟩ := exists_identifier hid
    rw [identifier_append hname hrest, List.drop_left] at ih ⊢
    have hends : Binding.Ends (rest ++ ':' :: ds) := by
      cases rest with
      | nil =>
        intro c hc
        cases hc
        decide
      | cons c rest => exact hrest
    rw [List.cons_append, List.append_assoc, pieces_marker hname hends, ih,
      colonBefore_marker hname]
    rfl
  | case4 b c cs hc ih =>
    rw [List.cons_append, pieces, if_neg hc, ih, colonBefore_cons, beq_eq_false_iff_ne.mpr hc]
    rfl

/-- Every marker is met, with the flag that its place gives it. -/
theorem pieces_of_marker {before name after : List Char} (hname : IsIdentifier name)
    (hafter : Binding.Ends after) :
    pieces false (before ++ ':' :: (name ++ after)) =
      pieces false before ++ .marker name (colonBefore false before) :: pieces false after := by
  rw [pieces_append_colon, pieces_marker hname hafter]

/-- What is met as a marker is one, behind all that was met before. -/
theorem marker_of_pieces {b flag : Bool} {cs name : List Char} {earlier later : List Piece}
    (h : pieces b cs = earlier ++ .marker name flag :: later) :
    flag = colonBefore b (earlier.flatMap Piece.original) ∧
      ∃ after, cs = earlier.flatMap Piece.original ++ ':' :: (name ++ after) ∧
        IsIdentifier name ∧ Binding.Ends after := by
  fun_induction pieces b cs generalizing earlier with
  | case1 b => cases earlier <;> cases h
  | case2 b cs hid ih =>
    cases earlier with
    | nil => cases h
    | cons p earlier =>
      obtain ⟨rfl, htail⟩ := List.cons.inj h
      obtain ⟨hflag, after, hcs, hmarker⟩ := ih htail
      refine ⟨?_, after, congrArg (':' :: ·) hcs, hmarker⟩
      rw [hflag]
      exact (colonBefore_cons b ':' _).symm
  | case3 b cs hid ih =>
    obtain ⟨first, rest, rfl, hfirst, hrest⟩ := exists_identifier hid
    rw [identifier_append hfirst hrest, List.drop_left] at ih h
    cases earlier with
    | nil =>
      cases h
      exact ⟨rfl, rest, rfl, hfirst, hrest⟩
    | cons p earlier =>
      obtain ⟨rfl, htail⟩ := List.cons.inj h
      obtain ⟨hflag, after, hcs, hmarker⟩ := ih htail
      refine ⟨?_, after, ?_, hmarker⟩
      · rw [hflag]
        exact (colonBefore_marker hfirst b _).symm
      · rw [hcs, List.flatMap_cons, Piece.original, List.cons_append, List.cons_append,
          List.append_assoc]
  | case4 b c cs hc ih =>
    cases earlier with
    | nil => cases h
    | cons p earlier =>
      obtain ⟨rfl, htail⟩ := List.cons.inj h
      obtain ⟨hflag, after, hcs, hmarker⟩ := ih htail
      refine ⟨?_, after, congrArg (c :: ·) hcs, hmarker⟩
      rw [hflag, ← beq_eq_false_iff_ne.mpr hc]
      exact (colonBefore_cons b c _).symm

/-! ## Strays -/

/-- `cs` has, behind `before`, a marker `name` that is no parameter and has one colon only. -/
structure Stray (names : List String) (cs before name : List Char) : Prop where
  marker : ∃ after, cs = before ++ ':' :: (name ++ after) ∧ IsIdentifier name ∧ Binding.Ends after
  undeclared : String.ofList name ∉ names
  single : before.getLast? ≠ some ':'

/-- `name` is the first stray of `cs`. -/
def LeftmostStray (names : List String) (cs name : List Char) : Prop :=
  ∃ before, Stray names cs before name ∧
    ∀ before' name', Stray names cs before' name' → before.length ≤ before'.length

theorem unmatched?_eq_some_iff {names : List String} {p : Piece} {name : List Char} :
    p.unmatched? (names.map String.toList) = some name ↔
      p = .marker name false ∧ String.ofList name ∉ names := by
  cases p with
  | char c => simp [Piece.unmatched?]
  | marker found flag =>
    rw [Piece.unmatched?, position?_eq, Piece.marker.injEq]
    by_cases hmem : String.ofList found ∈ names
    · have hnot : ¬ ((found = name ∧ flag = false) ∧ String.ofList name ∉ names) := by
        rintro ⟨⟨rfl, _⟩, hnot⟩
        exact hnot hmem
      simp [hmem, hnot]
    · cases flag with
      | true => simp
      | false =>
        simp only [hmem, if_false, Bool.false_eq_true, Option.isSome_none, or_false,
          Option.some.injEq, and_true]
        constructor
        · rintro rfl
          exact ⟨rfl, hmem⟩
        · exact fun h => h.1

/-- A stray is met behind the pieces of what comes before it. -/
theorem Stray.exists_pieces {names : List String} {cs before name : List Char}
    (h : Stray names cs before name) :
    ∃ later, pieces false cs = pieces false before ++ .marker name false :: later := by
  obtain ⟨⟨after, rfl, hname, hafter⟩, _, hsingle⟩ := h
  exact ⟨_, by rw [pieces_of_marker hname hafter, colonBefore_eq_false_iff.mpr hsingle]⟩

theorem firstUnmatched?_eq_none_iff {names : List String} {cs : List Char} :
    firstUnmatched? (names.map String.toList) cs = none ↔
      ∀ before name, ¬ Stray names cs before name := by
  rw [firstUnmatched?, List.findSome?_eq_none_iff]
  constructor
  · intro h before name hstray
    obtain ⟨later, hpieces⟩ := hstray.exists_pieces
    have hmem : .marker name false ∈ pieces false cs := by simp [hpieces]
    have hsome := unmatched?_eq_some_iff.mpr ⟨rfl, hstray.undeclared⟩
    rw [h _ hmem] at hsome
    cases hsome
  · intro h p hp
    refine Option.eq_none_iff_forall_ne_some.mpr fun name hname => ?_
    obtain ⟨rfl, hnot⟩ := unmatched?_eq_some_iff.mp hname
    obtain ⟨earlier, later, hpieces⟩ := List.append_of_mem hp
    obtain ⟨hflag, hmarker⟩ := marker_of_pieces hpieces
    exact h _ name ⟨hmarker, hnot, colonBefore_eq_false_iff.mp hflag.symm⟩

/-- **What the scan refuses first is the leftmost stray.** -/
theorem leftmostStray_of_firstUnmatched? {names : List String} {cs name : List Char}
    (h : firstUnmatched? (names.map String.toList) cs = some name) :
    LeftmostStray names cs name := by
  obtain ⟨earlier, p, later, hpieces, hp, hearlier⟩ := List.findSome?_eq_some_iff.mp h
  obtain ⟨rfl, hnot⟩ := unmatched?_eq_some_iff.mp hp
  obtain ⟨hflag, hmarker⟩ := marker_of_pieces hpieces
  refine ⟨_, ⟨hmarker, hnot, colonBefore_eq_false_iff.mp hflag.symm⟩, ?_⟩
  intro before' name' hstray
  obtain ⟨later', hpieces'⟩ := hstray.exists_pieces
  have hbefore' := pieces_original false before'
  rcases List.append_eq_append_iff.mp (hpieces.symm.trans hpieces') with
    ⟨between, hsame, _⟩ | ⟨between, hsame, hrest⟩
  · -- the other stray comes later, so all that was met before is before it too
    rw [← hbefore', hsame, List.flatMap_append, List.length_append]
    exact Nat.le_add_right _ _
  · cases between with
    | nil =>
      rw [List.append_nil] at hsame
      rw [hsame, hbefore']
    | cons q between =>
      -- the other stray would have been refused before
      obtain ⟨rfl, _⟩ := List.cons.inj hrest
      have hnone := hearlier (.marker name' false) (by simp [hsame])
      rw [unmatched?_eq_some_iff.mpr ⟨rfl, hstray.undeclared⟩] at hnone
      cases hnone

/-! ## The two modes on a statement -/

/-- The error for a stray. -/
def refusal (query : Option String) (names : List String) (name : List Char) : BookError :=
  { fault := .unmatchedPlaceholder (.ofList name) names, query, line := none }

/-- A statement is refused for its leftmost stray, or treated as in the lenient mode. -/
theorem toPositions_strict_cases (query : Option String) (names : List String) (sql : String) :
    (∃ name, LeftmostStray names sql.toList name ∧
      toPositions true query names sql = .error (refusal query names name)) ∨
    (∀ before name, ¬ Stray names sql.toList before name) ∧
      toPositions true query names sql = toPositions false query names sql := by
  cases hfirst : firstUnmatched? (names.map String.toList) sql.toList with
  | some name =>
    refine .inl ⟨name, leftmostStray_of_firstUnmatched? hfirst, ?_⟩
    simp only [toPositions, hfirst, refusal]
  | none =>
    refine .inr ⟨firstUnmatched?_eq_none_iff.mp hfirst, ?_⟩
    simp only [toPositions, hfirst]

end Placeholder

/-! ## The two modes on a module -/

/-- `x` is `y`, unless it failed for a reason of the kind `R`. -/
def SameUnless {ε α : Type} (R : ε → Prop) (x y : Except ε α) : Prop :=
  x = y ∨ ∃ e, R e ∧ x = .error e

namespace SameUnless

variable {ε α β : Type} {R R' : ε → Prop} {x y : Except ε α}

theorem bind {f g : α → Except ε β} (h : SameUnless R x y)
    (hf : ∀ a, SameUnless R (f a) (g a)) : SameUnless R (x >>= f) (y >>= g) := by
  rcases h with rfl | ⟨e, he, rfl⟩
  · cases x with
    | ok a => exact hf a
    | error e => exact .inl rfl
  · exact .inr ⟨e, he, rfl⟩

theorem mono (hR : ∀ e, R e → R' e) (h : SameUnless R x y) : SameUnless R' x y :=
  h.imp_right fun ⟨e, he, hx⟩ => ⟨e, hR e he, hx⟩

end SameUnless

/-- The options with the strict mode on or off. -/
def Config.withStrict (config : Config) (strict : Bool) : Config :=
  { config with strictPlaceholders := strict }

/-- `e` is the refusal of a query for the leftmost stray of its statement. -/
def Query.Refused (q : Query) (e : CodeError) : Prop :=
  q.named = true ∧ ∃ name, Placeholder.LeftmostStray q.parameterNames q.statement.toList name ∧
    e = .refused (Placeholder.refusal (some q.name) q.parameterNames name)

/-- `e` is the refusal of a query of the book. -/
def Book.Refused (b : Book) (e : CodeError) : Prop := ∃ q ∈ b.queries, q.Refused e

theorem Backend.statementText_sameUnless (config : Config) (g : Backend) (q : Query) :
    SameUnless q.Refused (g.statementText (config.withStrict true) q).outcome
      (g.statementText (config.withStrict false) q).outcome := by
  unfold Backend.statementText
  split
  · rename_i hnamed
    simp only [Journaled.outcome_bind, Journaled.outcome_lift]
    refine SameUnless.bind ?_ fun text => .inl rfl
    rcases Placeholder.toPositions_strict_cases (some q.name) q.parameterNames q.statement with
      ⟨name, hname, hstrict⟩ | ⟨_, hstrict⟩
    · refine .inr ⟨_, ⟨hnamed, name, hname, rfl⟩, ?_⟩
      rw [Config.withStrict, hstrict]
      rfl
    · left
      rw [Config.withStrict, hstrict]
      rfl
  · exact .inl rfl

theorem Backend.definitions_sameUnless (config : Config) (g : Backend) (q : Query) :
    SameUnless q.Refused (g.definitions (config.withStrict true) q).outcome
      (g.definitions (config.withStrict false) q).outcome := by
  unfold Backend.definitions
  simp only [Journaled.outcome_bind]
  refine SameUnless.bind (.inl rfl) fun _ => ?_
  exact SameUnless.bind (g.statementText_sameUnless config q) fun text => .inl rfl

namespace Module

theorem sections_sameUnless (config : Config) (generators : List (Backend × Backend))
    (qs : List Query) :
    SameUnless (fun e => ∃ q ∈ qs, q.Refused e)
      (sections (config.withStrict true) generators qs).outcome
      (sections (config.withStrict false) generators qs).outcome := by
  induction qs with
  | nil => exact .inl rfl
  | cons q qs ih =>
    simp only [sections, Journaled.outcome_bind]
    refine SameUnless.bind (.inl rfl) fun g => ?_
    have hfirst := Backend.definitions_sameUnless config g q
    refine SameUnless.bind (hfirst.mono fun e he => ⟨q, List.mem_cons_self, he⟩) fun ds => ?_
    refine SameUnless.bind (ih.mono ?_) fun others => .inl rfl
    rintro e ⟨r, hr, he⟩
    exact ⟨r, List.mem_cons_of_mem _ hr, he⟩

/-- **The modes go in step.** The options enter the rest of a module without the mode. -/
theorem build_sameUnless (config : Config) (registry : Registry) (b : Book) :
    SameUnless b.Refused (build (config.withStrict true) registry b).outcome
      (build (config.withStrict false) registry b).outcome := by
  unfold build
  simp only [Journaled.outcome_bind]
  refine SameUnless.bind (.inl rfl) fun generators => ?_
  exact SameUnless.bind (sections_sameUnless config generators b.queries) fun sections => .inl rfl

/-- No query of a checked book has a stray if the strict mode gives it a module. -/
theorem not_stray_of_strict {b : Book} (hb : b.check = .ok ()) {config : Config} {m : Module}
    (hm : (build (config.withStrict true) .standard b).outcome = .ok m) {q : Query}
    (hq : q ∈ b.queries) (hbackend : q.backend = .network) (hnamed : q.named = true)
    {before name : List Char} :
    ¬ Placeholder.Stray q.parameterNames q.statement.toList before name := by
  intro hstray
  obtain ⟨_, _, _, _, htexts⟩ | ⟨_, _, e, herror, _⟩ := build_of_check hb (config.withStrict true)
  · obtain ⟨text, htext⟩ := htexts q hq
    rcases Placeholder.toPositions_strict_cases (some q.name) q.parameterNames q.statement with
      ⟨stray, _, hstrict⟩ | ⟨hnone, _⟩
    · unfold Backend.statementText at htext
      simp only [hbackend, hnamed, Config.withStrict, Journaled.outcome_bind,
        Journaled.outcome_lift, hstrict] at htext
      cases htext
    · exact hnone before name hstray
  · cases hm.symm.trans herror

/-- A checked book has a module in the lenient mode. It is that of the strict mode as well, and no
query has a stray, or else the strict mode refuses a query. -/
theorem modes_of_check {b : Book} (hb : b.check = .ok ()) (config : Config) :
    ∃ m, (build (config.withStrict false) .standard b).outcome = .ok m ∧
      ((build (config.withStrict true) .standard b).outcome = .ok m ∧
        (∀ q ∈ b.queries, q.backend = .network → q.named = true → ∀ before name,
          ¬ Placeholder.Stray q.parameterNames q.statement.toList before name) ∨
      ∃ e, b.Refused e ∧ (build (config.withStrict true) .standard b).outcome = .error e) := by
  obtain ⟨m, hm⟩ := exists_build_of_check hb (config.withStrict false) rfl
  refine ⟨m, hm, ?_⟩
  rcases build_sameUnless config .standard b with hsame | hrefused
  · have hstrict := hsame.trans hm
    exact .inl ⟨hstrict, fun q hq hbackend hnamed _ _ =>
      not_stray_of_strict hb hstrict hq hbackend hnamed⟩
  · exact .inr hrefused

/-- **The strict mode refuses strays and does nothing else.** It refuses a statement if and only if
the statement has a stray; the error has the leftmost one, and the declared parameters; a statement
that is not refused becomes what it becomes in the lenient mode. So generating a module ends in the
two modes alike unless a query is refused. A checked book has a module in the lenient mode, which is
that of the strict mode as well if no query has a stray. -/
theorem strict_refuses_strays (query : Option String) (names : List String) (sql : String)
    (config : Config) (b : Book) :
    ((∃ e, Placeholder.toPositions true query names sql = .error e) ↔
      ∃ before name, Placeholder.Stray names sql.toList before name) ∧
    (∀ e, Placeholder.toPositions true query names sql = .error e →
      ∃ name, Placeholder.LeftmostStray names sql.toList name ∧
        e = { fault := .unmatchedPlaceholder (.ofList name) names, query, line := none }) ∧
    (∀ t, Placeholder.toPositions true query names sql = .ok t →
      Placeholder.toPositions false query names sql = .ok t) ∧
    (∀ registry, SameUnless b.Refused (build (config.withStrict true) registry b).outcome
      (build (config.withStrict false) registry b).outcome) ∧
    (b.check = .ok () →
      ∃ m, (build (config.withStrict false) .standard b).outcome = .ok m ∧
        ((build (config.withStrict true) .standard b).outcome = .ok m ∧
          (∀ q ∈ b.queries, q.backend = .network → q.named = true → ∀ before name,
            ¬ Placeholder.Stray q.parameterNames q.statement.toList before name) ∨
        ∃ e, b.Refused e ∧ (build (config.withStrict true) .standard b).outcome = .error e)) := by
  have hmodes := fun registry => build_sameUnless config registry b
  have hchecked := fun hb : b.check = .ok () => modes_of_check hb config
  rcases Placeholder.toPositions_strict_cases query names sql with
    ⟨name, ⟨before, hstray, hfirst⟩, hstrict⟩ | ⟨hnone, hstrict⟩
  · refine ⟨⟨fun _ => ⟨before, name, hstray⟩, fun _ => ⟨_, hstrict⟩⟩, ?_, ?_, hmodes, hchecked⟩
    · intro e he
      cases hstrict.symm.trans he
      exact ⟨name, ⟨before, hstray, hfirst⟩, rfl⟩
    · intro t ht
      cases hstrict.symm.trans ht
  · refine ⟨⟨?_, ?_⟩, ?_, fun t ht => hstrict.symm.trans ht, hmodes, hchecked⟩
    · rintro ⟨e, he⟩
      cases hstrict.symm.trans he
    · rintro ⟨before, name, hstray⟩
      exact absurd hstray (hnone before name)
    · intro e he
      cases hstrict.symm.trans he

/-- A book of one query, with a marker, a cast and a stray. -/
def strayBook : Book :=
  { queries := [{ name := "q", backend := .network, named := true
                  parameters := [⟨"id", ⟨"int", []⟩⟩], outputs := [], statement := ":id::x:y"
                  dependencies := none, line := 1 }]
    sourceName := "stray" }

/-- A stray behind a cast of no parameter and a marker, and a statement without a stray. -/
theorem strict_refuses_strays_behind_cast :
    (∃ name, Placeholder.LeftmostStray ["id"] ":id::x:y:z".toList name ∧
      Placeholder.toPositions true none ["id"] ":id::x:y:z" = .error
        { fault := .unmatchedPlaceholder (.ofList name) ["id"], query := none, line := none }) ∧
    Placeholder.toPositions false none ["id"] "::x:id" = .ok "::x$1" ∧
    strayBook.check = .ok () ∧
    ∃ m e, (build (({} : Config).withStrict false) .standard strayBook).outcome = .ok m ∧
      strayBook.Refused e ∧
      (build (({} : Config).withStrict true) .standard strayBook).outcome = .error e := by
  obtain ⟨hrefused, hkept, hcheck⟩ :
      Placeholder.toPositions true none ["id"] ":id::x:y:z" =
        .error { fault := .unmatchedPlaceholder "y" ["id"], query := none, line := none } ∧
      Placeholder.toPositions true none ["id"] "::x:id" = .ok "::x$1" ∧
      strayBook.check = .ok () := ⟨by decide +kernel, by decide +kernel, rfl⟩
  have hends : Binding.Ends [] := by
    intro c hc
    cases hc
  have hstray : Placeholder.Stray ["id"] ":id::x:y".toList ":id::x".toList "y".toList :=
    { marker := ⟨[], rfl, ⟨⟨'y', rfl, by decide⟩, List.all_eq_true.mp (by decide)⟩, hends⟩
      undeclared := by decide
      single := by decide }
  obtain ⟨_, herror, _⟩ := strict_refuses_strays none ["id"] ":id::x:y:z" {} strayBook
  obtain ⟨_, _, hlenient, _, hbuild⟩ := strict_refuses_strays none ["id"] "::x:id" {} strayBook
  obtain ⟨name, hname, hfault⟩ := herror _ hrefused
  obtain ⟨m, hm, ⟨_, hnone⟩ | ⟨e, he, hstrict⟩⟩ := hbuild hcheck
  · exact absurd hstray (hnone _ List.mem_cons_self rfl rfl _ _)
  · exact ⟨⟨name, hname, hrefused.trans (congrArg Except.error hfault)⟩, hlenient _ hkept, hcheck,
      m, e, hm, he, hstrict⟩

end Module

end QueryBook
