import QueryBook.Proofs.Code.Strictness

/-!
# Replaced placeholders stay replaced

A replacement puts a position in the place of a marker and so changes what stands next to each
other: a colon may come before a dollar sign, and an identifier may end at one. None of this makes
a marker. A dollar sign neither starts nor continues an identifier, the digits of a position hold
no colon, and the colon before a cast is never part of a marker, so that no replacement takes it
away.

All of it is one equation. The scan of a replaced statement meets what the scan of the statement
met, with the characters of a position where a parameter was (`pieces_resolved`). So replacing once
more finds nothing to do, and the strict mode finds the strays it would have found before.
-/

namespace QueryBook.Placeholder

open Binding

/-! ## What becomes of a piece -/

/-- The name of a marker, and whether another colon comes right before it. -/
def Piece.marker? : Piece → Option (List Char × Bool)
  | .char _ => none
  | .marker name afterColon => some (name, afterColon)

/-- Whether a piece is the marker of a parameter. -/
def Piece.isDeclared (names : List String) : Piece → Bool
  | .char _ => false
  | .marker name _ => String.ofList name ∈ names

/-- The pieces that a replaced statement has where the statement had `p`: the characters of a
position for the marker of a parameter, and else the piece itself. -/
def Piece.settle (names : List String) (p : Piece) : List Piece :=
  if p.isDeclared names then (p.resolve (names.map String.toList)).map .char else [p]

variable {names : List String} {p : Piece}

/-- A marker of a parameter becomes a dollar sign and digits. -/
theorem resolve_of_isDeclared (h : p.isDeclared names = true) :
    ∃ n, p.resolve (names.map String.toList) = '$' :: Nat.toDigits 10 n := by
  cases p with
  | char c => cases h
  | marker name b =>
    have hmem : String.ofList name ∈ names := of_decide_eq_true h
    rw [Piece.resolve, position?_eq, if_pos hmem]
    exact ⟨_, rfl⟩

theorem resolve_of_not_isDeclared (h : p.isDeclared names = false) :
    p.resolve (names.map String.toList) = p.original := by
  cases p with
  | char c => rfl
  | marker name b =>
    have hmem : String.ofList name ∉ names := of_decide_eq_false h
    rw [Piece.resolve, position?_eq, if_neg hmem, Piece.original]

/-- A position has no colon in it. -/
theorem colon_notMem_resolve (h : p.isDeclared names = true) :
    ':' ∉ p.resolve (names.map String.toList) := by
  obtain ⟨n, hn⟩ := resolve_of_isDeclared h
  rw [hn]
  intro hcolon
  rcases List.mem_cons.mp hcolon with hdollar | hdigit
  · exact absurd hdollar (by decide)
  · cases Nat.isDigit_of_mem_toDigits (by decide) (by decide) hdigit

theorem flatMap_resolve_char (chars : List (List Char)) (cs : List Char) :
    (cs.map Piece.char).flatMap (Piece.resolve chars) = cs := by
  rw [List.flatMap_map]
  exact List.flatMap_singleton' cs

/-- There is nothing left to replace in what became of a piece. -/
theorem flatMap_resolve_settle :
    (p.settle names).flatMap (Piece.resolve (names.map String.toList)) =
      p.resolve (names.map String.toList) := by
  unfold Piece.settle
  split
  · exact flatMap_resolve_char _ _
  · exact List.flatMap_singleton _ p

/-- What became of a piece is refused if and only if the piece is. -/
theorem findSome?_unmatched?_settle :
    (p.settle names).findSome? (Piece.unmatched? (names.map String.toList)) =
      p.unmatched? (names.map String.toList) := by
  unfold Piece.settle
  split
  · rename_i hdeclared
    have hmatched : p.unmatched? (names.map String.toList) = none := by
      cases hp : p.unmatched? (names.map String.toList) with
      | none => rfl
      | some name =>
        obtain ⟨rfl, hnot⟩ := unmatched?_eq_some_iff.mp hp
        exact absurd (of_decide_eq_true hdeclared) hnot
    rw [hmatched, List.findSome?_eq_none_iff]
    intro q hq
    obtain ⟨c, _, rfl⟩ := List.mem_map.mp hq
    rfl
  · rw [List.findSome?_singleton]

/-- What became of a piece has the marker of the piece, unless it is that of a parameter. -/
theorem filterMap_marker?_settle :
    (p.settle names).filterMap Piece.marker? =
      p.marker?.toList.filter fun m => String.ofList m.1 ∉ names := by
  unfold Piece.settle
  cases p with
  | char c => rfl
  | marker name b =>
    split
    · rename_i hdeclared
      have hmem : String.ofList name ∈ names := of_decide_eq_true hdeclared
      rw [List.filterMap_map]
      simp [Piece.marker?, hmem, Function.comp_def]
    · rename_i hdeclared
      have hmem : String.ofList name ∉ names := fun hmem => hdeclared (decide_eq_true hmem)
      simp [Piece.marker?, hmem]

/-! ## What a replaced statement is cut into -/

/-- A replaced statement begins as the statement does, or with a dollar sign in the place of a
colon. -/
theorem head?_resolved (names : List String) (b : Bool) (cs : List Char) :
    (resolved names b cs).head? = cs.head? ∨ (resolved names b cs).head? = some '$' := by
  cases cs with
  | nil => exact .inl (by rw [resolved, pieces]; rfl)
  | cons c cs =>
    by_cases hc : c = ':'
    · subst hc
      by_cases hid : identifier cs = []
      · exact .inl (by rw [resolved_colon hid]; rfl)
      · obtain ⟨name, rest, rfl, hname, hrest⟩ := exists_identifier hid
        rw [resolved_marker hname hrest]
        cases hdeclared : (Piece.marker name b).isDeclared names with
        | true =>
          obtain ⟨n, hn⟩ := resolve_of_isDeclared hdeclared
          exact .inr (by rw [hn]; rfl)
        | false => exact .inl (by rw [resolve_of_not_isDeclared hdeclared]; rfl)
    · exact .inl (by rw [resolved_char hc]; rfl)

/-- No replacement continues an identifier. -/
theorem ends_resolved {cs : List Char} (h : Binding.Ends cs) (names : List String) (b : Bool) :
    Binding.Ends (resolved names b cs) := by
  intro c hc
  rcases head?_resolved names b cs with hsame | hdollar
  · exact h c (hsame.symm.trans hc)
  · cases hdollar.symm.trans hc
    decide

/-- No replacement puts an identifier behind a colon. -/
theorem startsName_resolved {cs : List Char} (h : startsName cs = false) (names : List String)
    (b : Bool) : startsName (resolved names b cs) = false := by
  rcases head?_resolved names b cs with hsame | hdollar
  · rw [startsName, hsame]
    exact h
  · rw [startsName, hdollar]
    decide

theorem pieces_append_of_notMem {word : List Char} (hword : ':' ∉ word) (cs : List Char) :
    pieces false (word ++ cs) = word.map .char ++ pieces false cs := by
  induction word with
  | nil => rfl
  | cons c word ih =>
    have hc : c ≠ ':' := fun h => hword (h ▸ List.mem_cons_self)
    rw [List.cons_append, pieces, if_neg hc, ih fun h => hword (List.mem_cons_of_mem _ h)]
    rfl

/-- The characters of a position are met one by one, whatever comes before them. -/
theorem pieces_position {b : Bool} (h : p.isDeclared names = true) (cs : List Char) :
    pieces b (p.resolve (names.map String.toList) ++ cs) =
      (p.resolve (names.map String.toList)).map .char ++ pieces false cs := by
  have hword := colon_notMem_resolve h
  obtain ⟨n, hn⟩ := resolve_of_isDeclared h
  rw [hn] at hword ⊢
  rw [List.cons_append, pieces, if_neg (by decide),
    pieces_append_of_notMem fun h => hword (List.mem_cons_of_mem _ h)]
  rfl

/-- **A replaced statement is cut as the statement was, with the characters of a position for each
marker of a parameter.** No replacement makes a marker, makes one longer or uncovers one, and the
markers that stay keep the colons before them. -/
theorem pieces_resolved (names : List String) (b : Bool) (cs : List Char) :
    pieces b (resolved names b cs) = (pieces b cs).flatMap (Piece.settle names) := by
  fun_induction pieces b cs with
  | case1 b =>
    rw [resolved, pieces, List.flatMap_nil, pieces]
    rfl
  | case2 b cs hid ih =>
    -- a colon that starts no marker starts none afterwards
    have hstarts := startsName_resolved (identifier_eq_nil_iff.mp hid) names true
    rw [resolved_colon hid, pieces_colon hstarts, ih]
    rfl
  | case3 b cs hid ih =>
    obtain ⟨name, rest, rfl, hname, hrest⟩ := exists_identifier hid
    rw [identifier_append hname hrest, List.drop_left] at ih ⊢
    rw [resolved_marker hname hrest, List.flatMap_cons, ← ih, Piece.settle]
    cases hdeclared : (Piece.marker name b).isDeclared names with
    | true => exact pieces_position hdeclared _
    | false =>
      -- the marker stays, and what follows it still ends its name
      rw [resolve_of_not_isDeclared hdeclared]
      exact pieces_marker hname (ends_resolved hrest names false) b
  | case4 b c cs hc ih =>
    rw [resolved_char hc, pieces, if_neg hc, ih]
    rfl

/-! ## Replacing once more -/

theorem resolved_resolved (names : List String) (b : Bool) (cs : List Char) :
    resolved names b (resolved names b cs) = resolved names b cs := by
  calc resolved names b (resolved names b cs)
      = ((pieces b cs).flatMap (Piece.settle names)).flatMap
          (Piece.resolve (names.map String.toList)) := by rw [resolved, pieces_resolved]
    _ = (pieces b cs).flatMap fun p => (p.settle names).flatMap
          (Piece.resolve (names.map String.toList)) := List.flatMap_assoc
    _ = resolved names b cs := by simp only [flatMap_resolve_settle, resolved]

/-- The strict mode refuses a replaced statement as it refuses the statement. -/
theorem firstUnmatched?_resolved (names : List String) (cs : List Char) :
    firstUnmatched? (names.map String.toList) (resolved names false cs) =
      firstUnmatched? (names.map String.toList) cs := by
  rw [firstUnmatched?, firstUnmatched?, pieces_resolved]
  induction pieces false cs with
  | nil => rfl
  | cons p ps ih =>
    rw [List.flatMap_cons, List.findSome?_append, findSome?_unmatched?_settle, ih,
      List.findSome?_cons]
    cases p.unmatched? (names.map String.toList) with
    | none => rfl
    | some name => rfl

/-- The markers that a replacement leaves are those of no parameter. -/
theorem markers_resolved (names : List String) (cs : List Char) :
    (pieces false (resolved names false cs)).filterMap Piece.marker? =
      ((pieces false cs).filterMap Piece.marker?).filter fun m => String.ofList m.1 ∉ names := by
  rw [pieces_resolved]
  induction pieces false cs with
  | nil => rfl
  | cons p ps ih =>
    rw [List.flatMap_cons, List.filterMap_append, filterMap_marker?_settle, ih, List.filterMap_cons]
    cases p.marker? with
    | none => rfl
    | some m => exact (List.filter_append [m] _).symm

theorem toPositions_eq_ok_iff {strict : Bool} {query : Option String} {sql out : String} :
    toPositions strict query names sql = .ok out ↔
      (strict = true → firstUnmatched? (names.map String.toList) sql.toList = none) ∧
      out = .ofList (resolved names false sql.toList) := by
  constructor
  · intro h
    refine ⟨?_, toPositions_eq_ok h⟩
    rintro rfl
    cases hfirst : firstUnmatched? (names.map String.toList) sql.toList with
    | none => rfl
    | some name =>
      simp only [toPositions, hfirst] at h
      cases h
  · rintro ⟨hfirst, rfl⟩
    cases strict with
    | false => rfl
    | true =>
      simp only [toPositions, hfirst rfl]
      rfl

/-- **Replacing twice is replacing once.** The lenient mode gives a statement and leaves it as it is
when it is applied again with the same parameters. So does the strict mode if it gives a statement,
which it never refuses afterwards. The markers left are those of no parameter, in their order, and
each has a colon before it if and only if it had one. -/
theorem toPositions_settles (query query' : Option String) (names : List String) (sql : String) :
    (∃ out, toPositions false query names sql = .ok out ∧
      toPositions false query' names out = .ok out) ∧
    (∀ out, toPositions true query names sql = .ok out →
      toPositions true query' names out = .ok out) ∧
    ∀ strict out, toPositions strict query names sql = .ok out →
      (pieces false out.toList).filterMap Piece.marker? =
        ((pieces false sql.toList).filterMap Piece.marker?).filter
          fun m => String.ofList m.1 ∉ names := by
  have hagain : ∀ strict out, toPositions strict query names sql = .ok out →
      toPositions strict query' names out = .ok out := by
    intro strict out h
    obtain ⟨hfirst, rfl⟩ := toPositions_eq_ok_iff.mp h
    refine toPositions_eq_ok_iff.mpr ⟨fun hstrict => ?_, ?_⟩
    · rw [String.toList_ofList, firstUnmatched?_resolved, hfirst hstrict]
    · rw [String.toList_ofList, resolved_resolved]
  have hlenient : toPositions false query names sql =
      .ok (.ofList (resolved names false sql.toList)) := rfl
  refine ⟨⟨_, hlenient, hagain false _ hlenient⟩, hagain true, ?_⟩
  intro strict out h
  obtain ⟨_, rfl⟩ := toPositions_eq_ok_iff.mp h
  rw [String.toList_ofList, markers_resolved]

/-- A position behind a colon, and two that end the type of a cast, one of which begins with the
name of a parameter. -/
theorem toPositions_settles_adjacent :
    toPositions true none ["a", "b"] "::a ::x:b ::ab:a" = .ok ":$1 ::x$2 ::ab$1" ∧
    toPositions true none ["a", "b"] ":$1 ::x$2 ::ab$1" = .ok ":$1 ::x$2 ::ab$1" ∧
    (pieces false ":$1 ::x$2 ::ab$1".toList).filterMap Piece.marker? =
      [("x".toList, true), ("ab".toList, true)] := by
  obtain ⟨hpositions, hmarkers⟩ :
      toPositions true none ["a", "b"] "::a ::x:b ::ab:a" = .ok ":$1 ::x$2 ::ab$1" ∧
      ((pieces false "::a ::x:b ::ab:a".toList).filterMap Piece.marker?).filter
          (fun m => String.ofList m.1 ∉ ["a", "b"]) =
        [("x".toList, true), ("ab".toList, true)] := ⟨by decide +kernel, by decide +kernel⟩
  obtain ⟨_, hstrict, hleft⟩ := toPositions_settles none none ["a", "b"] "::a ::x:b ::ab:a"
  exact ⟨hpositions, hstrict _ hpositions, (hleft true _ hpositions).trans hmarkers⟩

end QueryBook.Placeholder
