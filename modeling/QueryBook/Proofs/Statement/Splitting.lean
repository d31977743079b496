import QueryBook.Proofs.Statement.Binding

/-!
# Placeholders by splitting at colons

The scan for markers goes from left to right and steps over what it has read. What it does can be
said without a scan: cut the statement at every colon, and look at each piece behind a colon for
itself. The two agree because an identifier has no colon in it, so a marker never reaches into the
next piece, and a colon that starts no marker is just a colon.

A consequence is what becomes of a cast. Its second colon has an identifier behind it, and nothing
in the piece tells that there is a colon before. So `::name` survives as long as `name` is no
parameter, and turns into a colon and a position if it is one.
-/

namespace QueryBook

/-! ## Texts cut at a character -/

namespace Text

/-- Cuts a text at every `sep`. The first piece stays, and `f` gives what stands for `sep` and the
piece behind it. -/
def afterEach (sep : Char) (f : List Char → List Char) (cs : List Char) : List Char :=
  match cs.splitOn sep with
  | [] => []
  | first :: rest => first ++ rest.flatMap f

variable {sep : Char} {f : List Char → List Char}

/-- The first piece is the head of the text. -/
theorem exists_splitOn (sep : Char) (cs : List Char) :
    ∃ first rest, cs.splitOn sep = first :: rest ∧ first <+: cs := by
  induction cs with
  | nil => exact ⟨[], [], List.splitOn_nil sep, List.nil_prefix⟩
  | cons c cs ih =>
    obtain ⟨first, rest, hsplit, hfirst⟩ := ih
    rw [List.splitOn_cons_eq_if_modifyHead, hsplit]
    by_cases hc : c = sep
    · rw [if_pos (beq_iff_eq.mpr hc)]
      exact ⟨[], first :: rest, rfl, List.nil_prefix⟩
    · rw [if_neg (mt beq_iff_eq.mp hc)]
      exact ⟨c :: first, rest, rfl, (List.prefix_cons_inj c).mpr hfirst⟩

theorem splitOn_append_of_notMem {word cs first : List Char} {rest : List (List Char)}
    (hword : sep ∉ word) (hcs : cs.splitOn sep = first :: rest) :
    (word ++ cs).splitOn sep = (word ++ first) :: rest := by
  induction word with
  | nil => exact hcs
  | cons c word ih =>
    have hc : c ≠ sep := fun h => hword (h ▸ List.mem_cons_self)
    rw [List.cons_append, List.splitOn_cons_eq_if_modifyHead, if_neg (mt beq_iff_eq.mp hc),
      ih fun h => hword (List.mem_cons_of_mem _ h)]
    rfl

theorem splitOn_sep (cs : List Char) : (sep :: cs).splitOn sep = [] :: cs.splitOn sep := by
  rw [List.splitOn_cons_eq_if_modifyHead, if_pos (beq_self_eq_true sep)]

theorem afterEach_append_of_notMem {word : List Char} (hword : sep ∉ word) (cs : List Char) :
    afterEach sep f (word ++ cs) = word ++ afterEach sep f cs := by
  obtain ⟨first, rest, hcs, _⟩ := exists_splitOn sep cs
  rw [afterEach, splitOn_append_of_notMem hword hcs, afterEach, hcs]
  exact List.append_assoc _ _ _

/-- The part before a `sep` and the part from it on have nothing to do with each other. -/
theorem afterEach_append_sep (cs ds : List Char) :
    afterEach sep f (cs ++ sep :: ds) = afterEach sep f cs ++ afterEach sep f (sep :: ds) := by
  obtain ⟨first, rest, hcs, _⟩ := exists_splitOn sep cs
  simp only [afterEach, List.splitOn_append_cons_self, splitOn_sep, hcs, List.cons_append,
    List.flatMap_append, List.append_assoc, List.nil_append]

/-- What `f` replaces at the head of a piece, and a rest that it keeps. -/
theorem afterEach_sep_append {word out cs : List Char} (hword : sep ∉ word)
    (hf : ∀ piece, piece <+: cs → f (word ++ piece) = out ++ piece) :
    afterEach sep f (sep :: (word ++ cs)) = out ++ afterEach sep f cs := by
  obtain ⟨first, rest, hcs, hfirst⟩ := exists_splitOn sep cs
  simp only [afterEach, splitOn_sep, splitOn_append_of_notMem hword hcs, hcs, List.flatMap_cons,
    hf first hfirst, List.nil_append, List.append_assoc]

end Text

/-! ## The pieces behind the colons -/

namespace Placeholder

open Binding Text

/-- Whether an identifier starts at the head of a piece. -/
def startsName (piece : List Char) : Bool := piece.head?.any isStart

/-- What stands for a colon and the piece behind it. If the piece starts with a declared name, this
is the position at which the name is declared first, and the rest of the piece. -/
def behindColon (names : List String) (piece : List Char) : List Char :=
  let name := String.ofList (piece.takeWhile isWord)
  if startsName piece ∧ name ∈ names then
    '$' :: (toString (names.idxOf name + 1)).toList ++ piece.dropWhile isWord
  else ':' :: piece

/-- The name of a marker. -/
def Piece.name? : Piece → Option (List Char)
  | .char _ => none
  | .marker name _ => some name

/-- What a piece was cut from. -/
def Piece.original : Piece → List Char
  | .char c => [c]
  | .marker name _ => ':' :: name

theorem colon_notMem_word {name : List Char} (hname : ∀ c ∈ name, isWord c = true) :
    ':' ∉ name := fun h => ne_of_isWord (hname _ h) (by decide) rfl

theorem identifier_eq_nil_iff {cs : List Char} : identifier cs = [] ↔ startsName cs = false := by
  cases cs with
  | nil => exact ⟨fun _ => rfl, fun _ => rfl⟩
  | cons c cs =>
    rw [identifier]
    split
    · rename_i hstart
      have hword : isWord c = true := (Bool.and_eq_true_iff.mp hstart).1
      simp [startsName, hstart, hword]
    · rename_i hstart
      simpa [startsName] using hstart

/-- A beginning of a text starts with a name only if the text does. -/
theorem startsName_of_isPrefix {piece cs : List Char} (hpiece : piece <+: cs)
    (hcs : startsName cs = false) : startsName piece = false := by
  obtain ⟨rest, rfl⟩ := hpiece
  cases piece with
  | nil => rfl
  | cons c piece => exact hcs

theorem ends_of_isPrefix {piece cs : List Char} (hpiece : piece <+: cs) (hcs : Binding.Ends cs) :
    Binding.Ends piece := by
  obtain ⟨rest, rfl⟩ := hpiece
  cases piece with
  | nil => exact nofun
  | cons c piece => exact hcs

theorem startsName_append {name : List Char} (hname : IsIdentifier name) (rest : List Char) :
    startsName (name ++ rest) = true := by
  obtain ⟨⟨c, hc, hstart⟩, _⟩ := hname
  rw [startsName, List.head?_append, hc]
  exact hstart

theorem behindColon_of_not_startsName {names : List String} {piece : List Char}
    (h : startsName piece = false) : behindColon names piece = ':' :: piece := by
  rw [behindColon, h]
  exact if_neg fun h => Bool.false_ne_true h.1

/-- The position of a declared name is that of its first declaration. -/
theorem position?_eq (names : List String) (name : List Char) :
    position? (names.map String.toList) name =
      if String.ofList name ∈ names then some (names.idxOf (String.ofList name) + 1) else none := by
  induction names with
  | nil => rfl
  | cons first names ih =>
    have hsame : first.toList = name ↔ first = String.ofList name := by
      rw [← String.toList_inj, String.toList_ofList]
    by_cases hfirst : first = String.ofList name
    · simp [position?, List.idxOf?_cons, hfirst]
    · have hrest : position? (first.toList :: names.map String.toList) name =
          (position? (names.map String.toList) name).map (· + 1) := by
        simp [position?, List.idxOf?_cons, mt hsame.mp hfirst, Function.comp_def]
      rw [List.map_cons, hrest, ih, List.idxOf_cons_ne _ hfirst]
      by_cases hmem : String.ofList name ∈ names
      · simp [hmem]
      · simp [hmem, Ne.symm hfirst]

/-- A marker becomes what the rule by pieces says. -/
theorem behindColon_append {names : List String} {name piece : List Char} (b : Bool)
    (hname : IsIdentifier name) (hpiece : Binding.Ends piece) :
    behindColon names (name ++ piece) =
      Piece.resolve (names.map String.toList) (.marker name b) ++ piece := by
  have htake : (name ++ piece).takeWhile isWord = name := takeWhile_append_ends hname.2 hpiece
  have hdrop : (name ++ piece).dropWhile isWord = piece := dropWhile_append_ends hname.2 hpiece
  simp only [behindColon, startsName_append hname, htake, hdrop, Piece.resolve, position?_eq]
  by_cases hmem : String.ofList name ∈ names
  · simp [hmem, Nat.toString_eq_repr]
  · simp [hmem]

/-! ## The scan and the pieces agree -/

/-- **Resolving the markers of a scan is resolving piece by piece.** -/
theorem resolved_eq (names : List String) (b : Bool) (cs : List Char) :
    resolved names b cs = afterEach ':' (behindColon names) cs := by
  fun_induction pieces b cs with
  | case1 b =>
    rw [resolved, pieces]
    rfl
  | case2 b cs hid ih =>
    have hstarts := identifier_eq_nil_iff.mp hid
    have hcolon : ∀ piece, piece <+: cs → behindColon names ([] ++ piece) = [':'] ++ piece :=
      fun piece hpiece => behindColon_of_not_startsName (startsName_of_isPrefix hpiece hstarts)
    rw [resolved_colon hid, ih, ← List.nil_append cs, afterEach_sep_append List.not_mem_nil hcolon]
    rfl
  | case3 b cs hid ih =>
    obtain ⟨name, rest, rfl, hname, hrest⟩ := exists_identifier hid
    rw [identifier_append hname hrest, List.drop_left] at ih
    rw [resolved_marker hname hrest, ih, afterEach_sep_append (colon_notMem_word hname.2)
      fun piece hpiece => behindColon_append b hname (ends_of_isPrefix hpiece hrest)]
  | case4 b c cs hc ih =>
    have hne : ':' ∉ [c] := fun h => hc (List.mem_singleton.mp h).symm
    rw [resolved_char hc, ih]
    exact (afterEach_append_of_notMem hne cs).symm

/-- **There is one marker for each piece that starts with a name**, in order. -/
theorem names_pieces (b : Bool) (cs : List Char) :
    (pieces b cs).filterMap Piece.name? =
      ((cs.splitOn ':').tail.filter startsName).map (·.takeWhile isWord) := by
  fun_induction pieces b cs with
  | case1 b => rfl
  | case2 b cs hid ih =>
    obtain ⟨first, rest, hsplit, hfirst⟩ := exists_splitOn ':' cs
    have hstarts := startsName_of_isPrefix hfirst (identifier_eq_nil_iff.mp hid)
    rw [hsplit, List.tail_cons] at ih
    rw [List.filterMap_cons, Piece.name?, splitOn_sep, List.tail_cons, hsplit,
      List.filter_cons_of_neg (by simp [hstarts]), ih]
  | case3 b cs hid ih =>
    obtain ⟨name, after, rfl, hname, hafter⟩ := exists_identifier hid
    rw [identifier_append hname hafter, List.drop_left] at ih ⊢
    obtain ⟨first, rest, hsplit, hfirst⟩ := exists_splitOn ':' after
    rw [hsplit, List.tail_cons] at ih
    rw [List.filterMap_cons, Piece.name?, splitOn_sep, List.tail_cons,
      splitOn_append_of_notMem (colon_notMem_word hname.2) hsplit,
      List.filter_cons_of_pos (startsName_append hname first), List.map_cons,
      takeWhile_append_ends hname.2 (ends_of_isPrefix hfirst hafter), ih]
  | case4 b c cs hc ih =>
    obtain ⟨first, rest, hsplit, _⟩ := exists_splitOn ':' cs
    have hne : ':' ∉ [c] := fun h => hc (List.mem_singleton.mp h).symm
    rw [hsplit, List.tail_cons] at ih
    rw [List.filterMap_cons, Piece.name?, ← List.singleton_append,
      splitOn_append_of_notMem hne hsplit, List.tail_cons, ih]

/-- **The pieces of a statement spell it out.** -/
theorem pieces_original (b : Bool) (cs : List Char) :
    (pieces b cs).flatMap Piece.original = cs := by
  fun_induction pieces b cs with
  | case1 b => rfl
  | case2 b cs hid ih =>
    rw [List.flatMap_cons, ih]
    rfl
  | case3 b cs hid ih =>
    obtain ⟨name, rest, rfl, hname, hrest⟩ := exists_identifier hid
    rw [identifier_append hname hrest, List.drop_left] at ih ⊢
    rw [List.flatMap_cons, ih]
    rfl
  | case4 b c cs hc ih =>
    rw [List.flatMap_cons, ih]
    rfl

/-- **Lenient replacement goes colon by colon.** The statement is cut at every colon, and what
becomes of a colon depends on the piece behind it only. The scan that does it meets one marker for
each piece that starts with a name, in order, and what it meets spells out the statement. -/
theorem toPositions_by_colons (query : Option String) (names : List String) (sql : String) :
    toPositions false query names sql =
      .ok (.ofList (afterEach ':' (behindColon names) sql.toList)) ∧
    (pieces false sql.toList).filterMap Piece.name? =
      ((sql.toList.splitOn ':').tail.filter startsName).map (·.takeWhile isWord) ∧
    (pieces false sql.toList).flatMap Piece.original = sql.toList := by
  refine ⟨?_, names_pieces false sql.toList, pieces_original false sql.toList⟩
  rw [← resolved_eq names false sql.toList]
  rfl

/-- Colons in a row, a longer name, a name declared twice and a numeral that starts no name. -/
example : afterEach ':' (behindColon ["a", "b", "a"]) "::a:b:ab::1:é:".toList =
    ":$1$2:ab::1:é:".toList := by decide +kernel

/-! ## Casts -/

/-- A cast is a colon, and behind it what becomes of its type as a marker. -/
theorem resolved_cast (names : List String) (before : List Char) {name after : List Char}
    (hname : IsIdentifier name) (hafter : Binding.Ends after) :
    resolved names false (before ++ ':' :: ':' :: (name ++ after)) =
      resolved names false before ++
        ':' :: (Piece.resolve (names.map String.toList) (.marker name true) ++
          resolved names false after) := by
  have hfirst : identifier (':' :: (name ++ after)) = [] := identifier_eq_nil_iff.mpr rfl
  calc resolved names false (before ++ ':' :: ':' :: (name ++ after))
      = resolved names false before ++ resolved names false (':' :: ':' :: (name ++ after)) := by
        rw [resolved_eq, resolved_eq, resolved_eq, afterEach_append_sep]
    _ = _ := by rw [resolved_colon hfirst, resolved_marker hname hafter]

/-- `middle` stands in `statement` between what becomes of `before` and of `after`. -/
def Framed (names : List String) (before middle after statement : String) : Prop :=
  ∃ head tail, toPositions false none names before = .ok head ∧
    toPositions false none names after = .ok tail ∧ statement = head ++ middle ++ tail

theorem framed_iff {names : List String} {before middle after statement : String} :
    Framed names before middle after statement ↔
      statement.toList = resolved names false before.toList ++
        (middle.toList ++ resolved names false after.toList) := by
  constructor
  · rintro ⟨head, tail, hhead, htail, rfl⟩
    rw [toPositions_eq_ok hhead, toPositions_eq_ok htail]
    simp
  · intro h
    refine ⟨_, _, rfl, rfl, ?_⟩
    rw [← String.toList_inj, h]
    simp [resolved, positionsIn]

/-- **A cast survives if and only if its type is no parameter**, in either mode and whatever comes
before it. A cast whose type is called like a parameter becomes a colon and the position of the
parameter. -/
theorem cast_kept_iff {strict : Bool} {query : Option String} {names : List String}
    {before name after statement : String} (hname : IsIdentifier name.toList)
    (hafter : Binding.Ends after.toList)
    (h : toPositions strict query names (before ++ "::" ++ name ++ after) = .ok statement) :
    (Framed names before ("::" ++ name) after statement ↔ name ∉ names) ∧
    (name ∈ names →
      Framed names before (":$" ++ toString (names.idxOf name + 1)) after statement) := by
  have hsql : (before ++ "::" ++ name ++ after).toList =
      before.toList ++ ':' :: ':' :: (name.toList ++ after.toList) := by simp
  have hstatement : statement.toList = resolved names false before.toList ++
      ':' :: (Piece.resolve (names.map String.toList) (.marker name.toList true) ++
        resolved names false after.toList) := by
    rw [toPositions_eq_ok h, String.toList_ofList, hsql, resolved_cast names _ hname hafter]
  simp only [Piece.resolve, position?_eq, String.ofList_toList] at hstatement
  rw [framed_iff, framed_iff, hstatement]
  by_cases hmem : name ∈ names
  · simp [hmem, Nat.toString_eq_repr]
  · simp [hmem]

theorem cast_kept_iff_behind_marker :
    toPositions true none ["id", "day"] (":id" ++ "::" ++ "text" ++ ",:day") = .ok "$1::text,$2" ∧
    Framed ["id", "day"] ":id" ("::" ++ "text") ",:day" "$1::text,$2" := by
  have hname : IsIdentifier "text".toList :=
    ⟨⟨'t', rfl, by decide⟩, List.all_eq_true.mp (by decide)⟩
  have hafter : Binding.Ends ",:day".toList := fun c hc => by
    cases hc
    decide
  have hpositions : toPositions true none ["id", "day"]
      (":id" ++ "::" ++ "text" ++ ",:day") = .ok "$1::text,$2" := by decide +kernel
  exact ⟨hpositions, (cast_kept_iff hname hafter hpositions).1.mpr (by decide)⟩

/-- A date is cast to its type, which is called like the parameter. -/
theorem cast_to_declared_name_lost :
    toPositions false none ["date"] (":date" ++ "::" ++ "date" ++ "") = .ok "$1:$1" ∧
    ¬ Framed ["date"] ":date" ("::" ++ "date") "" "$1:$1" := by
  refine ⟨by decide +kernel, ?_⟩
  rw [framed_iff, resolved_eq, resolved_eq]
  decide +kernel

end Placeholder

end QueryBook
