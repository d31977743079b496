import QueryBook.Proofs.Code.Built
import QueryBook.Proofs.Text.Literals
import Mathlib.Data.List.DropRight

/-!
# Statements in the source of a module

The section of a query opens with a heading, and the line behind it names the statement text. Items
are written one behind the other and never change a line that is there, so a line at the outermost
level is found in the source as it is; only what stands behind the last line that is not empty can
be left out, and a line with a literal is never empty.
-/

namespace QueryBook

/-! ## Lines of a writer -/

namespace Writer

/-- More lines are written, and the depth is as before. -/
structure Extends (w w' : Writer) : Prop where
  level : w'.level = w.level
  lines : ∃ more, w'.lines.toList = w.lines.toList ++ more

theorem Extends.refl (w : Writer) : Extends w w := ⟨rfl, [], by rw [List.append_nil]⟩

theorem Extends.trans {w w' w'' : Writer} (h : Extends w w') (h' : Extends w' w'') :
    Extends w w'' := by
  obtain ⟨more, hmore⟩ := h.lines
  obtain ⟨more', hmore'⟩ := h'.lines
  exact ⟨h'.level.trans h.level, more ++ more', by rw [hmore', hmore, List.append_assoc]⟩

theorem extends_line (w : Writer) (text : String) : Extends w (w.line text) :=
  ⟨rfl, [indent w.level text], Array.toList_push⟩

theorem extends_writeLines (w : Writer) (texts : List String) :
    Extends w (w.writeLines texts) := by
  unfold writeLines
  induction texts generalizing w with
  | nil => exact .refl w
  | cons text texts ih => exact (extends_line w text).trans (ih (w.line text))

theorem extends_blank (w : Writer) (count : Int) : Extends w (w.blank count) :=
  ⟨rfl, List.replicate count.toNat "", by simp [blank]⟩

theorem extends_banner (w : Writer) (title : String) : Extends w (w.banner title) :=
  ((((extends_blank w 2).trans (extends_line _ _)).trans (extends_line _ _)).trans
    (extends_line _ _)).trans (extends_blank _ 1)

mutual

theorem extends_write (w : Writer) : ∀ item : Item, Extends w (w.write item)
  | .line text => extends_line w text
  | .lines texts => extends_writeLines w texts
  | .blank count => extends_blank w count
  | .docstring _ => extends_line w _
  | .banner title => extends_banner w title
  | .block header body => by
    -- the body is written one level deeper, and the level is taken back behind it
    have hbody := extends_writeAll (w.line header).deeper body
    obtain ⟨more, hmore⟩ := hbody.lines
    refine (extends_line w header).trans ⟨?_, more, hmore⟩
    show (writeAll (w.line header).deeper body).level - 1 = w.level
    rw [hbody.level]
    rfl
  | .extend _ => extends_writeLines w _

theorem extends_writeAll (w : Writer) : ∀ items : List Item, Extends w (w.writeAll items)
  | [] => .refl w
  | item :: rest => (extends_write w item).trans (extends_writeAll (w.write item) rest)

end

theorem writeAll_append (w : Writer) (items rest : List Item) :
    w.writeAll (items ++ rest) = (w.writeAll items).writeAll rest := by
  induction items generalizing w with
  | nil => rfl
  | cons item items ih => exact ih (w.write item)

theorem indent_zero (text : String) : indent 0 text = text := by
  unfold indent
  split
  · rename_i h
    exact (String.isEmpty_iff.mp h).symm
  · exact String.empty_append

/-- The lines of the heading over a section. -/
def heading (title : String) : List String := ["", "", rule, "# " ++ title, rule, ""]

/-- A heading and the line behind it, at the outermost level. -/
theorem lines_section (before after : List Item) (title text : String) :
    ∃ ls more, (empty.writeAll (before ++ .banner title :: .line text :: after)).lines.toList =
      (ls ++ heading title) ++ text :: more := by
  have hlevel : (empty.writeAll before).level = 0 := (extends_writeAll empty before).level
  obtain ⟨more, hmore⟩ :=
    (extends_writeAll (((empty.writeAll before).banner title).line text) after).lines
  refine ⟨(empty.writeAll before).lines.toList, more, ?_⟩
  rw [writeAll_append]
  refine hmore.trans ?_
  simp [banner, line, blank, hlevel, indent_zero, heading]

/-! ## Rendering -/

/-- The text of some lines, each with its end. -/
def linesText (ls : List String) : String := ls.foldr (fun l text => l ++ "\n" ++ text) ""

theorem linesText_append (ls more : List String) :
    linesText (ls ++ more) = linesText ls ++ linesText more := by
  induction ls with
  | nil => exact String.empty_append.symm
  | cons l ls ih =>
    show l ++ "\n" ++ linesText (ls ++ more) = l ++ "\n" ++ linesText ls ++ linesText more
    rw [ih, ← String.append_assoc]

theorem intercalate_eq (ls : List String) (text : String) (more : List String) :
    ∃ tail : List Char, ("\n".intercalate (ls ++ text :: more)).toList =
        (linesText ls).toList ++ text.toList ++ tail ∧ tail.head? ∈ [none, some '\n'] := by
  induction ls with
  | nil =>
    cases more with
    | nil => exact ⟨[], by simp [linesText], by simp⟩
    | cons next more =>
      refine ⟨'\n' :: ("\n".intercalate (next :: more)).toList, ?_, by simp⟩
      rw [List.nil_append, String.intercalate_cons_cons]
      simp [linesText]
  | cons l ls ih =>
    obtain ⟨tail, htail, hhead⟩ := ih
    refine ⟨tail, ?_, hhead⟩
    obtain ⟨next, others, hothers⟩ := List.exists_cons_of_ne_nil
      (List.append_ne_nil_of_right_ne_nil ls (List.cons_ne_nil text more))
    rw [List.cons_append, hothers, String.intercalate_cons_cons, ← hothers]
    simp only [String.toList_append, htail, linesText, List.foldr_cons, List.append_assoc]

theorem rdropWhile_append {p : Char → Bool} {c : Char} (hc : p c = false) (cs tail : List Char) :
    (cs ++ c :: tail).rdropWhile p = cs ++ c :: tail.rdropWhile p := by
  unfold List.rdropWhile
  rw [List.reverse_append, List.reverse_cons, List.append_assoc, List.dropWhile_append]
  split
  · rename_i hnil
    rw [List.isEmpty_iff.mp hnil]
    simp [hc]
  · simp

/-- What is left behind a line, and the end of the source, begin with a line end. -/
theorem exists_rdropWhile_eq {tail : List Char} (h : tail.head? ∈ [none, some '\n']) :
    ∃ rest, tail.rdropWhile (· == '\n') ++ ['\n'] = '\n' :: rest := by
  obtain ⟨dropped, hdropped⟩ := List.rdropWhile_prefix (· == '\n') tail
  cases hkept : tail.rdropWhile (· == '\n') with
  | nil => exact ⟨[], rfl⟩
  | cons d kept =>
    rw [hkept] at hdropped
    rw [← hdropped] at h
    have hd : d = '\n' := by simpa using h
    exact ⟨kept ++ ['\n'], by rw [hd, List.cons_append]⟩

/-- A line that is not empty stands in the source as it is. -/
theorem render_line {w : Writer} {ls more : List String} {text : String}
    (hw : w.lines.toList = ls ++ text :: more) {cs : List Char} {c : Char}
    (htext : text.toList = cs ++ [c]) (hc : c ≠ '\n') :
    ∃ rest, w.render = linesText ls ++ (text ++ "\n") ++ rest := by
  obtain ⟨tail, htail, hhead⟩ := intercalate_eq ls text more
  obtain ⟨rest, hrest⟩ := exists_rdropWhile_eq hhead
  have hsplit : ("\n".intercalate w.lines.toList).toList =
      ((linesText ls).toList ++ cs) ++ c :: tail := by
    rw [hw, htail, htext]
    simp
  have hkept := rdropWhile_append (p := (· == '\n')) (beq_eq_false_iff_ne.mpr hc)
    ((linesText ls).toList ++ cs) tail
  refine ⟨.ofList rest, String.toList_inj.mp ?_⟩
  calc w.render.toList
      = ("\n".intercalate w.lines.toList).toList.rdropWhile (· == '\n') ++ ['\n'] :=
        String.toList_ofList
    _ = ((linesText ls).toList ++ cs) ++ c :: (tail.rdropWhile (· == '\n') ++ ['\n']) := by
        rw [hsplit, hkept, List.append_assoc, List.cons_append]
    _ = (linesText ls ++ (text ++ "\n") ++ .ofList rest).toList := by
        rw [hrest]
        simp [htext]

end Writer

/-! ## The statement of a query -/

/-- The first definition of a section is the statement text. -/
theorem Backend.definitions_cons {config : Config} {g : Backend} {q : Query}
    {ds : List Definition} (h : (g.definitions config q).outcome = .ok ds) :
    ∃ text others, (g.statementText config q).outcome = .ok text ∧
      ds = .constant (Role.sql.ident q.name) (.literal text) :: others := by
  simp only [Backend.definitions, Journaled.outcome_bind, Journaled.outcome_log,
    Journaled.outcome_lift, Journaled.outcome_pure] at h
  obtain ⟨-, -, h⟩ := bind_eq_ok_iff.mp h
  obtain ⟨text, htext, h⟩ := bind_eq_ok_iff.mp h
  obtain ⟨outputs, -, h⟩ := bind_eq_ok_iff.mp h
  obtain ⟨access, -, h⟩ := bind_eq_ok_iff.mp h
  cases h
  exact ⟨text, _, htext, rfl⟩

namespace Module

/-- The generators of some backends are those of the registry. -/
theorem lookup_of_generatorsFor {registry : Registry} {ks : List Backend}
    {generators : List (Backend × Backend)} (h : generatorsFor registry ks = .ok generators)
    {k : Backend} (hk : k ∈ ks) :
    ∃ g, registry.find? k = some g ∧ generators.lookup k = some g := by
  induction ks generalizing generators with
  | nil => cases hk
  | cons j ks ih =>
    rw [generatorsFor] at h
    cases hj : registry.find? j with
    | none =>
      rw [hj] at h
      cases h
    | some g =>
      rw [hj] at h
      obtain ⟨others, hothers, hcons⟩ := bind_eq_ok_iff.mp h
      cases hcons
      rw [List.lookup_cons]
      by_cases hkj : k = j
      · subst hkj
        exact ⟨g, hj, by rw [beq_self_eq_true]⟩
      · obtain ⟨g', hfind, hlookup⟩ := ih hothers ((List.mem_cons.mp hk).resolve_left hkj)
        exact ⟨g', hfind, by rw [beq_eq_false_iff_ne.mpr hkj]; exact hlookup⟩

/-- A query has a section, made by a generator that was found for it. -/
theorem mem_sections {config : Config} {generators : List (Backend × Backend)} {qs : List Query}
    {ss : List (String × List Definition)} (h : (sections config generators qs).outcome = .ok ss)
    {q : Query} (hq : q ∈ qs) :
    ∃ g ds, generators.lookup q.backend = some g ∧ (q.name, ds) ∈ ss ∧
      (g.definitions config q).outcome = .ok ds := by
  induction qs generalizing ss with
  | nil => cases hq
  | cons r qs ih =>
    cases hg : generators.lookup r.backend with
    | none =>
      simp only [sections, hg, Journaled.outcome_bind, Journaled.outcome_lift] at h
      cases h
    | some g =>
      rw [sections_cons hg] at h
      obtain ⟨ds, hds, h⟩ := bind_eq_ok_iff.mp h
      obtain ⟨others, hothers, h⟩ := bind_eq_ok_iff.mp h
      cases h
      rcases List.mem_cons.mp hq with rfl | hq
      · exact ⟨g, ds, hg, List.mem_cons_self, hds⟩
      · obtain ⟨g', ds', hg', hmem, hds'⟩ := ih hothers hq
        exact ⟨g', ds', hg', List.mem_cons_of_mem _ hmem, hds'⟩

/-- The line behind the heading of a query names the literal of its statement text. -/
theorem source_of_mem {config : Config} {registry : Registry} {b : Book} {m : Module}
    (h : (build config registry b).outcome = .ok m) {q : Query} (hq : q ∈ b.queries) :
    ∃ g text before after, registry.find? q.backend = some g ∧
      (g.statementText config q).outcome = .ok text ∧
      m.source = before ++ Writer.linesText (Writer.heading q.name) ++
        ("SQL_" ++ q.name ++ " = " ++ Text.literal text ++ "\n") ++ after := by
  obtain ⟨generators, ss, header, setup, hgenerators, hss, hsource⟩ :
      ∃ generators ss header setup, generatorsFor registry b.backends = .ok generators ∧
        (sections config generators b.queries).outcome = .ok ss ∧
        m.source = (Writer.empty.writeAll
          (header ++ ss.flatMap (fun s => sectionItems s.1 s.2) ++ setup)).render := by
    obtain ⟨generators, ss, _, hgenerators, hss, -, rfl⟩ := build_eq_ok_iff.mp h
    exact ⟨generators, ss, _, _, hgenerators, hss, rfl⟩
  obtain ⟨g, hfind, hlookup⟩ := lookup_of_generatorsFor hgenerators (Book.backend_mem hq)
  obtain ⟨g', ds, hlookup', hmem, hds⟩ := mem_sections hss hq
  cases hlookup.symm.trans hlookup'
  obtain ⟨text, others, htext, rfl⟩ := Backend.definitions_cons hds
  obtain ⟨earlier, later, rfl⟩ := List.append_of_mem hmem
  have hitems : header ++ (earlier ++ (q.name, .constant (Role.sql.ident q.name)
        (.literal text) :: others) :: later).flatMap (fun s => sectionItems s.1 s.2) ++ setup =
      (header ++ earlier.flatMap fun s => sectionItems s.1 s.2) ++ .banner q.name ::
        .line ("SQL_" ++ q.name ++ " = " ++ Text.literal text) ::
        (others.flatMap Definition.items ++ later.flatMap (fun s => sectionItems s.1 s.2) ++
          setup) := by
    simp [sectionItems, Definition.items, Expr.text, Role.ident, Role.lead]
  rw [hitems] at hsource
  obtain ⟨ls, more, hlines⟩ := Writer.lines_section
    (header ++ earlier.flatMap fun s => sectionItems s.1 s.2)
    (others.flatMap Definition.items ++ later.flatMap (fun s => sectionItems s.1 s.2) ++ setup)
    q.name ("SQL_" ++ q.name ++ " = " ++ Text.literal text)
  -- the line ends with the closing quote
  obtain ⟨quote, body, hquoted, hquote, -⟩ := (Text.quoted_literal text).enclosed
  have hne : quote ≠ '\n' := by
    rcases hquote with rfl | rfl <;> decide
  have hend : ("SQL_" ++ q.name ++ " = " ++ Text.literal text).toList =
      (("SQL_" ++ q.name ++ " = ").toList ++ quote :: body) ++ [quote] := by
    rw [String.toList_append, hquoted, List.append_assoc, List.cons_append]
  obtain ⟨after, hrender⟩ := Writer.render_line hlines hend hne
  refine ⟨g, text, Writer.linesText ls, after, hfind, htext, ?_⟩
  rw [hsource, hrender, Writer.linesText_append]

/-- **The literal of a text denotes it, and so does the line of a module that names a statement.**
A literal is one line between quotes that is read as its text; a module holds, behind the heading of
each query, the literal of the query's statement text; and no two texts have one literal. -/
theorem literals_denote (s t : String) (config : Config) (registry : Registry) (b : Book) :
    Text.Literal.Quoted (Text.literal s).toList s.toList ∧
    (∀ m, (build config registry b).outcome = .ok m → ∀ q ∈ b.queries,
      ∃ g text before source after, registry.find? q.backend = some g ∧
        (g.statementText config q).outcome = .ok text ∧
        m.source = before ++ Writer.linesText (Writer.heading q.name) ++
          ("SQL_" ++ q.name ++ " = " ++ source ++ "\n") ++ after ∧
        source = Text.literal text ∧ Text.Literal.Quoted source.toList text.toList) ∧
    (Text.literal s = Text.literal t ↔ s = t) := by
  refine ⟨Text.quoted_literal s, ?_, ?_, congrArg Text.literal⟩
  · intro m hm q hq
    obtain ⟨g, text, before, after, hg, htext, hsource⟩ := source_of_mem hm hq
    exact ⟨g, text, before, _, after, hg, htext, hsource, rfl, Text.quoted_literal text⟩
  · intro heq
    have hs := Text.quoted_literal s
    rw [heq] at hs
    exact String.toList_inj.mp (hs.text_eq (Text.quoted_literal t))

/-- A statement with both quotes, a backslash before a quote and before a digit, a line end,
characters that are not printable in each of the three widths, and a marker. -/
def quotingStatement : String :=
  "'\"\\'\\0\n\x01\u200b" ++ .ofList [Char.ofNat 0xe0001] ++ "é :id"

/-- The statement text with the marker replaced. -/
def quotingText : String :=
  "'\"\\'\\0\n\x01\u200b" ++ .ofList [Char.ofNat 0xe0001] ++ "é $1"

/-- A book of one query with that statement. -/
def quotingBook : Book :=
  { queries := [{ name := "q", backend := .network, named := true
                  parameters := [⟨"id", ⟨"int", []⟩⟩], outputs := []
                  statement := quotingStatement, dependencies := none, line := 1 }]
    sourceName := "quoting" }

theorem literals_denote_quotingBook :
    quotingBook.check = .ok () ∧ ∃ m, (build {} .standard quotingBook).outcome = .ok m ∧
      ∃ before source after, m.source = before ++ Writer.linesText (Writer.heading "q") ++
        ("SQL_q = " ++ source ++ "\n") ++ after ∧
      source = "'\\'\"\\\\\\'\\\\0\\n\\x01\\u200b\\U000e0001é $1'" := by
  have hcheck : quotingBook.check = .ok () := rfl
  obtain ⟨q, hq, hname, hbackend, htext⟩ : ∃ q ∈ quotingBook.queries, q.name = "q" ∧
      q.backend = .network ∧
      (Backend.network.statementText {} q).outcome.toOption = some quotingText :=
    ⟨_, List.mem_cons_self, rfl, rfl, by decide +kernel⟩
  obtain ⟨m, hm⟩ := exists_build_of_check hcheck {} rfl
  obtain ⟨-, hmodule, -⟩ := literals_denote "" "" {} .standard quotingBook
  obtain ⟨g, text, before, source, after, hg, hstatement, hsource, hliteral, -⟩ :=
    hmodule m hm q hq
  rw [hbackend] at hg
  cases hg
  rw [hstatement] at htext
  cases htext
  rw [hname] at hsource
  refine ⟨hcheck, m, hm, before, source, after, hsource, hliteral.trans ?_⟩
  decide +kernel

end Module

end QueryBook
