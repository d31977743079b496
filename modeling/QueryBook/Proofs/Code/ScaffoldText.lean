import QueryBook.Proofs.Code.Content
import QueryBook.Proofs.Code.Nesting

/-!
# The text of the scaffolding

The lines of setup routines, entry points and their registry, written out as they stand in a
module. A routine or entry point is a block: its first line, two lines apart from what comes before,
and the lines of its body. The end of the text of every module with scaffolding consists of these
lines and no others (`Module.source_eq`).
-/

namespace QueryBook

namespace Scaffold

/-! ## Lines -/

/-- A routine or entry point as it stands in the text. -/
structure Block where
  header : String
  body : List String

def Block.lines (x : Block) : List String := "" :: "" :: x.header :: x.body

/-- What follows the name of a routine where it is defined. -/
def signature : Backend → String
  | .embedded => "(u: Unstructured, visited: set[str], conn: sqlite3.Connection) -> None:"
  | .network => "(u: Unstructured, visited: set[str], client: GenericClient) -> None:"

/-- What follows the name of a routine where another one calls it. -/
def handedOn : Backend → String
  | .embedded => "(u, visited, conn)"
  | .network => "(u, visited, client)"

/-- What follows the name of a routine where an entry point calls it. -/
def handedFirst : Backend → String
  | .embedded => "(Unstructured(RAW_TEST_DATA), set(), conn)"
  | .network => "(Unstructured(RAW_TEST_DATA), set(), client)"

/-- The first line of the routine of a query. -/
def setupHeader (name : String) (g : Backend) : String :=
  "def testsetup_" ++ (name ++ signature g)

/-- The line by which a routine calls another one. -/
def setupCall (name : String) (g : Backend) : String :=
  "    testsetup_" ++ (name ++ handedOn g)

/-- What a routine does about the errors of its query. -/
def handlerLines (name : String) : Backend → List String
  | .embedded =>
    ["    except ExecuteReturnedRowsError:",
     "        _log.debug(\"setup of %s returned rows\", \"" ++ (name ++ "\")"),
     "    except sqlite3.Error as exc:",
     "        _log.error(\"setup of %s failed: %s\", \"" ++ (name ++ "\", exc)"),
     "        raise"]
  | .network =>
    ["    except psycopg.Error as exc:",
     "        _log.error(\"setup of %s failed: %s\", \"" ++ (name ++ "\", exc)"),
     "        raise"]

/-- The connection and the values that a routine runs its query with. -/
def argumentText (q : Query) : String :=
  "(" ++ ", ".intercalate
    (q.backend.connectionName :: Expr.texts q.routine.values) ++ ")"

/-- The routine of a query. -/
def routine (q : Query) : Block where
  header := setupHeader q.name q.backend
  body :=
    ["    if \"" ++ (q.name ++ "\" in visited:"), "        return",
      "    visited.add(\"" ++ (q.name ++ "\")")] ++
    q.dependencyNames.map (setupCall · q.backend) ++
    ["    try:", "        execute_" ++ (q.name ++ argumentText q)] ++
    handlerLines q.name q.backend

/-- The first line of the entry point of a query. -/
def entryHeader (name : String) : String := "def auto_" ++ (name ++ "() -> None:")

/-- The line by which an entry point calls a routine. -/
def entryCall (name : String) (g : Backend) : String :=
  "        testsetup_" ++ (name ++ handedFirst g)

/-- The entry point of a query. -/
def entryPoint (q : Query) : Block where
  header := entryHeader q.name
  body :=
    ("    \"\"\"Run the setup of ``" ++ (q.name ++ "`` against a fresh connection.\"\"\"")) ::
    match q.backend with
    | .embedded =>
      ["    conn = sqlite3.connect(\":memory:\")", "    try:", entryCall q.name .embedded,
       "    finally:", "        conn.close()"]
    | .network =>
      ["    with _pg.testing_client() as client:",
       "        client.execute(\"SET search_path TO pg_temp\")", entryCall q.name .network]

/-- The registry of entry points. -/
def registryLines (names : List String) : List String :=
  ["", "", "AUTO_TESTS: dict[str, Callable[[], None]] = \x7b"] ++
    names.map (fun name => "    \"auto_" ++ (name ++ ("\": auto_" ++ (name ++ ",")))) ++ ["\x7d"]

/-- The lines of the scaffolding of a book. -/
def lines (b : Book) : List String :=
  Writer.heading "test setup" ++ b.setupTargets.flatMap (fun q => (routine q).lines) ++
    Writer.heading "test entry points" ++ b.tested.flatMap (fun q => (entryPoint q).lines) ++
    registryLines (b.tested.map Query.name)

end Scaffold

/-! ## Layouts -/

namespace Item

theorem layoutAll_append (items more : List Item) :
    layoutAll (items ++ more) = layoutAll items ++ layoutAll more := by
  induction items with
  | nil => rfl
  | cons item items ih => rw [List.cons_append, layoutAll, layoutAll, ih, List.append_assoc]

/-- The lines of items below a level. -/
def textLines (level : Nat) (items : List Item) : List String :=
  (layoutAll items).map (Writer.place level)

variable {level : Nat}

theorem textLines_append (items more : List Item) :
    textLines level (items ++ more) = textLines level items ++ textLines level more := by
  rw [textLines, layoutAll_append, List.map_append, textLines, textLines]

theorem textLines_cons (item : Item) (items : List Item) :
    textLines level (item :: items) = textLines level [item] ++ textLines level items :=
  textLines_append [item] items

theorem textLines_flatMap {α : Type} (f : α → List Item) (as : List α) :
    textLines level (as.flatMap f) = as.flatMap fun a => textLines level (f a) := by
  induction as with
  | nil => rfl
  | cons a as ih => rw [List.flatMap_cons, List.flatMap_cons, textLines_append, ih]

theorem textLines_map {α : Type} (f : α → Item) (as : List α) :
    textLines level (as.map f) = as.flatMap fun a => textLines level [f a] := by
  rw [← textLines_flatMap, List.map_eq_flatMap]

theorem textLines_line (text : String) :
    textLines level [.line text] = [Writer.indent level text] := rfl

theorem textLines_lines (ls : List String) : textLines 0 [.lines ls] = ls := by
  show ((ls.map fun text => (0, text)) ++ []).map (Writer.place 0) = ls
  rw [List.append_nil, List.map_map]
  exact (List.map_congr_left fun text _ => Writer.indent_zero text).trans (List.map_id _)

theorem textLines_banner (title : String) :
    textLines 0 [.banner title] = Writer.heading title := textLines_lines (Writer.heading title)

/-- A block has its header, and its body one level deeper. -/
theorem textLines_block (header : String) (body : List Item) :
    textLines level [.block header body] =
      Writer.indent level header :: textLines (level + 1) body := by
  show Writer.place level (0, header) ::
    ((layoutAll body).map Line.deeper ++ []).map (Writer.place level) = _
  rw [List.append_nil, List.map_map]
  refine congrArg (_ :: ·) (List.map_congr_left fun l _ => ?_)
  show Writer.indent (level + (l.1 + 1)) l.2 = Writer.indent (level + 1 + l.1) l.2
  rw [Nat.add_assoc, Nat.add_comm 1]

end Item

namespace Writer

theorem indent_append {level : Nat} {lead : String} (h : lead ≠ "") (rest : String) :
    indent level (lead ++ rest) = indentation level ++ lead ++ rest := by
  rw [indent_of_ne fun hnil => h (String.append_eq_empty_iff.mp hnil).1, String.append_assoc]

end Writer

/-! ## Functions -/

open Item

/-- The lines of a function: its header, two lines apart, and its body. -/
theorem Function.textLines_eq (f : Function) :
    textLines 0 (Definition.functionDef f).items =
      "" :: "" :: f.header :: (textLines 1 (f.doc.toList.map .docstring) ++
        f.body.flatMap fun l => textLines 1 l.items) := by
  rw [Definition.items, textLines_cons, Function.item, textLines_block, Writer.indent_zero,
    textLines_append, textLines_flatMap]
  rfl

namespace Scaffold

/-! ## Routines -/

theorem routine_header (q : Query) :
    q.routine.function.header = setupHeader q.name q.backend := by
  have hsignature : "(" ++ ", ".intercalate ["u: Unstructured", "visited: set[str]",
      q.backend.connection.text] ++ ") -> " ++ "None" ++ ":" = signature q.backend := by
    cases q.backend <;> rfl
  show "def " ++ ("testsetup_" ++ q.name) ++ "(" ++ ", ".intercalate ["u: Unstructured",
    "visited: set[str]", q.backend.connection.text] ++ ") -> " ++ "None" ++ ":" =
    "def " ++ "testsetup_" ++ (q.name ++ signature q.backend)
  rw [← hsignature]
  simp only [String.append_assoc]

theorem setupCall_line (name : String) (g : Backend) :
    Writer.indent 1 (Expr.call (.global (Role.testSetup.ident name))
      [.argument "u", .argument "visited", .argument g.connectionName]).text =
      setupCall name g := by
  have hargs : "(" ++ ", ".intercalate ["u", "visited", g.connectionName] ++ ")" = handedOn g := by
    cases g <;> rfl
  have htext : "testsetup_" ++ name ++ "(" ++ ", ".intercalate
      ["u", "visited", g.connectionName] ++ ")" = "testsetup_" ++ (name ++ handedOn g) := by
    rw [← hargs]
    simp only [String.append_assoc]
  exact (congrArg (Writer.indent 1) htext).trans (Writer.indent_append (by decide) _)

/-- A routine leaves if it was visited, takes note of its visit, and calls its dependencies. -/
theorem guard_lines (q : Query) : (q.routine.guard.flatMap fun l => textLines 1 l.items) =
    ["    if \"" ++ (q.name ++ "\" in visited:"), "        return",
      "    visited.add(\"" ++ (q.name ++ "\")")] ++
    q.dependencyNames.map (setupCall · q.backend) := by
  have hleave : Writer.indent 1 ("if \"" ++ q.name ++ "\" in " ++ "visited" ++ ":") =
      "    if \"" ++ (q.name ++ "\" in visited:") := by
    simp only [String.append_assoc]
    exact Writer.indent_append (by decide) _
  have hadd : Writer.indent 1 (("visited" ++ "." ++ "add") ++ "(" ++ ("\"" ++ q.name ++ "\"") ++
      ")") = "    visited.add(\"" ++ (q.name ++ "\")") := by
    simp only [String.append_assoc]
    exact Writer.indent_append (by decide) _
  have hcalls : (q.routine.calls.map fun routine => BodyLine.run (.call (.global routine)
      [.argument "u", .argument "visited", q.routine.connection])).flatMap
      (fun l => textLines 1 l.items) = q.dependencyNames.map (setupCall · q.backend) := by
    rw [SetupRoutine.calls, List.map_map, List.flatMap_map, List.map_eq_flatMap]
    exact List.flatMap_congr fun d _ => congrArg (fun l => [l]) (setupCall_line d q.backend)
  rw [SetupRoutine.guard, List.flatMap_cons, List.flatMap_cons, hcalls, ← hleave, ← hadd]
  rfl

/-- The errors that a routine passes over are reported, and so are those of the driver. -/
theorem handler_lines (q : Query) : (q.routine.handlers.flatMap fun h => textLines 1 [h.item]) =
    handlerLines q.name q.backend := by
  have hdebug : Writer.indent 2 (("_log" ++ "." ++ "debug") ++ "(" ++ ", ".intercalate
      ["\"" ++ "setup of %s returned rows" ++ "\"", "\"" ++ q.name ++ "\""] ++ ")") =
      "        _log.debug(\"setup of %s returned rows\", \"" ++ (q.name ++ "\")") := by
    simp only [String.intercalate_cons_cons, String.intercalate_singleton, String.append_assoc]
    exact Writer.indent_append (by decide) _
  have herror : Writer.indent 2 (("_log" ++ "." ++ "error") ++ "(" ++ ", ".intercalate
      ["\"" ++ "setup of %s failed: %s" ++ "\"", "\"" ++ q.name ++ "\"", "exc"] ++ ")") =
      "        _log.error(\"setup of %s failed: %s\", \"" ++ (q.name ++ "\", exc)") := by
    simp only [String.intercalate_cons_cons, String.intercalate_singleton, String.append_assoc]
    exact Writer.indent_append (by decide) _
  have hbackend : q.routine.backend = q.backend := rfl
  cases hg : q.backend with
  | embedded =>
    rw [SetupRoutine.handlers, hbackend, hg, handlerLines, ← hdebug, ← herror]
    rfl
  | network =>
    rw [SetupRoutine.handlers, hbackend, hg, handlerLines, ← herror]
    rfl

/-- At last a routine runs its query. -/
theorem run_lines (q : Query) : textLines 1 q.routine.run.items =
    ["    try:", "        execute_" ++ (q.name ++ argumentText q)] ++
      handlerLines q.name q.backend := by
  have htext : "execute_" ++ q.name ++ "(" ++ ", ".intercalate (q.backend.connectionName ::
      Expr.texts q.routine.values) ++ ")" = "execute_" ++ (q.name ++ argumentText q) := by
    simp only [argumentText, String.append_assoc]
  have hcall : Writer.indent 2 (Expr.call (.global (Role.execute.ident q.name))
      (q.routine.connection :: q.routine.values)).text =
      "        execute_" ++ (q.name ++ argumentText q) :=
    (congrArg (Writer.indent 2) htext).trans (Writer.indent_append (by decide) _)
  rw [SetupRoutine.run, BodyLine.items, textLines_cons, textLines_block, textLines_line,
    textLines_map, handler_lines, ← hcall]
  rfl

/-- The routine of a query as it is written. -/
theorem routine_lines (q : Query) :
    textLines 0 (Definition.functionDef q.routine.function).items = (routine q).lines := by
  have hdoc : textLines 1 (q.routine.function.doc.toList.map .docstring) = [] := rfl
  have hbody : q.routine.function.body = q.routine.guard ++ [q.routine.run] := rfl
  rw [Function.textLines_eq, routine_header, hdoc, hbody, List.nil_append, List.flatMap_append,
    guard_lines, List.flatMap_singleton, run_lines, ← List.append_assoc]
  rfl

/-! ## Entry points -/

theorem entryPoint_header (q : Query) : q.entryPoint.function.header = entryHeader q.name := by
  show "def " ++ ("auto_" ++ q.name) ++ "(" ++ "" ++ ") -> " ++ "None" ++ ":" =
    "def " ++ "auto_" ++ (q.name ++ ("(" ++ "" ++ ") -> " ++ "None" ++ ":"))
  simp only [String.append_assoc]

theorem entryCall_line (q : Query) :
    Writer.indent 2 q.entryPoint.setup.text = entryCall q.name q.backend := by
  have hargs : "(" ++ ", ".intercalate ["Unstructured(RAW_TEST_DATA)", "set()",
      q.backend.connectionName] ++ ")" = handedFirst q.backend := by
    cases q.backend <;> rfl
  have htext : "testsetup_" ++ q.name ++ "(" ++ ", ".intercalate ["Unstructured(RAW_TEST_DATA)",
      "set()", q.backend.connectionName] ++ ")" =
      "testsetup_" ++ (q.name ++ handedFirst q.backend) := by
    rw [← hargs]
    simp only [String.append_assoc]
  exact (congrArg (Writer.indent 2) htext).trans (Writer.indent_append (by decide) _)

/-- The entry point of a query as it is written. -/
theorem entryPoint_lines (q : Query) :
    textLines 0 (Definition.functionDef q.entryPoint.function).items = (entryPoint q).lines := by
  have hdoc : Writer.indent 1 ("\"\"\"" ++ ("Run the setup of ``" ++ q.name ++
      "`` against a fresh connection.") ++ "\"\"\"") =
      "    \"\"\"Run the setup of ``" ++ (q.name ++ "`` against a fresh connection.\"\"\"") := by
    simp only [String.append_assoc]
    exact Writer.indent_append (by decide) _
  have hbackend : q.entryPoint.backend = q.backend := rfl
  have hcall := entryCall_line q
  rw [Function.textLines_eq, entryPoint_header, Block.lines, entryPoint, ← hdoc]
  refine congrArg (fun ls => "" :: "" :: entryHeader q.name :: _ :: ls) ?_
  show q.entryPoint.body.flatMap _ = _
  cases hg : q.backend with
  | embedded =>
    rw [hg] at hcall
    rw [EntryPoint.body, hbackend, hg, ← hcall]
    rfl
  | network =>
    rw [hg] at hcall
    rw [EntryPoint.body, hbackend, hg, ← hcall]
    rfl

theorem registry_lines (names : List String) :
    textLines 0 (Setup.registryItems (names.map Role.test.ident)) = registryLines names := by
  have hentry : ∀ name : String, Writer.indent 1 ("\"" ++ ("auto_" ++ name) ++ "\": " ++
      ("auto_" ++ name) ++ ",") = "    \"auto_" ++ (name ++ ("\": auto_" ++ (name ++ ","))) := by
    intro name
    simp only [String.append_assoc]
    exact Writer.indent_append (by decide) _
  have hentries : textLines 1 ((names.map Role.test.ident).map fun n => .line s!"\"{n}\": {n},") =
      names.map fun name => "    \"auto_" ++ (name ++ ("\": auto_" ++ (name ++ ","))) := by
    rw [List.map_map, textLines_map, List.map_eq_flatMap]
    exact List.flatMap_congr fun name _ => congrArg (fun l => [l]) (hentry name)
  rw [Setup.registryItems, textLines_cons, textLines_cons (.block _ _), textLines_block, hentries]
  rfl

/-- The scaffolding of a module as it is written. -/
theorem scaffolding_lines {config : Config} {b : Book} {c : Module.Content} (hc : c.Of config b)
    (htests : config.emitTests = true) (htargets : b.setupTargets ≠ []) :
    textLines 0 c.scaffolding = lines b := by
  have hroutines : c.routines = b.setupTargets.map Query.routine := by
    rw [hc.routines, if_pos htests]
  have hentries : c.entryPoints = b.tested.map Query.entryPoint := by
    rw [hc.entryPoints, if_pos htests]
  have hnames : c.entryPoints.map EntryPoint.name =
      (b.tested.map Query.name).map Role.test.ident := by
    rw [hentries, List.map_map, List.map_map]
    rfl
  have hsome : ¬ (c.routines.isEmpty = true) := by
    rw [hroutines]
    simpa using htargets
  rw [Module.Content.scaffolding, if_neg hsome, hnames, hroutines, hentries, List.flatMap_map,
    List.flatMap_map]
  rw [textLines_append, textLines_append, textLines_cons (.banner "test setup"), textLines_banner,
    textLines_cons (.banner "test entry points"), textLines_banner, textLines_flatMap,
    textLines_flatMap, registry_lines]
  simp only [routine_lines, entryPoint_lines, lines, List.append_assoc]

theorem exists_lines_eq (b : Book) : ∃ before, lines b = before ++ ["\x7d"] := by
  rw [lines, registryLines, ← List.append_assoc]
  exact ⟨_, rfl⟩

end Scaffold

/-! ## Modules -/

namespace Writer

theorem lines_writeAll (items : List Item) :
    (empty.writeAll items).lines.toList = textLines 0 items := by
  rw [writeAll_eq_put]
  simp [put, empty, textLines]

theorem intercalate_concat (ls : List String) (text : String) :
    "\n".intercalate (ls ++ [text]) = linesText ls ++ text := by
  induction ls with
  | nil => simp [linesText]
  | cons l ls ih =>
    obtain ⟨next, others, hothers⟩ := List.exists_cons_of_ne_nil
      (List.append_ne_nil_of_right_ne_nil ls (List.cons_ne_nil text []))
    rw [List.cons_append, hothers, String.intercalate_cons_cons, ← hothers, ih]
    simp only [linesText, List.foldr_cons, String.append_assoc]

/-- Behind a last line that is not empty, nothing is left out. -/
theorem render_eq {w : Writer} {ls : List String} {text : String}
    (hw : w.lines.toList = ls ++ [text]) {cs : List Char} {c : Char}
    (htext : text.toList = cs ++ [c]) (hc : c ≠ '\n') :
    w.render = linesText (ls ++ [text]) := by
  have hsplit : ("\n".intercalate w.lines.toList).toList =
      ((linesText ls).toList ++ cs) ++ [c] := by
    rw [hw, intercalate_concat, String.toList_append, htext, List.append_assoc]
  have hkept := rdropWhile_append (p := (· == '\n')) (beq_eq_false_iff_ne.mpr hc)
    ((linesText ls).toList ++ cs) []
  refine String.toList_inj.mp ?_
  calc w.render.toList
      = ("\n".intercalate w.lines.toList).toList.rdropWhile (· == '\n') ++ ['\n'] :=
        String.toList_ofList
    _ = ((linesText ls).toList ++ cs) ++ [c] ++ ['\n'] := by rw [hsplit, hkept, List.rdropWhile_nil]
    _ = (linesText (ls ++ [text])).toList := by
        rw [linesText_append]
        simp [linesText, htext]

end Writer

namespace Module

/-- The lines of the head and the sections of a module with scaffolding. -/
def Content.front (config : Config) (b : Book) (c : Content) : List String :=
  (Writer.empty.writeAll (headerItems config b.sourceName b.backends true ++
    c.sections.flatMap fun s => sectionItems s.1 s.2)).lines.toList

/-- **The text of a module with scaffolding**: the lines of its head and of its sections, and those
of the scaffolding. -/
theorem source_eq {config : Config} {b : Book} {m : Module} (hb : b.check = .ok ())
    (hm : (build config .standard b).outcome = .ok m) (htests : config.emitTests = true)
    (htargets : b.setupTargets ≠ []) :
    ∃ c : Content, c.Of config b ∧
      m.source = Writer.linesText (c.front config b ++ Scaffold.lines b) := by
  obtain ⟨c, hc, hsource, -⟩ := build_content hb hm
  have hsome : (!c.routines.isEmpty) = true := by
    rw [hc.routines, if_pos htests]
    simpa using htargets
  refine ⟨c, hc, ?_⟩
  -- the text ends with the brace of the registry, so that nothing is left out at its end
  obtain ⟨before, hbefore⟩ := Scaffold.exists_lines_eq b
  have hlines : (Writer.empty.writeAll (headerItems config b.sourceName b.backends true ++
      (c.sections.flatMap fun s => sectionItems s.1 s.2) ++ c.scaffolding)).lines.toList =
      c.front config b ++ before ++ ["\x7d"] := by
    rw [Writer.lines_writeAll, textLines_append, Scaffold.scaffolding_lines hc htests htargets,
      hbefore, Content.front, Writer.lines_writeAll, List.append_assoc]
  have hbrace : "\x7d".toList = [] ++ ['\x7d'] := rfl
  rw [hsource, Content.source, hsome, Writer.render_eq hlines hbrace (by decide), hbefore,
    List.append_assoc]

end Module

end QueryBook
