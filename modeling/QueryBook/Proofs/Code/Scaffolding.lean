import QueryBook.Proofs.Code.ScaffoldText
import QueryBook.Proofs.Setup.Following

/-!
# The scaffolding of a module is closed

Which queries get a routine, which routines a routine calls and which backends may meet are decided
in three places: by the setup targets, by the dependencies of a query, and by the check of the
book. They fit together. A dependency is referenced, so that it is a target; the check has found it
among the queries of the same backend; and the names of the scaffolding extend no other lead, so
that the routine called is the only definition of its name in the module, whatever other names
collide. What an entry point reaches is then one backend throughout.

All of this is read off the lines of the module. How a line starts tells what it is: no line of the
head or of a section starts like the first line of a routine or entry point, and no other line of
a routine starts like a call.
-/

namespace QueryBook

open Item

namespace Scaffold

/-! ## How lines start -/

/-- The line starts with this text. -/
def Starts (lead line : String) : Prop := lead.toList <+: line.toList

instance (lead line : String) : Decidable (Starts lead line) :=
  inferInstanceAs (Decidable (_ <+: _))

/-- Neither text starts with the other. -/
def Diverge (lead other : String) : Prop := ¬ Starts lead other ∧ ¬ Starts other lead

instance (lead other : String) : Decidable (Diverge lead other) :=
  inferInstanceAs (Decidable (_ ∧ _))

theorem Starts.append {lead line : String} (h : Starts lead line) (rest : String) :
    Starts lead (line ++ rest) := by
  rw [Starts, String.toList_append]
  exact h.trans (List.prefix_append _ _)

theorem starts_append (lead rest : String) : Starts lead (lead ++ rest) :=
  Starts.append (List.prefix_refl _) rest

theorem Diverge.not_starts {lead other line : String} (hdiverge : Diverge lead other)
    (h : Starts lead line) : ¬ Starts other line :=
  fun h' => (List.prefix_or_prefix_of_prefix h h').elim hdiverge.1 hdiverge.2

/-- The beginnings of the lines that define routines and entry points. -/
def leads : List String := ["def testsetup_", "def auto_"]

/-- The line defines neither a routine nor an entry point. -/
def Inert (line : String) : Prop := ∀ lead ∈ leads, ¬ Starts lead line

instance (line : String) : Decidable (Inert line) := inferInstanceAs (Decidable (∀ _ ∈ _, _))

theorem inert_of_starts (lead : String) {line : String}
    (hlead : ∀ other ∈ leads, Diverge lead other) (h : Starts lead line) : Inert line :=
  fun other hother => (hlead other hother).not_starts h

theorem inert_of_mem_heading {title l : String} (h : l ∈ Writer.heading title) : Inert l := by
  have hcomment : ∀ rest, Inert ("# " ++ rest) :=
    fun rest => inert_of_starts "# " (by decide) (starts_append _ rest)
  have hblank : Inert "" := by decide
  rw [Writer.heading] at h
  simp only [List.mem_cons, List.not_mem_nil, or_false] at h
  rcases h with rfl | rfl | rfl | rfl | rfl | rfl
  · exact hblank
  · exact hblank
  · exact hcomment _
  · exact hcomment _
  · exact hcomment _
  · exact hblank

/-- Below the outermost level all lines are inert. -/
theorem inert_of_mem_deeper {level : Nat} {items : List Item} {l : String}
    (h : l ∈ textLines (level + 1) items) : Inert l := by
  obtain ⟨⟨depth, text⟩, -, rfl⟩ := List.mem_map.mp h
  by_cases htext : text = ""
  · rw [htext]
    show Inert (Writer.indent _ "")
    rw [Writer.indent_empty]
    decide
  · have hblanks : Writer.indentation (level + 1 + depth) =
        Writer.indentation 1 ++ Writer.indentation (level + depth) := by
      rw [← Writer.indentation_add]
      congr 1
      omega
    show Inert (Writer.indent _ text)
    rw [Writer.indent_of_ne htext, hblanks, String.append_assoc]
    exact inert_of_starts _ (by decide) (starts_append _ _)

/-! ## The head of a module -/

/-- How the line of an import starts. -/
def IsImport (line : String) : Prop := Starts "import " line ∨ Starts "from " line

instance (line : String) : Decidable (IsImport line) := inferInstanceAs (Decidable (_ ∨ _))

theorem IsImport.inert {line : String} (h : IsImport line) : Inert line :=
  h.elim (inert_of_starts _ (by decide)) (inert_of_starts _ (by decide))

theorem isImport_of_mem_imports (package : String) (withTests : Bool) (g : Backend) :
    ∀ l ∈ g.imports package withTests, IsImport l := by
  have hfrom : ∀ rest, IsImport (toString "from " ++ toString package ++ toString rest) :=
    fun rest => .inr ((starts_append _ package).append rest)
  have hfixed : IsImport "import sqlite3" ∧ IsImport "import psycopg" ∧
      IsImport "from sqlfn.errors import ExecuteReturnedRowsError" := by decide
  cases g <;> cases withTests <;>
    simp only [Backend.imports, List.forall_mem_append, List.forall_mem_cons, if_true, if_false,
      Bool.false_eq_true, List.not_mem_nil, false_implies, implies_true, and_true, hfrom, hfixed]

end Scaffold

namespace Module.Imports

/-- The lines of all groups. -/
def lines (i : Imports) : List String := i.language ++ i.others ++ i.package

/-- Sorting an import in adds its line and no other. -/
theorem mem_lines_add {package line l : String} {i : Imports}
    (h : l ∈ (i.add package line).lines) : l ∈ i.lines ∨ l = line := by
  unfold add at h
  split at h
  · simp only [lines, List.mem_append, List.mem_singleton] at h ⊢
    tauto
  · split at h
    · simp only [lines, List.mem_append, List.mem_singleton] at h ⊢
      tauto
    · simp only [lines, List.mem_append, List.mem_singleton] at h ⊢
      tauto

theorem mem_lines_foldl {package l : String} {more : List String} {i : Imports}
    (h : l ∈ (more.foldl (add package) i).lines) : l ∈ i.lines ∨ l ∈ more := by
  induction more generalizing i with
  | nil => exact .inl h
  | cons line more ih =>
    rcases ih h with h | h
    · rcases mem_lines_add h with h | rfl
      · exact .inl h
      · exact .inr List.mem_cons_self
    · exact .inr (List.mem_cons_of_mem _ h)

end Module.Imports

namespace Scaffold

theorem isImport_imports (config : Config) (generators : List Backend) (withTests : Bool) :
    ∀ l ∈ (Module.imports config generators withTests).lines, IsImport l := by
  have hfrom : ∀ rest, IsImport
      (toString "from " ++ toString config.runtimePackage ++ toString rest) :=
    fun rest => .inr ((starts_append _ config.runtimePackage).append rest)
  have hfixed : ∀ l ∈ ["import logging", "from collections.abc import Callable, Sequence",
      "from typing import Any, Optional, TypeVar"], IsImport l := by decide
  intro l hl
  -- the last two lines of the first group are added behind all others
  have hparts : l ∈ ["from collections.abc import Callable, Sequence",
      "from typing import Any, Optional, TypeVar"] ∨ l ∈ Module.Imports.lines
        ((generators.flatMap (·.imports config.runtimePackage withTests)).foldl
          (Module.Imports.add config.runtimePackage)
          { language := ["import logging"], others := []
            package := s!"from {config.runtimePackage} import types as _t" ::
              if withTests then
                [s!"from {config.runtimePackage}.arbitrary import RAW_TEST_DATA, Unstructured"]
              else [] }) := by
    simp only [Module.imports, Module.Imports.lines, List.mem_append] at hl ⊢
    tauto
  rcases hparts with hl | hl
  · exact hfixed l (List.mem_cons_of_mem _ hl)
  rcases Module.Imports.mem_lines_foldl hl with hl | hl
  · simp only [Module.Imports.lines, List.append_nil, List.mem_append, List.mem_cons,
      List.not_mem_nil, or_false] at hl
    rcases hl with rfl | rfl | hl
    · exact hfixed _ List.mem_cons_self
    · exact hfrom _
    · split at hl
      · obtain rfl := List.mem_singleton.mp hl
        exact hfrom _
      · cases hl
  · obtain ⟨g, -, hg⟩ := List.mem_flatMap.mp hl
    exact isImport_of_mem_imports _ _ g l hg

theorem mem_textLines_groupItems {ls : List String} {l : String}
    (h : l ∈ textLines 0 (Module.groupItems ls)) : l ∈ ls ∨ l = "" := by
  unfold Module.groupItems at h
  split at h
  · cases h
  · rw [textLines_cons, textLines_lines] at h
    exact (List.mem_append.mp h).imp_right List.mem_singleton.mp

/-- No line of the head defines a routine or an entry point. -/
theorem inert_of_mem_header {config : Config} {sourceName : String} {generators : List Backend}
    {withTests : Bool} {l : String}
    (h : l ∈ textLines 0 (Module.headerItems config sourceName generators withTests)) :
    Inert l := by
  have himports := isImport_imports config generators withTests
  have hgroup : ∀ ls, (∀ l' ∈ ls, l' ∈ (Module.imports config generators withTests).lines) →
      l ∈ textLines 0 (Module.groupItems ls) → Inert l := by
    intro ls hls hl
    rcases mem_textLines_groupItems hl with hl | rfl
    · exact (himports l (hls l hl)).inert
    · decide
  rw [Module.headerItems, textLines_append, textLines_append, textLines_append,
    textLines_append] at h
  simp only [List.mem_append] at h
  rcases h with (((h | h) | h) | h) | h
  · have hlines : l ∈ [Writer.indent 0 ("\"\"\"" ++ Module.docstring config sourceName ++ "\"\"\""),
        "from __future__ import annotations", ""] := h
    rw [Writer.indent_zero, List.mem_cons, List.mem_cons, List.mem_singleton] at hlines
    rcases hlines with rfl | rfl | rfl
    · exact inert_of_starts _ (by decide) ((starts_append _ _).append _)
    · decide
    · decide
  · exact hgroup _ (fun l' hl' => by simp [Module.Imports.lines, hl']) h
  · exact hgroup _ (fun l' hl' => by simp [Module.Imports.lines, hl']) h
  · exact hgroup _ (fun l' hl' => by simp [Module.Imports.lines, hl']) h
  · have hlast : ∀ l' ∈ ["_log = logging.getLogger(__name__)", "", "T = TypeVar(\"T\")"],
        Inert l' := by decide
    exact hlast l h

/-! ## Sections -/

theorem diverge_of_access {r : Role} (hr : r.IsAccess) : ∀ other ∈ leads,
    Diverge r.lead other ∧ Diverge ("def " ++ r.lead) other := by
  have hall : ∀ r ∈ Role.all, r.IsAccess → ∀ other ∈ leads,
      Diverge r.lead other ∧ Diverge ("def " ++ r.lead) other := by decide +kernel
  exact hall r (Role.mem_all r) hr

/-- Nor does a line of a definition in one of the access roles. -/
theorem inert_of_mem_definition {d : Definition} {r : Role} (hr : r.IsAccess) {name : String}
    (hname : d.name = r.ident name) {l : String} (h : l ∈ textLines 0 d.items) : Inert l := by
  have hdiverge := diverge_of_access hr
  cases d with
  | constant x value =>
    obtain rfl : x = r.lead ++ name := hname
    have hl : l = Writer.indent 0 (r.lead ++ name ++ " = " ++ value.text) := List.mem_singleton.mp h
    rw [hl, Writer.indent_zero]
    exact inert_of_starts _ (fun other ho => (hdiverge other ho).1)
      (((starts_append _ _).append _).append _)
  | functionDef f =>
    have hf : f.name = r.lead ++ name := hname
    rw [Function.textLines_eq, List.mem_cons, List.mem_cons, List.mem_cons, List.mem_append] at h
    rcases h with rfl | rfl | rfl | h | h
    · decide
    · decide
    · refine inert_of_starts ("def " ++ r.lead) (fun other ho => (hdiverge other ho).2) ?_
      have hheader : f.header = "def " ++ r.lead ++ (name ++ "(" ++ ", ".intercalate
          (f.arguments.map Argument.text) ++ ") -> " ++ f.result ++ ":") := by
        rw [Function.header, hf]
        simp only [String.append_assoc]
      rw [hheader]
      exact starts_append _ _
    · exact inert_of_mem_deeper h
    · obtain ⟨line, -, h⟩ := List.mem_flatMap.mp h
      exact inert_of_mem_deeper h
  | classDef c =>
    rw [Definition.items, textLines_cons, Class.item, textLines_block, Writer.indent_zero] at h
    rcases List.mem_append.mp h with h | h
    · have hblank : ∀ l' ∈ ["", ""], Inert l' := by decide
      exact hblank l h
    rcases List.mem_cons.mp h with rfl | h
    · exact inert_of_starts "class " (by decide) (((starts_append _ _).append _).append _)
    · exact inert_of_mem_deeper h

end Scaffold

namespace Module.Content

/-- **No line of the head or of a section defines a routine or an entry point.** -/
theorem Of.inert_of_mem_front {config : Config} {b : Book} {c : Content} (hc : c.Of config b)
    {l : String} (h : l ∈ c.front config b) : Scaffold.Inert l := by
  rw [front, Writer.lines_writeAll, textLines_append, textLines_flatMap] at h
  rcases List.mem_append.mp h with h | h
  · exact Scaffold.inert_of_mem_header h
  obtain ⟨s, hs, h⟩ := List.mem_flatMap.mp h
  rw [sectionItems, textLines_cons, textLines_banner, textLines_flatMap] at h
  rcases List.mem_append.mp h with h | h
  · exact Scaffold.inert_of_mem_heading h
  obtain ⟨d, hd, h⟩ := List.mem_flatMap.mp h
  -- the definition stands in the section of some query
  obtain ⟨hsections, hall⟩ := Module.sections_eq Module.lookup_of_mem hc.sections
  have hmem : d ∈ c.sections.flatMap Prod.snd := List.mem_flatMap.mpr ⟨s, hs, hd⟩
  rw [hsections] at hmem
  obtain ⟨q, hq, hd⟩ := List.mem_flatMap.mp hmem
  obtain ⟨r, hr, hname⟩ := (hall q hq).role_of_mem hd
  exact Scaffold.inert_of_mem_definition (Query.access_of_mem_roles r hr) hname h

end Module.Content

namespace Scaffold

/-! ## Names between lead and tail -/

/-- A line with a name in it gives back the name and the backend, if what follows the name tells the
backends apart. -/
theorem eq_of_line_eq {lead : String} (tail : Backend → String)
    (htail : ¬ (tail .embedded).toList <:+ (tail .network).toList ∧
      ¬ (tail .network).toList <:+ (tail .embedded).toList) {name name' : String}
    {g g' : Backend} (h : lead ++ (name ++ tail g) = lead ++ (name' ++ tail g')) :
    name = name' ∧ g = g' := by
  have hrest : name ++ tail g = name' ++ tail g' := (String.append_right_inj lead).mp h
  have hsuffix : (tail g).toList <:+ name'.toList ++ (tail g').toList :=
    ⟨name.toList, by rw [← String.toList_append, hrest, String.toList_append]⟩
  have hor := List.suffix_or_suffix_of_suffix hsuffix (List.suffix_append _ _)
  have hg : g = g' := by
    cases g with
    | embedded =>
      cases g' with
      | embedded => rfl
      | network => exact absurd hor (not_or.mpr htail)
    | network =>
      cases g' with
      | embedded => exact absurd hor.symm (not_or.mpr htail)
      | network => rfl
  subst hg
  exact ⟨(String.append_left_inj _).mp hrest, rfl⟩

theorem setupHeader_inj {name name' : String} {g g' : Backend}
    (h : setupHeader name g = setupHeader name' g') : name = name' ∧ g = g' :=
  eq_of_line_eq signature (by decide +kernel) h

theorem setupCall_inj {name name' : String} {g g' : Backend}
    (h : setupCall name g = setupCall name' g') : name = name' ∧ g = g' :=
  eq_of_line_eq handedOn (by decide +kernel) h

theorem entryCall_inj {name name' : String} {g g' : Backend}
    (h : entryCall name g = entryCall name' g') : name = name' ∧ g = g' :=
  eq_of_line_eq handedFirst (by decide +kernel) h

/-! ## The lines of routines and entry points -/

/-- How the lines of a routine start that are not calls. -/
def routineLeads : List String :=
  ["    if ", "        return", "    visited.", "    try:", "        execute_", "    except ",
    "        _log.", "        raise"]

theorem starts_of_mem_handlerLines {name : String} {g : Backend} :
    ∀ l ∈ handlerLines name g, ∃ lead ∈ routineLeads, Starts lead l := by
  have hexcept : ∀ l ∈ ["    except ExecuteReturnedRowsError:", "    except sqlite3.Error as exc:",
      "    except psycopg.Error as exc:", "        raise"],
      ∃ lead ∈ routineLeads, Starts lead l := by
    decide +kernel
  have hlog : ∀ text rest : String, Starts "        _log." text →
      ∃ lead ∈ routineLeads, Starts lead (text ++ rest) := fun text rest h =>
    ⟨"        _log.", by decide, h.append rest⟩
  cases g with
  | embedded =>
    simp only [handlerLines, List.forall_mem_cons]
    exact ⟨hexcept _ (by decide), hlog _ _ (by decide), hexcept _ (by decide),
      hlog _ _ (by decide), hexcept _ (by decide), List.forall_mem_nil _⟩
  | network =>
    simp only [handlerLines, List.forall_mem_cons]
    exact ⟨hexcept _ (by decide), hlog _ _ (by decide), hexcept _ (by decide),
      List.forall_mem_nil _⟩

/-- A line of a routine is the call of the routine of a dependency, with the connection of the
query, or no call at all. -/
theorem mem_routine_body {q : Query} {l : String} (h : l ∈ (routine q).body) :
    (∃ d ∈ q.dependencyNames, l = setupCall d q.backend) ∨
      ∃ lead ∈ routineLeads, Starts lead l := by
  simp only [routine, List.mem_append, List.mem_cons, List.not_mem_nil, or_false, List.mem_map] at h
  rcases h with (((rfl | rfl | rfl) | ⟨d, hd, rfl⟩) | rfl | rfl) | h
  · exact .inr ⟨"    if ", by decide, Starts.append (by decide) _⟩
  · exact .inr ⟨"        return", by decide, by decide⟩
  · exact .inr ⟨"    visited.", by decide, Starts.append (by decide) _⟩
  · exact .inl ⟨d, hd, rfl⟩
  · exact .inr ⟨"    try:", by decide, by decide⟩
  · exact .inr ⟨"        execute_", by decide, starts_append _ _⟩
  · exact .inr (starts_of_mem_handlerLines l h)

theorem call_mem_routine {q : Query} {d : String} (h : d ∈ q.dependencyNames) :
    setupCall d q.backend ∈ (routine q).body :=
  List.mem_append_left _ (List.mem_append_left _ (List.mem_append_right _
    (List.mem_map_of_mem (f := (setupCall · q.backend)) h)))

/-- How the lines of an entry point start that are not the call. -/
def entryLeads : List String :=
  ["    \"\"\"", "    conn = ", "    try:", "    finally:", "        conn.close", "    with ",
    "        client."]

/-- A line of an entry point is the call of the routine of its query, or no call at all. -/
theorem mem_entryPoint_body {q : Query} {l : String} (h : l ∈ (entryPoint q).body) :
    l = entryCall q.name q.backend ∨ ∃ lead ∈ entryLeads, Starts lead l := by
  rw [entryPoint] at h
  rcases List.mem_cons.mp h with rfl | h
  · exact .inr ⟨"    \"\"\"", by decide, Starts.append (by decide) _⟩
  cases hg : q.backend with
  | embedded =>
    rw [hg] at h
    simp only [List.mem_cons, List.not_mem_nil, or_false] at h
    rcases h with rfl | rfl | rfl | rfl | rfl
    · exact .inr ⟨"    conn = ", by decide, by decide⟩
    · exact .inr ⟨"    try:", by decide, by decide⟩
    · exact .inl rfl
    · exact .inr ⟨"    finally:", by decide, by decide⟩
    · exact .inr ⟨"        conn.close", by decide, by decide⟩
  | network =>
    rw [hg] at h
    simp only [List.mem_cons, List.not_mem_nil, or_false] at h
    rcases h with rfl | rfl | rfl
    · exact .inr ⟨"    with ", by decide, by decide⟩
    · exact .inr ⟨"        client.", by decide, by decide⟩
    · exact .inl rfl

theorem call_mem_entryPoint (q : Query) : entryCall q.name q.backend ∈ (entryPoint q).body := by
  rw [entryPoint]
  refine List.mem_cons_of_mem _ ?_
  cases q.backend <;> simp

theorem inert_of_mem_routine {q : Query} {l : String} (h : l ∈ (routine q).body) : Inert l := by
  have hleads : ∀ lead ∈ routineLeads, ∀ other ∈ leads, Diverge lead other := by decide +kernel
  rcases mem_routine_body h with ⟨d, -, rfl⟩ | ⟨lead, hlead, hstarts⟩
  · exact inert_of_starts "    testsetup_" (by decide) (starts_append _ _)
  · exact inert_of_starts lead (hleads lead hlead) hstarts

theorem inert_of_mem_entryPoint {q : Query} {l : String} (h : l ∈ (entryPoint q).body) :
    Inert l := by
  have hleads : ∀ lead ∈ entryLeads, ∀ other ∈ leads, Diverge lead other := by decide +kernel
  rcases mem_entryPoint_body h with rfl | ⟨lead, hlead, hstarts⟩
  · exact inert_of_starts "        testsetup_" (by decide) (starts_append _ _)
  · exact inert_of_starts lead (hleads lead hlead) hstarts

theorem inert_of_mem_registry {names : List String} {l : String} (h : l ∈ registryLines names) :
    Inert l := by
  simp only [registryLines, List.mem_append, List.mem_cons, List.not_mem_nil, or_false,
    List.mem_map] at h
  rcases h with ((rfl | rfl | rfl) | ⟨name, -, rfl⟩) | rfl
  · decide
  · decide
  · decide
  · exact inert_of_starts "    \"auto_" (by decide) (starts_append _ _)
  · decide

/-! ## The lines that define routines and entry points -/

/-- The lines that start with a text. -/
def starting (lead : String) (lines : List String) : List String :=
  lines.filter fun l => Starts lead l

theorem starting_append (lead : String) (ls more : List String) :
    starting lead (ls ++ more) = starting lead ls ++ starting lead more :=
  List.filter_append ls more

theorem starting_of_inert {lead : String} (hlead : lead ∈ leads) {ls : List String}
    (h : ∀ l ∈ ls, Inert l) : starting lead ls = [] :=
  List.filter_eq_nil_iff.mpr fun l hl => by simpa using h l hl lead hlead

/-- Of blocks with inert lines only the headers count. -/
theorem starting_blocks {α : Type} {lead : String} (hlead : lead ∈ leads) {block : α → Block}
    (hinert : ∀ a, ∀ l ∈ (block a).body, Inert l) (as : List α) :
    starting lead (as.flatMap fun a => (block a).lines) =
      as.flatMap fun a => starting lead [(block a).header] := by
  rw [starting, List.filter_flatMap]
  refine List.flatMap_congr fun a _ => ?_
  have hblank : starting lead ["", ""] = [] := starting_of_inert hlead (by decide)
  show starting lead (["", ""] ++ ([(block a).header] ++ (block a).body)) = _
  rw [starting_append, starting_append, hblank, starting_of_inert hlead (hinert a),
    List.append_nil, List.nil_append]

theorem starting_lines {b : Book} {lead : String} (hlead : lead ∈ leads) :
    starting lead (lines b) =
      (b.setupTargets.flatMap fun q => starting lead [setupHeader q.name q.backend]) ++
      b.tested.flatMap fun q => starting lead [entryHeader q.name] := by
  have hheading : ∀ title, starting lead (Writer.heading title) = [] := fun title =>
    starting_of_inert hlead fun _ => inert_of_mem_heading
  have hregistry : starting lead (registryLines (b.tested.map Query.name)) = [] :=
    starting_of_inert hlead fun _ => inert_of_mem_registry
  rw [lines, starting_append, starting_append, starting_append, starting_append, hheading, hheading,
    hregistry, starting_blocks hlead fun q _ => inert_of_mem_routine (q := q),
    starting_blocks hlead fun q _ => inert_of_mem_entryPoint (q := q), List.nil_append,
    List.append_nil, List.append_nil]
  rfl

theorem setupHeader_starts (name : String) (g : Backend) :
    Starts "def testsetup_" (setupHeader name g) := starts_append _ _

theorem entryHeader_starts (name : String) : Starts "def auto_" (entryHeader name) :=
  starts_append _ _

theorem starting_self {lead l : String} (h : Starts lead l) : starting lead [l] = [l] :=
  List.filter_eq_self.mpr (by simpa using h)

theorem starting_of_not {lead l : String} (h : ¬ Starts lead l) : starting lead [l] = [] :=
  List.filter_eq_nil_iff.mpr (by simpa using h)

variable {front : List String} {b : Book}

/-- The lines that define routines are those of the setup targets, in order. -/
theorem starting_setup (hfront : ∀ l ∈ front, Inert l) :
    starting "def testsetup_" (front ++ lines b) =
      b.setupTargets.map fun q => setupHeader q.name q.backend := by
  have hdiverge : Diverge "def auto_" "def testsetup_" := by decide
  have hentries : (b.tested.flatMap fun q => starting "def testsetup_" [entryHeader q.name]) = [] :=
    List.flatMap_eq_nil_iff.mpr fun q _ =>
      starting_of_not (hdiverge.not_starts (entryHeader_starts q.name))
  rw [starting_append, starting_of_inert (by decide) hfront, starting_lines (by decide), hentries,
    List.nil_append, List.append_nil, List.map_eq_flatMap]
  exact List.flatMap_congr fun q _ => starting_self (setupHeader_starts q.name q.backend)

/-- The lines that define entry points are those of the tested queries, in order. -/
theorem starting_entry (hfront : ∀ l ∈ front, Inert l) :
    starting "def auto_" (front ++ lines b) = b.tested.map fun q => entryHeader q.name := by
  have hdiverge : Diverge "def testsetup_" "def auto_" := by decide
  have hroutines : (b.setupTargets.flatMap fun q =>
      starting "def auto_" [setupHeader q.name q.backend]) = [] :=
    List.flatMap_eq_nil_iff.mpr fun q _ =>
      starting_of_not (hdiverge.not_starts (setupHeader_starts q.name q.backend))
  rw [starting_append, starting_of_inert (by decide) hfront, starting_lines (by decide), hroutines,
    List.nil_append, List.nil_append, List.map_eq_flatMap]
  exact List.flatMap_congr fun q _ => starting_self (entryHeader_starts q.name)

/-! ## Calls -/

/-- The routines of a module. -/
def routines (b : Book) : List Block := b.setupTargets.map routine

/-- One routine calls another, which has the name that is called. -/
def Calls (b : Book) (x y : Block) : Prop :=
  y ∈ routines b ∧ ∃ d g g', setupCall d g ∈ x.body ∧ y.header = setupHeader d g'

/-- An entry point gets to a routine, by calling it or through the routines that it calls. -/
def Reached (b : Book) (e x : Block) : Prop :=
  ∃ first ∈ routines b, (∃ d g g', entryCall d g ∈ e.body ∧ first.header = setupHeader d g') ∧
    Relation.ReflTransGen (Calls b) first x

/-- A call of a routine with the connection of a backend finds what it calls. -/
structure Resolves (m : Module) (ls : List String) (d : String) (g : Backend) : Prop where
  /-- One line is the first line of the routine. -/
  once : ls.count (setupHeader d g) = 1
  /-- None is that of a routine with the name that takes another connection. -/
  alone : ∀ g', setupHeader d g' ∈ ls → g' = g
  /-- The module has one definition of the name, and this is its first line. -/
  definition : ∃ f, (m.definitions.filter fun x => x.name == "testsetup_" ++ d) = [.functionDef f] ∧
    f.header = setupHeader d g

variable {q : Query}

/-- The calls of a routine are those of its dependencies. -/
theorem eq_of_call {l : String} (h : l ∈ (routine q).body) (hcall : Starts "    testsetup_" l) :
    ∃ d ∈ q.dependencyNames, l = setupCall d q.backend := by
  have hleads : ∀ lead ∈ routineLeads, Diverge lead "    testsetup_" := by decide +kernel
  rcases mem_routine_body h with hd | ⟨lead, hlead, hstarts⟩
  · exact hd
  · exact absurd hcall ((hleads lead hlead).not_starts hstarts)

/-- The one call of an entry point is that of the routine of its query. -/
theorem eq_of_entryCall {l : String} (h : l ∈ (entryPoint q).body)
    (hcall : Starts "        testsetup_" l) : l = entryCall q.name q.backend := by
  have hleads : ∀ lead ∈ entryLeads, Diverge lead "        testsetup_" := by decide +kernel
  rcases mem_entryPoint_body h with heq | ⟨lead, hlead, hstarts⟩
  · exact heq
  · exact absurd hcall ((hleads lead hlead).not_starts hstarts)

end Scaffold

/-! ## What is called -/

namespace Book

variable {b : Book} {q : Query}

theorem mem_setupTargets_of_tested (hq : q ∈ b.tested) : q ∈ b.setupTargets := by
  obtain ⟨hmem, htested⟩ := List.mem_filter.mp hq
  exact List.mem_filter.mpr ⟨hmem, by simp [htested]⟩

theorem target_eq_of_name (h : b.names.Nodup) {target : Query} (hq : q ∈ b.setupTargets)
    (ht : target ∈ b.setupTargets) (hname : q.name = target.name) : q = target :=
  eq_of_name h (Setup.mem_setupTargets hq) (Setup.mem_setupTargets ht) hname

end Book

theorem filter_name_of_nodup {ds : List Definition} (h : (ds.map Definition.name).Nodup)
    {d : Definition} (hd : d ∈ ds) : (ds.filter fun x => x.name == d.name) = [d] := by
  induction ds with
  | nil => cases hd
  | cons x ds ih =>
    obtain ⟨hx, hds⟩ := List.nodup_cons.mp h
    rcases List.mem_cons.mp hd with rfl | hd
    · rw [List.filter_cons, if_pos (beq_self_eq_true _), List.filter_eq_nil_iff.mpr]
      exact fun y hy heq => hx (beq_iff_eq.mp heq ▸ List.mem_map_of_mem hy)
    · have hne : ¬ (x.name == d.name) = true := fun heq =>
        hx (beq_iff_eq.mp heq ▸ List.mem_map_of_mem hd)
      rw [List.filter_cons, if_neg hne, ih hds hd]

/-- A name of the scaffolding is defined once in the module, whatever other names collide. -/
theorem Program.Of.filter_scaffold {config : Config} {b : Book} {p : Program} (hp : p.Of config b)
    {d : Definition} (hd : d ∈ b.scaffold config) :
    (p.definitions.filter fun x => x.name == d.name) = [d] := by
  have hsections : ((b.queries.flatMap (Query.definitions config)).filter
      fun x => x.name == d.name) = [] := by
    refine List.filter_eq_nil_iff.mpr fun x hx heq => ?_
    obtain ⟨q, hq, hx⟩ := List.mem_flatMap.mp hx
    exact hp.name_ne_scaffold hq hx hd (beq_iff_eq.mp heq)
  rw [hp.definitions, List.filter_append, hsections, List.nil_append,
    filter_name_of_nodup (Book.scaffold_names_nodup hp.nodup) hd]

namespace Scaffold

variable {config : Config} {b : Book} {m : Module} {front : List String} {q : Query}

/-- The routine of a target is found by its name. -/
theorem resolves_of_target (hp : (Program.ofModule m).Of config b)
    (htests : config.emitTests = true) (hfront : ∀ l ∈ front, Inert l) (hq : q ∈ b.setupTargets) :
    Resolves m (front ++ lines b) q.name q.backend where
  once := by
    have hnodup : (b.setupTargets.map fun q => setupHeader q.name q.backend).Nodup := by
      have htargets : b.setupTargets.Nodup := (List.Nodup.of_map _ hp.nodup).filter _
      refine htargets.map_on fun x hx y hy heq => ?_
      exact Book.target_eq_of_name hp.nodup hx hy (setupHeader_inj heq).1
    have hmem : setupHeader q.name q.backend ∈
        b.setupTargets.map fun q => setupHeader q.name q.backend := List.mem_map_of_mem hq
    rw [← starting_setup hfront] at hnodup hmem
    rw [← List.count_filter (p := fun l => Starts "def testsetup_" l)
      (by simpa using setupHeader_starts q.name q.backend)]
    exact List.count_eq_one_of_mem hnodup hmem
  alone := by
    intro g' hmem
    have hstarting : setupHeader q.name g' ∈ starting "def testsetup_" (front ++ lines b) :=
      List.mem_filter.mpr ⟨hmem, by simpa using setupHeader_starts q.name g'⟩
    rw [starting_setup hfront] at hstarting
    obtain ⟨x, hx, heq⟩ := List.mem_map.mp hstarting
    obtain ⟨hname, hbackend⟩ := setupHeader_inj heq
    rw [← hbackend, Book.target_eq_of_name hp.nodup hx hq hname]
  definition := by
    have hd : Definition.functionDef q.routine.function ∈ b.scaffold config := by
      rw [Book.scaffold, if_pos htests]
      exact List.mem_append_left _ (List.mem_map_of_mem hq)
    exact ⟨_, hp.filter_scaffold hd, routine_header q⟩

/-- Every call in a routine finds a routine that takes the same connection. -/
theorem resolves_of_call (hp : (Program.ofModule m).Of config b)
    (htests : config.emitTests = true) (hfront : ∀ l ∈ front, Inert l) (hq : q ∈ b.setupTargets)
    {d : String} (hd : d ∈ q.dependencyNames) :
    Resolves m (front ++ lines b) d q.backend := by
  have hmem := Setup.mem_setupTargets hq
  obtain ⟨target, ht, hbackend, rfl⟩ :=
    Book.mem_targets_iff.mp (Book.mem_targets_of_dependency hmem (hp.sound hmem) hd)
  rw [← hbackend]
  exact resolves_of_target hp htests hfront ht

/-- A call leads from one backend to the same one. -/
theorem backend_of_calls (hb : b.check = .ok ()) (hq : q ∈ b.setupTargets) {y : Block}
    (h : Calls b (routine q) y) :
    ∃ r ∈ b.setupTargets, y = routine r ∧ r.backend = q.backend := by
  obtain ⟨hnames, hsound⟩ := Book.check_eq_ok_iff.mp hb
  obtain ⟨hy, d, g, g', hcall, hheader⟩ := h
  obtain ⟨r, hr, rfl⟩ := List.mem_map.mp hy
  obtain ⟨d', hd', heq⟩ := eq_of_call hcall (starts_append _ _)
  obtain ⟨rfl, -⟩ := setupCall_inj heq
  have hmem := Setup.mem_setupTargets hq
  obtain ⟨target, ht, hbackend, rfl⟩ :=
    Book.mem_targets_iff.mp (Book.mem_targets_of_dependency hmem (hsound q hmem) hd')
  have hsame := Book.target_eq_of_name hnames hr ht (setupHeader_inj hheader).1
  exact ⟨r, hr, rfl, hsame ▸ hbackend⟩

/-- **An entry point stays in its backend.** -/
theorem backend_of_reached (hb : b.check = .ok ()) (hq : q ∈ b.tested) {x : Block}
    (h : Reached b (entryPoint q) x) :
    ∃ r ∈ b.setupTargets, x = routine r ∧ r.backend = q.backend := by
  obtain ⟨first, hfirst, ⟨d, g, g', hcall, hheader⟩, hpath⟩ := h
  induction hpath with
  | refl =>
    obtain ⟨r, hr, rfl⟩ := List.mem_map.mp hfirst
    have hname := (entryCall_inj (eq_of_entryCall hcall (starts_append _ _))).1
    have hsame := Book.target_eq_of_name (Book.check_eq_ok_iff.mp hb).1 hr
      (Book.mem_setupTargets_of_tested hq) ((setupHeader_inj hheader).1.trans hname)
    exact ⟨r, hr, rfl, hsame ▸ rfl⟩
  | tail _ hstep ih =>
    obtain ⟨r, hr, rfl, hbackend⟩ := ih
    obtain ⟨r', hr', hy, hbackend'⟩ := backend_of_calls hb hr hstep
    exact ⟨r', hr', hy, hbackend'.trans hbackend⟩

end Scaffold

/-! ## The registry -/

namespace TestRegistry

theorem names_register {name : String} (test : Session Unit) {r : TestRegistry}
    (h : name ∉ r.names) : (register name test r).names = r.names ++ [name] := by
  induction r with
  | nil => rfl
  | cons e r ih =>
    have hne : e.1 ≠ name := fun heq => h (heq ▸ List.mem_cons_self)
    have hr : name ∉ TestRegistry.names r := fun hmem => h (List.mem_cons_of_mem _ hmem)
    rw [register, if_neg hne]
    exact congrArg (e.1 :: ·) (ih hr)

theorem names_foldl_register (entries : List (String × Session Unit)) (r : TestRegistry)
    (h : (r.names ++ entries.map Prod.fst).Nodup) :
    (entries.foldl (fun r e => register e.1 e.2 r) r).names = r.names ++ entries.map Prod.fst := by
  induction entries generalizing r with
  | nil => simp
  | cons e entries ih =>
    have hfresh : e.1 ∉ r.names := by
      intro hmem
      exact List.disjoint_of_nodup_append h hmem List.mem_cons_self
    have hnames := names_register e.2 hfresh
    have hshift : (register e.1 e.2 r).names ++ entries.map Prod.fst =
        r.names ++ (e :: entries).map Prod.fst := by
      rw [hnames, List.append_assoc]
      rfl
    rw [List.foldl_cons, ih _ (hshift ▸ h), hshift]

/-- Tests of different names are registered in order, none in the place of another. -/
theorem names_ofEntries {entries : List (String × Session Unit)}
    (h : (entries.map Prod.fst).Nodup) : (ofEntries entries).names = entries.map Prod.fst :=
  names_foldl_register entries [] h

end TestRegistry

namespace Module

theorem entryPoints_eq {config : Config} {b : Book} {m : Module} (hb : b.check = .ok ())
    (hm : (build config .standard b).outcome = .ok m) (htests : config.emitTests = true) :
    m.entryPoints = (b.tested.map Query.name).map ("auto_" ++ ·) := by
  obtain ⟨m', hm', -, hentryPoints, -⟩ | ⟨q, -, e, he, -⟩ := build_of_check hb config
  · cases hm.symm.trans hm'
    rw [hentryPoints, if_pos htests, List.map_map]
    rfl
  · cases hm.symm.trans he

/-- The program of a module registers its entry points, in order. -/
theorem registry_names {m : Module} (h : m.entryPoints.Nodup) :
    (Program.ofModule m).registry.names = m.entryPoints := by
  have hnames : (m.entryPoints.map fun name => (name,
      ((Program.ofModule m).invoke (Program.ofModule m).depth name []).onWorld)).map Prod.fst =
      m.entryPoints := by
    rw [List.map_map]
    exact List.map_id _
  rw [Program.registry]
  exact (TestRegistry.names_ofEntries (hnames.symm ▸ h)).trans hnames

/-- **The scaffolding of a module is closed.** The text of the module ends with the routines, the
entry points and the registry. Every call in a routine hands on the connection that the routine
takes, and finds the one routine of its name, which takes that connection too; an entry point calls
the routine of its query and nothing else; whatever it reaches is a routine for the backend of its
query; and the registry lists the entry points of the module, each once, in the order of the
queries. -/
theorem scaffolding_closed {config : Config} {b : Book} {m : Module} (hb : b.check = .ok ())
    (hm : (build config .standard b).outcome = .ok m) (htests : config.emitTests = true)
    (htargets : b.setupTargets ≠ []) :
    ∃ c : Content, c.Of config b ∧ ∃ ls : List String,
      ls = c.front config b ++ Scaffold.lines b ∧ m.source = Writer.linesText ls ∧
      (∀ x ∈ Scaffold.routines b, ∃ name g, x.header = Scaffold.setupHeader name g ∧
        ∀ l ∈ x.body, Scaffold.Starts "    testsetup_" l →
          ∃ d, l = Scaffold.setupCall d g ∧ Scaffold.Resolves m ls d g) ∧
      (∀ q ∈ b.queries, q.isTested = true →
        (∀ l, l ∈ (Scaffold.entryPoint q).body ∧ Scaffold.Starts "        testsetup_" l ↔
          l = Scaffold.entryCall q.name q.backend) ∧
        Scaffold.Resolves m ls q.name q.backend ∧
        ∀ x, Scaffold.Reached b (Scaffold.entryPoint q) x →
          ∃ r ∈ b.setupTargets, x = Scaffold.routine r ∧ r.backend = q.backend) ∧
      ∃ (before : List String) (names : List String),
        ls = before ++ Scaffold.registryLines names ∧ 
        names = (b.queries.filter Query.isTested).map Query.name ∧ names.Nodup ∧
        ls.filter (fun l => Scaffold.Starts "def auto_" l) = names.map Scaffold.entryHeader ∧
        m.entryPoints = names.map ("auto_" ++ ·) ∧
        (Program.ofModule m).registry.names = names.map ("auto_" ++ ·) := by
  obtain ⟨c, hc, hsource⟩ := source_eq hb hm htests htargets
  have hp := Program.of_build hb hm
  have hfront : ∀ l ∈ c.front config b, Scaffold.Inert l := fun l => hc.inert_of_mem_front
  have hnodup : (b.tested.map Query.name).Nodup := (List.filter_sublist.map _).nodup hp.nodup
  have hentryPoints := entryPoints_eq hb hm htests
  have hregistered : m.entryPoints.Nodup := by
    rw [hentryPoints]
    exact hnodup.map fun _ _ heq => (String.append_right_inj _).mp heq
  refine ⟨c, hc, _, rfl, hsource, ?_, ?_, _, _, (List.append_assoc _ _ _).symm, rfl, hnodup, ?_,
    hentryPoints, (registry_names hregistered).trans hentryPoints⟩
  · intro x hx
    obtain ⟨q, hq, rfl⟩ := List.mem_map.mp hx
    refine ⟨q.name, q.backend, rfl, fun l hl hcall => ?_⟩
    obtain ⟨d, hd, rfl⟩ := Scaffold.eq_of_call hl hcall
    exact ⟨d, rfl, Scaffold.resolves_of_call hp htests hfront hq hd⟩
  · intro q hmem htested
    have hq : q ∈ b.tested := List.mem_filter.mpr ⟨hmem, htested⟩
    refine ⟨fun l => ⟨fun h => Scaffold.eq_of_entryCall h.1 h.2, ?_⟩,
      Scaffold.resolves_of_target hp htests hfront (Book.mem_setupTargets_of_tested hq),
      fun x => Scaffold.backend_of_reached hb hq⟩
    rintro rfl
    exact ⟨Scaffold.call_mem_entryPoint q, Scaffold.starts_append _ _⟩
  · rw [List.map_map]
    exact Scaffold.starting_entry hfront

/-- A tested query of each backend: the one stands on a circle with a query that is not tested
itself, the other needs one that is declared later. -/
def mixedBook : Book :=
  let query (name : String) (backend : Backend) (dependencies : Option (List String)) : Query :=
    { name, backend, named := false, parameters := [], outputs := [], statement := "select"
      dependencies, line := 1 }
  { queries := [query "a" .embedded (some ["b", "b", "a"]), query "b" .embedded none,
      query "c" .network (some ["d"]), query "d" .network (some ["c"]), query "e" .network none]
    sourceName := "mixed" }

theorem scaffolding_closed_mixed :
    mixedBook.check = .ok () ∧ mixedBook.setupTargets ≠ [] ∧
    ∃ m, (build {} .standard mixedBook).outcome = .ok m ∧
      ∃ c : Content, c.Of {} mixedBook ∧ ∃ ls,
        ls = c.front {} mixedBook ++ Scaffold.lines mixedBook ∧ m.source = Writer.linesText ls ∧
        Scaffold.Resolves m ls "b" .embedded ∧ Scaffold.Resolves m ls "d" .network ∧
        ls.filter (fun l => Scaffold.Starts "def auto_" l) =
          ["def auto_a() -> None:", "def auto_c() -> None:", "def auto_d() -> None:"] ∧
        m.entryPoints = ["auto_a", "auto_c", "auto_d"] := by
  have hb : mixedBook.check = .ok () := rfl
  have htargets : mixedBook.setupTargets ≠ [] := by decide
  obtain ⟨m, hm⟩ := exists_build_of_check hb {} rfl
  obtain ⟨c, hc, ls, hls, hsource, hcalls, -, -, names, -, rfl, -, hautos, hentryPoints, -⟩ :=
    scaffolding_closed hb hm rfl htargets
  -- the routines of `a` and of `c` have the calls in them
  have hresolves : ∀ q ∈ mixedBook.setupTargets, ∀ d ∈ q.dependencyNames,
      Scaffold.Resolves m ls d q.backend := by
    intro q hq d hd
    obtain ⟨name, g, hheader, hall⟩ := hcalls (Scaffold.routine q) (List.mem_map_of_mem hq)
    obtain ⟨-, rfl⟩ := Scaffold.setupHeader_inj hheader
    obtain ⟨d', heq, hfound⟩ := hall _ (Scaffold.call_mem_routine hd) (Scaffold.starts_append _ _)
    rwa [(Scaffold.setupCall_inj heq).1]
  refine ⟨hb, htargets, m, hm, c, hc, ls, hls, hsource, ?_, ?_, hautos.trans (by decide),
    hentryPoints.trans (by decide)⟩
  · exact hresolves (mixedBook.queries.get ⟨0, by decide⟩) (by decide) "b" (by decide)
  · exact hresolves (mixedBook.queries.get ⟨2, by decide⟩) (by decide) "d" (by decide)

end Module

end QueryBook
