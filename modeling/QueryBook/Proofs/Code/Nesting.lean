import QueryBook.Proofs.Code.Quoting

/-!
# Where the lines of an item stand

The text of an item can be given without a writer: it is a list of lines, each with its depth below
the place where the item is written. A block puts its body one level deeper and an extension leaves
its body where it is. Writing adds just these lines to a writer of any level and keeps the level
(`writeAll_eq_put`).

An extension is written twice. Its lines get the indentation of their blocks on a fresh writer, and
that of the target when they are copied. The two add up, also for a line that is empty: it gets none
either time, and no other line becomes empty in between. So it makes no difference whether items
are written to a writer or by way of a fresh one.
-/

namespace QueryBook

/-! ## Lines with their depths -/

namespace Item

/-- A text, and how many blocks of the item are around it. -/
abbrev Line := Nat × String

/-- The line one level deeper. -/
def Line.deeper (l : Line) : Line := (l.1 + 1, l.2)

mutual

/-- The lines of an item. -/
def layout : Item → List Line
  | .line text => [(0, text)]
  | .lines texts => texts.map fun text => (0, text)
  | .blank count => List.replicate count.toNat (0, "")
  | .docstring text => [(0, "\"\"\"" ++ text ++ "\"\"\"")]
  | .banner title => (Writer.heading title).map fun text => (0, text)
  | .block header body => (0, header) :: (layoutAll body).map Line.deeper
  | .extend body => layoutAll body

/-- The lines of several items, one behind the other. -/
def layoutAll : List Item → List Line
  | [] => []
  | item :: rest => item.layout ++ layoutAll rest

end

end Item

namespace Writer

open Item

/-- A line as it stands below a level. -/
def place (level : Nat) (l : Line) : String := indent (level + l.1) l.2

/-- The writer with more lines, each as deep below its level as it says. -/
def put (w : Writer) (ls : List Line) : Writer :=
  { w with lines := w.lines ++ (ls.map (place w.level)).toArray }

variable {w : Writer}

theorem put_nil : w.put [] = w := by
  simp [put]

theorem put_append (ls more : List Line) : w.put (ls ++ more) = (w.put ls).put more := by
  simp [put]

/-! ## Indentation adds up -/

theorem indent_empty (level : Nat) : indent level "" = "" := rfl

theorem indent_of_ne {level : Nat} {text : String} (h : text ≠ "") :
    indent level text = indentation level ++ text := if_neg (mt String.isEmpty_iff.mp h)

theorem indentation_add (n m : Nat) : indentation (n + m) = indentation n ++ indentation m := by
  unfold indentation
  rw [Nat.mul_add, List.replicate_add, String.ofList_append]

/-- A line that is indented twice is indented by both levels. -/
theorem indent_indent (n m : Nat) (text : String) :
    indent n (indent m text) = indent (n + m) text := by
  by_cases htext : text = ""
  · rw [htext, indent_empty, indent_empty, indent_empty]
  · -- a line that is not empty is not empty behind its indentation either
    have hne : indentation m ++ text ≠ "" := fun h => htext (String.append_eq_empty_iff.mp h).2
    rw [indent_of_ne htext, indent_of_ne hne, indent_of_ne htext, indentation_add,
      String.append_assoc]

theorem indent_place (level : Nat) (l : Line) : indent level (place 0 l) = place level l := by
  rw [place, place, indent_indent, Nat.zero_add]

/-! ## What writing adds -/

theorem line_eq_put (text : String) : w.line text = w.put [(0, text)] := by
  simp [line, put, place]

theorem writeLines_eq_put (texts : List String) :
    w.writeLines texts = w.put (texts.map fun text => (0, text)) := by
  unfold writeLines
  induction texts generalizing w with
  | nil => exact put_nil.symm
  | cons text texts ih =>
    rw [List.foldl_cons, ih, line_eq_put, ← put_append]
    rfl

theorem blank_eq_put (count : Int) :
    w.blank count = w.put (List.replicate count.toNat (0, "")) := by
  simp [blank, put, place, indent_empty]

theorem banner_eq_put (title : String) :
    w.banner title = w.put ((heading title).map fun text => (0, text)) := by
  unfold banner
  rw [blank_eq_put, line_eq_put, line_eq_put, line_eq_put, blank_eq_put]
  simp only [← put_append]
  rfl

/-- A block adds its header, and its body one level deeper. -/
theorem block_eq_put (header : String) (ls : List Line) :
    ((w.line header).deeper.put ls).higher = w.put ((0, header) :: ls.map Line.deeper) := by
  have hplace : place (w.level + 1) = place w.level ∘ Line.deeper := by
    funext l
    rw [Function.comp_apply, place, place, Line.deeper, Nat.add_assoc, Nat.add_comm 1]
  rw [line_eq_put, ← List.singleton_append, put_append]
  simp [put, deeper, higher, hplace]

/-- Copying lines from a fresh writer puts them below the level of the target. -/
theorem extend_put (ls : List Line) : w.extend (empty.put ls) = w.put ls := by
  have hlines : (empty.put ls).lines.toList = ls.map (place 0) := by simp [put, empty]
  have hplace : (place w.level ∘ fun text => (0, text)) ∘ place 0 = place w.level :=
    funext (indent_place w.level)
  rw [extend, hlines, writeLines_eq_put, List.map_map, put, put, List.map_map,
    ← Function.comp_assoc, hplace]

-- The level of the writer is free in both statements: a body is written one level deeper than its
-- block, and on a fresh writer if it is that of an extension.
mutual

theorem write_eq_put (w : Writer) : ∀ item : Item, w.write item = w.put item.layout
  | .line text => line_eq_put text
  | .lines texts => writeLines_eq_put texts
  | .blank count => blank_eq_put count
  | .docstring _ => line_eq_put _
  | .banner title => banner_eq_put title
  | .block header body => by
    rw [write, writeAll_eq_put (w.line header).deeper body, block_eq_put, layout]
  | .extend body => by
    rw [write, writeAll_eq_put empty body, extend_put, layout]

/-- **Writing adds the lines of the items, below the level of the writer.** -/
theorem writeAll_eq_put (w : Writer) :
    ∀ items : List Item, w.writeAll items = w.put (layoutAll items)
  | [] => put_nil.symm
  | item :: rest => by
    rw [writeAll, write_eq_put w item, writeAll_eq_put (w.put item.layout) rest, ← put_append,
      layoutAll]

end

/-- **Items come out the same by way of a fresh writer.** Written to a fresh writer and copied, or
written directly, they leave a writer of any level with the same lines and at the level it had. The
lines are those of their layout, below this level. A block returns to the level it started from,
whatever is nested in it. -/
theorem extend_writeAll (w : Writer) (items : List Item) :
    w.extend (empty.writeAll items) = w.writeAll items ∧
    (w.writeAll items).level = w.level ∧
    (w.writeAll items).lines.toList =
      w.lines.toList ++ (layoutAll items).map (fun l => indent (w.level + l.1) l.2) ∧
    ∀ header, (w.write (.block header items)).level = w.level := by
  have hwritten := writeAll_eq_put w items
  refine ⟨?_, ?_, ?_, fun header => ?_⟩
  · rw [writeAll_eq_put empty items, extend_put, hwritten]
  · rw [hwritten]
    rfl
  · rw [hwritten, put, Array.toList_append]
    rfl
  · rw [write_eq_put]
    rfl

/-- An extension within a block, with a block and empty lines in it. -/
example : (empty.write (.block "a:" [.extend [.block "b:" [.line "", .blank 1, .line "c"]],
    .docstring "d"])).lines = #["a:", "    b:", "", "", "        c", "    \"\"\"d\"\"\""] := by
  decide

end Writer

end QueryBook
