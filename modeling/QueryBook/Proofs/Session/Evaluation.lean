import QueryBook.Proofs.Query.Checked
import QueryBook.Session.Program
import Mathlib.Data.List.Forall2

/-!
# Evaluating generated code

The lemmas by which a call of a generated function is turned into what it does. A name that is an
argument means the value it was called with, as long as all arguments have different names, and any
other name is looked up in the module. So the values of the parameters come out as they went in, as
a tuple or by name, and the expression of a column type comes out as that type.

A call that is not of a function of the module does the same at every depth.
-/

namespace QueryBook

/-! ## Lists of named things -/

theorem lookup_of_mem_of_nodup {α : Type} {l : List (String × α)} (h : (l.map Prod.fst).Nodup)
    {x : String × α} (hx : x ∈ l) : l.lookup x.1 = some x.2 := by
  induction l with
  | nil => cases hx
  | cons y l ih =>
    rw [List.map_cons, List.nodup_cons] at h
    rw [List.lookup_cons]
    rcases List.mem_cons.mp hx with rfl | hx
    · rw [beq_self_eq_true]
    · have hne : (x.1 == y.1) = false :=
        beq_false_of_ne fun heq => h.1 (heq ▸ List.mem_map_of_mem hx)
      rw [hne]
      exact ih h.2 hx

theorem lookup_of_not_mem {α : Type} {l : List (String × α)} {name : String}
    (h : name ∉ l.map Prod.fst) : l.lookup name = none := by
  rw [List.lookup_eq_none_iff]
  intro x hx
  have hne : name ≠ x.1 := fun heq => h (heq ▸ List.mem_map_of_mem hx)
  simpa using hne

/-! ## Frames -/

namespace Frame

variable {fr : Frame}

theorem lookup_of_mem (h : (fr.locals.map Prod.fst).Nodup) {name : String} {o : Object}
    (hmem : (name, o) ∈ fr.locals) : fr.lookup name = pure o := by
  rw [lookup, lookup_of_mem_of_nodup h hmem]

theorem lookup_of_not_mem {name : String} (h : name ∉ fr.locals.map Prod.fst) :
    fr.lookup name = fr.globals name := by
  rw [lookup, QueryBook.lookup_of_not_mem h]

theorem lookup_bind_self (fr : Frame) (name : String) (o : Object) :
    (fr.bind name o).lookup name = pure o := by
  rw [lookup, bind, List.lookup_cons, beq_self_eq_true]

theorem lookup_bind_of_ne (fr : Frame) {name other : String} (h : name ≠ other) (o : Object) :
    (fr.bind other o).lookup name = fr.lookup name := by
  rw [lookup, bind, List.lookup_cons, beq_false_of_ne h]
  rfl

end Frame

/-! ## The values of the parameters -/

namespace Expr

variable {fr : Frame}

/-- Arguments evaluate to what they stand for. -/
theorem evalAll_arguments {names : List String} {os : List Object}
    (hlength : os.length = names.length)
    (h : ∀ x ∈ names.zip os, fr.lookup x.1 = pure x.2) :
    evalAll fr (names.map argument) = pure os := by
  induction names generalizing os with
  | nil =>
    obtain rfl := List.length_eq_zero_iff.mp hlength
    rfl
  | cons name names ih =>
    cases os with
    | nil => cases hlength
    | cons o os =>
      have hfirst : fr.lookup name = pure o := h (name, o) List.mem_cons_self
      have hrest := ih (Nat.succ.inj hlength) fun x hx => h x (List.mem_cons_of_mem _ hx)
      rw [List.map_cons, evalAll, eval, hfirst, pure_bind, hrest, pure_bind]

theorem eval_tuple_arguments {names : List String} {os : List Object}
    (hlength : os.length = names.length)
    (h : ∀ x ∈ names.zip os, fr.lookup x.1 = pure x.2) :
    eval fr (.tuple (names.map argument)) = pure (.tuple os) := by
  rw [eval, evalAll_arguments hlength h, pure_bind]

theorem eval_mapping {names : List String} {os : List Object} (hlength : os.length = names.length)
    (h : ∀ x ∈ names.zip os, fr.lookup x.1 = pure x.2) :
    eval fr (.mapping names) = pure (.mapping (names.zip os)) := by
  have hall : (names.mapM fun name => do return (name, ← fr.lookup name) :
      Run (List (String × Object))) = pure (names.zip os) := by
    induction names generalizing os with
    | nil => rfl
    | cons name names ih =>
      cases os with
      | nil => cases hlength
      | cons o os =>
        have hfirst : fr.lookup name = pure o := h (name, o) List.mem_cons_self
        rw [List.mapM_cons, hfirst,
          ih (Nat.succ.inj hlength) fun x hx => h x (List.mem_cons_of_mem _ hx)]
        rfl
  rw [eval, hall, pure_bind]

end Expr

namespace Object

theorem mapM_value? (vs : List Value) : (vs.map value).mapM value? = some vs := by
  induction vs with
  | nil => rfl
  | cons v vs ih =>
    rw [List.map_cons, List.mapM_cons, ih]
    rfl

@[simp]
theorem values?_tuple (vs : List Value) : (tuple (vs.map value)).values? = some vs :=
  mapM_value? vs

@[simp]
theorem columns?_tuple (ts : List ColumnType) : (tuple (ts.map column)).columns? = some ts := by
  show (ts.map column).mapM column? = some ts
  induction ts with
  | nil => rfl
  | cons t ts ih =>
    rw [List.map_cons, List.mapM_cons, ih]
    rfl

@[simp]
theorem named?_mapping (names : List String) (vs : List Value) :
    (mapping (names.zip (vs.map value))).named? = some (names.zip vs) := by
  show (names.zip (vs.map value)).mapM (fun e => e.2.value?.map (e.1, ·)) = some (names.zip vs)
  induction names generalizing vs with
  | nil => rfl
  | cons name names ih =>
    cases vs with
    | nil => rfl
    | cons v vs =>
      rw [List.map_cons, List.zip_cons_cons, List.mapM_cons, ih]
      rfl

end Object

/-! ## Column types -/

/-- In such a frame the library of column types is what its name stands for. -/
structure Frame.KnowsTypes (fr : Frame) : Prop where
  library : fr.lookup Query.typeLibrary = pure (.library .types)
  optional : ∀ t, fr.call (.method (.library .types) "optional") [.column t] =
    pure (.column (.optional t))

theorem Frame.outside_knowsTypes : Frame.outside.KnowsTypes := ⟨rfl, fun _ => rfl⟩

/-- The expression stands for a column type, wherever the library is at hand. -/
def Expr.Denotes (x : Expr) (c : ColumnType) : Prop :=
  ∀ fr : Frame, fr.KnowsTypes → x.eval fr = pure (.column c)

namespace TypeExpr

/-- **The expression of a supported type stands for its column type.** -/
theorem Supported.column_denotes {t : TypeExpr} (h : t.Supported) :
    ∃ x c, t.column Query.typeLibrary = .ok x ∧ ColumnType.ofTypeExpr? t = some c ∧
      x.Denotes c := by
  refine Supported.induct (motive := fun t => ∃ x c, t.column Query.typeLibrary = .ok x ∧
    ColumnType.ofTypeExpr? t = some c ∧ x.Denotes c) ?_ h
  intro s name args hs harity ih
  have hname : s.name = name := by simpa using List.find?_some hs
  have hmem : s ∈ SupportedType.all := List.mem_of_find?_eq_some hs
  subst hname
  simp only [SupportedType.all, List.mem_cons, List.not_mem_nil, or_false] at hmem
  obtain rfl | rfl | rfl | rfl | rfl | rfl | rfl := hmem
  -- `Optional` is the one name that is applied to a type
  case inr.inr.inr.inr.inr.inr =>
    obtain ⟨inner, rfl⟩ := List.length_eq_one_iff.mp harity.symm
    obtain ⟨x, c, hx, hc, hdenotes⟩ := ih inner List.mem_cons_self
    refine ⟨.call (.field (.global Query.typeLibrary) "optional") [x], .optional c, ?_, ?_,
      fun fr hfr => ?_⟩
    · rw [column, supported_of_find? hs, columns, hx]
      rfl
    · simp [ColumnType.ofTypeExpr?, hc]
    · simp only [Expr.eval, Expr.evalAll, hfr.library, hdenotes fr hfr, pure_bind]
      exact hfr.optional c
  all_goals
    obtain rfl := List.length_eq_zero_iff.mp harity.symm
    refine ⟨_, _, rfl, rfl, fun fr hfr => ?_⟩
    simp only [Expr.eval, hfr.library, pure_bind]
    rfl

theorem columns_denote {ts : List TypeExpr} (h : ∀ t ∈ ts, t.Supported) :
    ∃ xs cs, columns Query.typeLibrary ts = .ok xs ∧
      ts.mapM ColumnType.ofTypeExpr? = some cs ∧ cs.length = ts.length ∧
      List.Forall₂ Expr.Denotes xs cs := by
  induction ts with
  | nil => exact ⟨[], [], rfl, rfl, rfl, .nil⟩
  | cons t ts ih =>
    obtain ⟨x, c, hx, hc, hdenotes⟩ := (h t List.mem_cons_self).column_denotes
    obtain ⟨xs, cs, hxs, hcs, hlength, hall⟩ := ih fun u hu => h u (List.mem_cons_of_mem _ hu)
    refine ⟨x :: xs, c :: cs, ?_, ?_, congrArg Nat.succ hlength, .cons hdenotes hall⟩
    · rw [columns, hx, hxs]
      rfl
    · rw [List.mapM_cons, hc, hcs]
      rfl

end TypeExpr

theorem Expr.eval_columns {xs : List Expr} {cs : List ColumnType}
    (h : List.Forall₂ Expr.Denotes xs cs) {fr : Frame} (hfr : fr.KnowsTypes) :
    evalAll fr xs = pure (cs.map Object.column) := by
  induction h with
  | nil => rfl
  | cons hx _ ih => rw [evalAll, hx fr hfr, pure_bind, ih, pure_bind, List.map_cons]

/-! ## Functions -/

namespace Function

variable {f : Function} {globals : String → Run Object} {call : Object → List Object → Run Object}
  {args : List Object}

/-- What the names of the arguments stand for. -/
def locals (f : Function) (args : List Object) : List (String × Object) :=
  (f.arguments.map Argument.name).zip args

theorem apply_eq (h : args.length = f.arguments.length) :
    f.apply globals call args = BodyLine.runAll { locals := f.locals args, globals, call } f.body :=
  if_pos h

theorem apply_of_ne (h : args.length ≠ f.arguments.length) :
    f.apply globals call args = throw (f.mismatch args.length) := if_neg h

theorem map_fst_locals (h : args.length = f.arguments.length) :
    (f.locals args).map Prod.fst = f.arguments.map Argument.name := by
  rw [locals, List.map_fst_zip]
  simp [h]

end Function

/-! ## Programs -/

namespace Program

variable {p : Program}

theorem call_function (depth : Nat) (f : Function) (args : List Object) :
    p.call (depth + 1) (.function f) args = f.apply p.lookup (p.call depth) args := rfl

/-- What is not defined by the module does the same at every depth. -/
theorem call_library (depth : Nat) (l : Library) (name : String) (args : List Object) :
    p.call depth (.method (.library l) name) args = l.invoke name args := by
  cases depth <;> rfl

theorem call_connection (depth : Nat) (g : Backend) (c : Nat) (name : String)
    (args : List Object) :
    p.call depth (.method (.connection g c) name) args =
      (Object.method (.connection g c) name).invoke args := by
  cases depth <;> rfl

theorem call_source (depth number : Nat) (name : String) (args : List Object) :
    p.call depth (.method (.source number) name) args = Run.onSource number name args := by
  cases depth <;> rfl

theorem call_names (depth number : Nat) (name : String) (args : List Object) :
    p.call depth (.method (.names number) name) args = Run.onNames number name args := by
  cases depth <;> rfl

end Program

end QueryBook
