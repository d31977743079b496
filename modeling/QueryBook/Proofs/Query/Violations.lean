import QueryBook.Proofs.Query.Checked
import QueryBook.Proofs.Query.Reporting
import Mathlib.Data.List.Nodup

/-!
# The first violation of a book

A book may break many rules at once, and the check names one violation. `Book.Violation` lists
all violations with the place where each stands, without saying how they are found; `Place.rank`
puts the places in order. The check passes exactly the books without a violation and else names
the one at the first place (`check_names_first_violation`).

The order has three parts nested in one another: query names before all else, then query by
query, and within a query its parameters, its types and its dependencies. A type is walked from
the outside in: the node at a path of argument numbers comes before the nodes below it, and those
before the nodes of the next argument, which is the order of the paths as lists.
-/

namespace QueryBook

/-! ## Nodes of a type by their paths -/

namespace TypeExpr

/-- The type found by following argument numbers from the outside in. -/
def at? : TypeExpr → List Nat → Option TypeExpr
  | t, [] => some t
  | t, i :: path => t.args[i]?.bind fun arg => arg.at? path

/-- The type, leaving aside the types inside it, is a supported name with as many arguments as the
name takes. -/
def IsKnown (t : TypeExpr) : Prop :=
  ∃ s ∈ SupportedType.all, s.name = t.name ∧ s.arity = t.args.length

theorem find?_name_of_mem : ∀ s ∈ SupportedType.all, SupportedType.find? s.name = some s := by
  decide

theorem isSupported_iff_isKnown {t : TypeExpr} : t.isSupported = true ↔ t.IsKnown := by
  rw [isSupported_iff]
  constructor
  · rintro ⟨s, hs, harity⟩
    have hname : s.name = t.name := by simpa using List.find?_some hs
    exact ⟨s, List.mem_of_find?_eq_some hs, hname, harity⟩
  · rintro ⟨s, hs, hname, harity⟩
    exact ⟨s, hname ▸ find?_name_of_mem s hs, harity⟩

mutual

/-- The nodes of a type are what its paths lead to. -/
theorem mem_nodes_iff {u : TypeExpr} : ∀ t : TypeExpr, u ∈ t.nodes ↔ ∃ path, t.at? path = some u
  | ⟨name, args⟩ => by
    rw [nodes, List.mem_cons, mem_nodesOf_iff args]
    constructor
    · rintro (rfl | ⟨i, t, path, hi, ht⟩)
      · exact ⟨[], rfl⟩
      · refine ⟨i :: path, ?_⟩
        rw [at?, hi]
        exact ht
    · rintro ⟨path, hpath⟩
      cases path with
      | nil => exact .inl (Option.some.inj hpath).symm
      | cons i path =>
        obtain ⟨t, hi, ht⟩ := Option.bind_eq_some_iff.mp hpath
        exact .inr ⟨i, t, path, hi, ht⟩

theorem mem_nodesOf_iff {u : TypeExpr} : ∀ ts : List TypeExpr,
    u ∈ nodesOf ts ↔
      ∃ (i : Nat) (t : TypeExpr) (path : List Nat), ts[i]? = some t ∧ t.at? path = some u
  | [] => by simp [nodesOf]
  | t :: ts => by
    rw [nodesOf, List.mem_append, mem_nodes_iff t, mem_nodesOf_iff ts]
    constructor
    · rintro (⟨path, hpath⟩ | ⟨i, t', path, hi, ht⟩)
      · exact ⟨0, t, path, rfl, hpath⟩
      · exact ⟨i + 1, t', path, hi, ht⟩
    · rintro ⟨i, t', path, hi, ht⟩
      cases i with
      | zero =>
        obtain rfl : t = t' := Option.some.inj hi
        exact .inl ⟨path, ht⟩
      | succ i => exact .inr ⟨i, t', path, hi, ht⟩

end

end TypeExpr

namespace Book

/-! ## Violations and their order -/

/-- Where a violation stands. Queries and what they list are counted from zero. -/
inductive Place where
  | queryName (query : Nat)
  | repeatedParameter (query parameter : Nat)
  | keywordParameter (query parameter : Nat)
  | reservedParameter (query parameter : Nat)
  | type (query type : Nat) (path : List Nat)
  | dependency (query dependency : Nat)
deriving DecidableEq, Repr

/-- The order of places: that of their ranks, as lists. -/
def Place.rank : Place → List Nat
  | queryName i => [0, i]
  | repeatedParameter i j => [1, i, 0, j, 0]
  | keywordParameter i j => [1, i, 0, j, 1]
  | reservedParameter i j => [1, i, 0, j, 2]
  | type i j path => 1 :: i :: 1 :: j :: path
  | dependency i j => [1, i, 2, j]

def nameFaults (before : List Query) (q : Query) : Faults BookError := fun k e =>
  q.name ∈ before.map Query.name ∧ k = [] ∧ e = refuse q (.duplicateName "query" q.name)

def parameterFaults (q : Query) (before : List String) (name : String) : Faults BookError :=
  fun k e =>
    (name ∈ before ∧ k = [0] ∧ e = refuse q (.duplicateName "parameter" name)) ∨
    (name ∈ keywords ∧ k = [1] ∧
      e = refuse q (.invalidIdentifier name "parameter name is a Python keyword")) ∨
    (isReserved name = true ∧ k = [2] ∧
      e = refuse q (.invalidIdentifier name "parameter name is reserved for generated code"))

def typeFaults (q : Query) (t : TypeExpr) : Faults BookError := fun path e =>
  ∃ u, t.at? path = some u ∧ ¬ u.IsKnown ∧
    e = refuse q (.unknownType u.text SupportedType.names)

def dependencyFaults (b : Book) (q : Query) (name : String) : Faults BookError := fun k e =>
  k = [] ∧
    (((∀ p ∈ b.queries, p.name ≠ name) ∧
      e = refuse q (.dependency name (.undeclared q.name))) ∨
    ∃ p ∈ b.queries, p.name = name ∧ p.backend ≠ q.backend ∧
      e = refuse q (.dependency name (.otherBackend q.name q.backend p.backend)))

def queryFaults (b : Book) (q : Query) : Faults BookError := fun k e =>
  (Faults.along (parameterFaults q) [] q.parameterNames).inside 0 k e ∨
  (Faults.along (fun _ => typeFaults q) [] (types q)).inside 1 k e ∨
  (Faults.along (fun _ => dependencyFaults b q) [] q.dependencyNames).inside 2 k e

def faults (b : Book) : Faults BookError := fun k e =>
  (Faults.along nameFaults [] b.queries).inside 0 k e ∨
  (Faults.along (fun _ => queryFaults b) [] b.queries).inside 1 k e

theorem checkTypes_append {q : Query} {ts us : List TypeExpr} :
    checkTypes q (ts ++ us) = checkTypes q ts >>= fun _ => checkTypes q us := by
  induction ts with
  | nil => rfl
  | cons t ts ih =>
    rw [List.cons_append, checkTypes, checkTypes]
    split
    · exact ih
    · rfl

mutual

/-- A node is tested before the nodes inside it, as its path comes before all that extend it. -/
theorem checkNodes_reports (q : Query) : ∀ t : TypeExpr,
    Reports (checkTypes q t.nodes) (typeFaults q t)
  | ⟨name, args⟩ => by
    have htest : checkTypes q [⟨name, args⟩] =
        if ¬ (⟨name, args⟩ : TypeExpr).isSupported = true then
          .error (refuse q (.unknownType (TypeExpr.text ⟨name, args⟩) SupportedType.names))
        else .ok () := by
      simp only [checkTypes, ite_not]
    rw [TypeExpr.nodes, ← List.singleton_append, checkTypes_append, htest]
    refine ((Reports.test []).bind (fun _ _ => checkNodesOf_reports q [] args) ?_).congr ?_
    · rintro _ _ _ _ ⟨-, rfl, -⟩ ⟨i, t, -, r, rfl, -⟩
      exact List.nil_lt_cons i r
    · intro path e
      rw [TypeExpr.isSupported_iff_isKnown]
      constructor
      · rintro (⟨hn, rfl, rfl⟩ | ⟨i, t, hi, r, rfl, u, hu, hn, rfl⟩)
        · exact ⟨_, rfl, hn, rfl⟩
        · refine ⟨u, ?_, hn, rfl⟩
          rw [TypeExpr.at?, hi]
          exact hu
      · rintro ⟨u, hu, hn, rfl⟩
        cases path with
        | nil =>
          obtain rfl := Option.some.inj hu
          exact .inl ⟨hn, rfl, rfl⟩
        | cons i path =>
          obtain ⟨t, hi, hu⟩ := Option.bind_eq_some_iff.mp hu
          exact .inr ⟨i, t, hi, path, rfl, u, hu, hn, rfl⟩

theorem checkNodesOf_reports (q : Query) : ∀ before ts : List TypeExpr,
    Reports (checkTypes q (TypeExpr.nodesOf ts)) (Faults.along (fun _ => typeFaults q) before ts)
  | _, [] => reports_along_nil
  | before, t :: ts => by
    rw [TypeExpr.nodesOf, checkTypes_append]
    exact reports_along_cons (checkNodes_reports q t) fun _ _ =>
      checkNodesOf_reports q (before ++ [t]) ts

end

/-- Where query names differ, a name finds the one query that has it. -/
theorem find?_eq_some_iff {b : Book} (hb : b.names.Nodup) {name : String} {p : Query} :
    b.find? name = some p ↔ p ∈ b.queries ∧ p.name = name := by
  constructor
  · exact find?_eq_some
  · rintro ⟨hp, rfl⟩
    cases hfind : b.find? p.name with
    | none =>
      have hne := List.find?_eq_none.mp hfind p hp
      simp at hne
    | some p' =>
      obtain ⟨hp', hname⟩ := find?_eq_some hfind
      rw [List.inj_on_of_nodup_map hb hp' hp hname]

end Book

end QueryBook
