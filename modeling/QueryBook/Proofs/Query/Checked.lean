import QueryBook.Code.TypeHint
import QueryBook.Query.Validation
import Mathlib.Data.List.Basic

/-!
# What checking a book establishes

Checking stops at the first violation, so a book that passes satisfies every condition at once:
`check_eq_ok_iff` says which ones. The rest of the module is what the conditions on types are
good for. A type whose nodes are all supported has a hint and an expression of its column type, at
every depth; both are proved by one induction over supported types.
-/

namespace QueryBook

/-- Steps that may fail succeed together if each does. -/
theorem bind_eq_ok_iff {ε α β : Type} {x : Except ε α} {f : α → Except ε β} {r : β} :
    (x >>= f) = .ok r ↔ ∃ a, x = .ok a ∧ f a = .ok r := by
  cases x with
  | error e => exact ⟨nofun, nofun⟩
  | ok a => exact ⟨fun h => ⟨a, rfl, h⟩, fun ⟨_, ha, h⟩ => by cases ha; exact h⟩

theorem mapError_eq_ok_iff {ε ε' α : Type} {x : Except ε α} {f : ε → ε'} {a : α} :
    x.mapError f = .ok a ↔ x = .ok a := by
  cases x with
  | error e => exact ⟨nofun, nofun⟩
  | ok b => exact ⟨fun h => by cases h; rfl, fun h => by cases h; rfl⟩

theorem map_eq_ok_iff {ε α β : Type} {x : Except ε α} {f : α → β} {r : β} :
    x.map f = .ok r ↔ ∃ a, x = .ok a ∧ f a = r := by
  cases x with
  | error e => exact ⟨nofun, nofun⟩
  | ok a => exact ⟨fun h => ⟨a, rfl, Except.ok.inj h⟩, fun ⟨_, ha, h⟩ => by cases ha; cases h; rfl⟩

theorem map_eq_error_iff {ε α β : Type} {x : Except ε α} {f : α → β} {e : ε} :
    x.map f = .error e ↔ x = .error e := by
  cases x with
  | error e' => exact ⟨fun h => congrArg _ (Except.error.inj h), fun h => by cases h; rfl⟩
  | ok a => exact ⟨nofun, nofun⟩

/-- A result with a property that can be computed is found by computing it. -/
theorem exists_ok_of_any {ε α : Type} {x : Except ε α} {p : α → Prop} [DecidablePred p]
    (h : x.toOption.any (fun a => p a) = true) : ∃ a, x = .ok a ∧ p a := by
  cases x with
  | error e => cases h
  | ok a => exact ⟨a, rfl, of_decide_eq_true h⟩

/-- A function that goes through a list item by item succeeds if it does so on each item. -/
theorem traversal_ok {ε α β : Type} {f : α → Except ε β} {F : List α → Except ε (List β)}
    (nil : F [] = .ok [])
    (cons : ∀ a as b bs, f a = .ok b → F as = .ok bs → F (a :: as) = .ok (b :: bs))
    {as : List α} (h : ∀ a ∈ as, ∃ b, f a = .ok b) : ∃ bs, F as = .ok bs := by
  induction as with
  | nil => exact ⟨[], nil⟩
  | cons a as ih =>
    obtain ⟨b, hb⟩ := h a List.mem_cons_self
    obtain ⟨bs, hbs⟩ := ih fun r hr => h r (List.mem_cons_of_mem _ hr)
    exact ⟨b :: bs, cons a as b bs hb hbs⟩

namespace TypeExpr

/-! ## Types that are supported throughout -/

/-- A type that is supported throughout. -/
def Supported (t : TypeExpr) : Prop := ∀ u ∈ t.nodes, u.isSupported = true

theorem mem_nodesOf {u : TypeExpr} {ts : List TypeExpr} :
    u ∈ nodesOf ts ↔ ∃ t ∈ ts, u ∈ t.nodes := by
  induction ts with
  | nil => simp [nodesOf]
  | cons t ts ih => simp [nodesOf, ih]

theorem isSupported_iff {t : TypeExpr} :
    t.isSupported = true ↔
      ∃ s, SupportedType.find? t.name = some s ∧ s.arity = t.args.length := by
  unfold isSupported
  cases SupportedType.find? t.name with
  | none => simp
  | some s => simp

/-- A supported type is a supported name applied to as many supported types as it takes. -/
theorem Supported.cases {name : String} {args : List TypeExpr} (h : Supported ⟨name, args⟩) :
    (∃ s, SupportedType.find? name = some s ∧ s.arity = args.length) ∧ ∀ t ∈ args, t.Supported := by
  unfold Supported at h
  rw [nodes] at h
  refine ⟨isSupported_iff.mp (h _ List.mem_cons_self), fun t ht u hu => h u ?_⟩
  exact List.mem_cons_of_mem _ (mem_nodesOf.mpr ⟨t, ht, hu⟩)

/-- Induction over supported types. -/
theorem Supported.induct {motive : TypeExpr → Prop}
    (node : ∀ (s : SupportedType) (name : String) (args : List TypeExpr),
      SupportedType.find? name = some s → s.arity = args.length → (∀ t ∈ args, motive t) →
      motive ⟨name, args⟩) :
    ∀ {t : TypeExpr}, t.Supported → motive t
  | ⟨name, args⟩, h => by
    obtain ⟨⟨s, hs, harity⟩, hargs⟩ := h.cases
    exact node s name args hs harity fun t ht => Supported.induct node (hargs t ht)

theorem supported_of_find? {name : String} {s : SupportedType}
    (h : SupportedType.find? name = some s) : supported name = .ok s := by
  rw [supported, h]

theorem hints_ok {output : Bool} {ts : List TypeExpr} (h : ∀ t ∈ ts, ∃ x, t.hint output = .ok x) :
    ∃ xs, hints output ts = .ok xs :=
  traversal_ok (F := hints output) rfl (fun t ts x xs hx hxs => by rw [hints, hx, hxs]; rfl) h

theorem columns_ok {library : String} {ts : List TypeExpr}
    (h : ∀ t ∈ ts, ∃ x, t.column library = .ok x) : ∃ xs, columns library ts = .ok xs :=
  traversal_ok (F := columns library) rfl (fun t ts x xs hx hxs => by rw [columns, hx, hxs]; rfl) h

theorem Supported.hint_ok {t : TypeExpr} (h : t.Supported) (output : Bool) :
    ∃ x, t.hint output = .ok x := by
  refine Supported.induct (motive := fun t => ∃ x, t.hint output = .ok x) ?_ h
  intro s name args hs _ ih
  obtain ⟨inner, hinner⟩ := hints_ok ih
  rw [hint, supported_of_find? hs, hinner]
  show ∃ x, (if inner.isEmpty = true then _ else _ : Except String String) = _
  split <;> exact ⟨_, rfl⟩

theorem Supported.column_ok {t : TypeExpr} (h : t.Supported) (library : String) :
    ∃ x, t.column library = .ok x := by
  refine Supported.induct (motive := fun t => ∃ x, t.column library = .ok x) ?_ h
  intro s name args hs _ ih
  obtain ⟨inner, hinner⟩ := columns_ok ih
  rw [column, supported_of_find? hs, hinner]
  show ∃ x, (if inner.isEmpty = true then _ else _ : Except String Expr) = _
  split <;> exact ⟨_, rfl⟩

end TypeExpr

/-! ## The conditions of a checked book -/

namespace Book

/-- The conditions on one query of a book. -/
structure Sound (b : Book) (q : Query) : Prop where
  /-- The parameters have different names. -/
  distinct : q.parameterNames.Nodup
  /-- Their names can be argument names. -/
  usable : ∀ name ∈ q.parameterNames, name ∉ keywords ∧ isReserved name = false
  /-- The types of parameters and outputs are supported throughout. -/
  supported : ∀ t ∈ types q, t.Supported
  /-- The dependencies are queries of the book for the same backend. -/
  dependencies : ∀ d ∈ q.dependencyNames, ∃ target, b.find? d = some target ∧
    target.backend = q.backend

theorem andThen_eq_ok_iff {x y : Except BookError Unit} :
    (x >>= fun _ => y) = .ok () ↔ x = .ok () ∧ y = .ok () := by
  rw [bind_eq_ok_iff]
  exact ⟨fun ⟨_, h⟩ => h, fun h => ⟨(), h⟩⟩

theorem checkNames_eq_ok_iff {seen : List String} {qs : List Query} :
    checkNames seen qs = .ok () ↔
      (∀ q ∈ qs, q.name ∉ seen) ∧ (qs.map Query.name).Nodup := by
  induction qs generalizing seen with
  | nil => simp [checkNames]
  | cons q qs ih =>
    rw [checkNames]
    split
    · rename_i hq
      exact ⟨nofun, fun h => absurd hq (h.1 q List.mem_cons_self)⟩
    · rename_i hq
      rw [ih]
      -- the name just passed has joined those seen
      simp only [List.mem_cons, List.map_cons, List.nodup_cons, List.mem_map]
      grind

theorem checkParameters_eq_ok_iff {q : Query} {seen names : List String} :
    checkParameters q seen names = .ok () ↔
      (∀ name ∈ names, name ∉ seen) ∧ names.Nodup ∧
        ∀ name ∈ names, name ∉ keywords ∧ isReserved name = false := by
  induction names generalizing seen with
  | nil => simp [checkParameters]
  | cons name names ih =>
    rw [checkParameters]
    split
    · rename_i h
      exact ⟨nofun, fun hs => absurd h (hs.1 name List.mem_cons_self)⟩
    · split
      · rename_i h
        exact ⟨nofun, fun hs => absurd h (hs.2.2 name List.mem_cons_self).1⟩
      · split
        · rename_i h
          exact ⟨nofun, fun hs => by simp [(hs.2.2 name List.mem_cons_self).2] at h⟩
        · rw [ih]
          simp only [List.mem_cons, List.nodup_cons]
          grind

theorem checkTypes_eq_ok_iff {q : Query} {ts : List TypeExpr} :
    checkTypes q ts = .ok () ↔ ∀ t ∈ ts, t.isSupported = true := by
  induction ts with
  | nil => simp [checkTypes]
  | cons t ts ih =>
    rw [checkTypes]
    split
    · rename_i h
      rw [ih]
      simp [h]
    · rename_i h
      exact ⟨nofun, fun hs => absurd (hs t List.mem_cons_self) h⟩

theorem checkDependencies_eq_ok_iff {b : Book} {q : Query} {names : List String} :
    checkDependencies b q names = .ok () ↔
      ∀ d ∈ names, ∃ target, b.find? d = some target ∧ target.backend = q.backend := by
  induction names with
  | nil => simp [checkDependencies]
  | cons name names ih =>
    rw [checkDependencies]
    cases hfind : b.find? name with
    | none =>
      refine ⟨nofun, fun h => ?_⟩
      obtain ⟨target, ht, _⟩ := h name List.mem_cons_self
      simp [hfind] at ht
    | some target =>
      simp only
      split
      · rename_i hb
        rw [ih]
        simp [hfind, hb]
      · rename_i hb
        refine ⟨nofun, fun h => ?_⟩
        obtain ⟨target', ht, hb'⟩ := h name List.mem_cons_self
        rw [hfind, Option.some.injEq] at ht
        exact absurd (ht ▸ hb') hb

theorem checkQuery_eq_ok_iff {b : Book} {q : Query} : checkQuery b q = .ok () ↔ b.Sound q := by
  rw [checkQuery, andThen_eq_ok_iff, andThen_eq_ok_iff, checkParameters_eq_ok_iff,
    checkTypes_eq_ok_iff, checkDependencies_eq_ok_iff]
  constructor
  · rintro ⟨⟨_, hdistinct, husable⟩, htypes, hdeps⟩
    exact ⟨hdistinct, husable,
      fun t ht u hu => htypes u (TypeExpr.mem_nodesOf.mpr ⟨t, ht, hu⟩), hdeps⟩
  · rintro ⟨hdistinct, husable, hsupported, hdeps⟩
    refine ⟨⟨fun _ _ => List.not_mem_nil, hdistinct, husable⟩, fun u hu => ?_, hdeps⟩
    obtain ⟨t, ht, hu⟩ := TypeExpr.mem_nodesOf.mp hu
    exact hsupported t ht u hu

theorem checkQueries_eq_ok_iff {b : Book} {qs : List Query} :
    checkQueries b qs = .ok () ↔ ∀ q ∈ qs, b.Sound q := by
  induction qs with
  | nil => simp [checkQueries]
  | cons q qs ih =>
    rw [checkQueries, andThen_eq_ok_iff, checkQuery_eq_ok_iff, ih]
    simp

/-- **A book passes the check exactly if its queries have different names and each satisfies the
conditions on a query.** -/
theorem check_eq_ok_iff {b : Book} :
    b.check = .ok () ↔ b.names.Nodup ∧ ∀ q ∈ b.queries, b.Sound q := by
  rw [check, andThen_eq_ok_iff, checkNames_eq_ok_iff, checkQueries_eq_ok_iff]
  constructor
  · rintro ⟨⟨_, hnames⟩, hsound⟩
    exact ⟨hnames, hsound⟩
  · rintro ⟨hnames, hsound⟩
    exact ⟨⟨fun _ _ => List.not_mem_nil, hnames⟩, hsound⟩

theorem find?_eq_some {b : Book} {name : String} {q : Query} (h : b.find? name = some q) :
    q ∈ b.queries ∧ q.name = name := by
  refine ⟨List.mem_of_find?_eq_some h, ?_⟩
  simpa using List.find?_some h

end Book

end QueryBook
