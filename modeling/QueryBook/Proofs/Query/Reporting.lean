import Mathlib.Data.List.Lex

/-!
# Reporting the first of many faults

A check that stops at the first fault answers two questions at once: whether there is any fault,
and which one comes first. Both are stated against a relation `V`, where `V k e` says that the
fault `e` stands at the place `k`. A place is a list of numbers, compared like the numbers of
chapters and sections: a place comes before everything inside it, and what is inside one place
comes before what is inside the next.

`Reports x V` says that the check `x` passes if `V` holds nowhere and else fails with the fault at
the first place. Checks run one after the other report the union of their faults, provided the
places of the first come before those of the second (`Reports.bind`); a check run along a list
reports the faults of item `i` under the number `i` (`reports_along_cons`).
-/

namespace QueryBook

/-- Faults and the places where they stand. -/
abbrev Faults (ε : Type) := List Nat → ε → Prop

variable {ε α β : Type}

/-- A fault before which there is no other. -/
def Faults.First (V : Faults ε) (e : ε) : Prop := ∃ k, V k e ∧ ∀ k' e', V k' e' → k ≤ k'

/-- The faults of `V`, all of them inside the place `n`. -/
def Faults.inside (n : Nat) (V : Faults ε) : Faults ε := fun k e => ∃ r, k = n :: r ∧ V r e

/-- The faults along a list. Those of an item may depend on the items before it, and stand inside
the place that counts them. -/
def Faults.along (V : List α → α → Faults ε) (before items : List α) : Faults ε :=
  fun k e => ∃ i a, items[i]? = some a ∧ (V (before ++ items.take i) a).inside i k e

/-- The check `x` passes if there is no fault, and else fails with the first. -/
def Reports (x : Except ε α) (V : Faults ε) : Prop :=
  match x with
  | .ok _ => ∀ k e, ¬ V k e
  | .error e => ∃ k, V k e ∧ ∀ k' e', V k' e' → k < k' ∨ k = k' ∧ e = e'

namespace Reports

variable {x : Except ε α} {V W : Faults ε}

theorem exists_ok_iff (h : Reports x V) : (∃ a, x = .ok a) ↔ ∀ k e, ¬ V k e := by
  cases x with
  | ok a => exact ⟨fun _ => h, fun _ => ⟨a, rfl⟩⟩
  | error e =>
    obtain ⟨k, hk, -⟩ := h
    constructor
    · rintro ⟨a, ha⟩
      cases ha
    · intro hnone
      exact absurd hk (hnone k e)

theorem eq_error_iff (h : Reports x V) {e : ε} : x = .error e ↔ V.First e := by
  cases x with
  | ok a =>
    constructor
    · intro hx
      cases hx
    · rintro ⟨k, hk, -⟩
      exact absurd hk (h k e)
  | error e₀ =>
    obtain ⟨k₀, hk₀, hfirst⟩ := h
    constructor
    · intro hx
      cases hx
      refine ⟨k₀, hk₀, fun k' e' hk' => ?_⟩
      rcases hfirst k' e' hk' with hlt | ⟨rfl, -⟩
      · exact le_of_lt hlt
      · exact le_refl k₀
    · rintro ⟨k, hk, hle⟩
      rcases hfirst k e hk with hlt | ⟨-, rfl⟩
      · exact absurd hlt (not_lt_of_ge (hle k₀ e₀ hk₀))
      · rfl

theorem congr (h : Reports x V) (iff : ∀ k e, V k e ↔ W k e) : Reports x W := by
  have hVW : V = W := by
    funext k e
    exact propext (iff k e)
  exact hVW ▸ h

theorem map (h : Reports x V) (f : α → β) : Reports (x.map f) V := by
  cases x with
  | ok a => exact h
  | error e => exact h

theorem inside (h : Reports x V) (n : Nat) : Reports x (V.inside n) := by
  cases x with
  | ok a =>
    rintro k e ⟨r, -, hr⟩
    exact h r e hr
  | error e =>
    obtain ⟨k, hk, hfirst⟩ := h
    refine ⟨n :: k, ⟨k, rfl, hk⟩, ?_⟩
    rintro _ e' ⟨k', rfl, hk'⟩
    rcases hfirst k' e' hk' with hlt | ⟨rfl, he⟩
    · exact .inl (List.cons_lt_cons_iff.mpr (.inr ⟨rfl, hlt⟩))
    · exact .inr ⟨rfl, he⟩

/-- A second check runs only if the first passes, so its faults must come later. -/
theorem bind {f : α → Except ε β} (hx : Reports x V) (hf : ∀ a, x = .ok a → Reports (f a) W)
    (before : ∀ k e k' e', V k e → W k' e' → k < k') :
    Reports (x >>= f) fun k e => V k e ∨ W k e := by
  cases x with
  | ok a =>
    refine (hf a rfl).congr fun k e => ?_
    simp only [hx k e, false_or]
  | error e =>
    obtain ⟨k, hk, hfirst⟩ := hx
    refine ⟨k, .inl hk, fun k' e' hk' => ?_⟩
    rcases hk' with hk' | hk'
    · exact hfirst k' e' hk'
    · exact .inl (before k e k' e' hk hk')

/-- Two checks whose faults are inside one place and inside a later one. -/
theorem andThen {f : α → Except ε β} {m n : Nat} (hmn : m < n) (hx : Reports x V)
    (hf : ∀ a, x = .ok a → Reports (f a) W) :
    Reports (x >>= f) fun k e => V.inside m k e ∨ W.inside n k e := by
  refine (hx.inside m).bind (fun a ha => (hf a ha).inside n) ?_
  rintro _ _ _ _ ⟨r, rfl, -⟩ ⟨r', rfl, -⟩
  exact List.cons_lt_cons_iff.mpr (.inl hmn)

theorem test (k₀ : List Nat) {c : Prop} [Decidable c] {e₀ : ε} {a : α} :
    Reports (if c then .error e₀ else .ok a) fun k e => c ∧ k = k₀ ∧ e = e₀ := by
  by_cases hc : c
  · rw [if_pos hc]
    refine ⟨k₀, ⟨hc, rfl, rfl⟩, ?_⟩
    rintro _ _ ⟨-, rfl, rfl⟩
    exact .inr ⟨rfl, rfl⟩
  · rw [if_neg hc]
    rintro k e ⟨h, -⟩
    exact hc h

/-- A test that comes before a check. -/
theorem guard {c : Prop} [Decidable c] {e₀ : ε} {k₀ : List Nat} (hx : ¬ c → Reports x V)
    (before : ∀ k e, V k e → k₀ < k) :
    Reports (if c then .error e₀ else x) fun k e => (c ∧ k = k₀ ∧ e = e₀) ∨ V k e := by
  by_cases hc : c
  · rw [if_pos hc]
    refine ⟨k₀, .inl ⟨hc, rfl, rfl⟩, ?_⟩
    rintro k' e' (⟨-, rfl, rfl⟩ | hk')
    · exact .inr ⟨rfl, rfl⟩
    · exact .inl (before k' e' hk')
  · rw [if_neg hc]
    refine (hx hc).congr fun k e => ?_
    simp only [hc, false_and, false_or]

end Reports

/-! ## Checks along a list -/

theorem Faults.not_along_nil {V : List α → α → Faults ε} {before : List α} {k : List Nat} {e : ε} :
    ¬ along V before [] k e := by
  rintro ⟨i, a, hi, -⟩
  simp at hi

/-- The faults along a list are those of its first item and, numbered one higher, those along the
rest. -/
theorem Faults.along_cons_iff {V : List α → α → Faults ε} {before : List α} {a : α} {as : List α}
    {k : List Nat} {e : ε} :
    along V before (a :: as) k e ↔ (V before a).inside 0 k e ∨
      ∃ i r, k = (i + 1) :: r ∧ along V (before ++ [a]) as (i :: r) e := by
  constructor
  · rintro ⟨i, b, hb, r, rfl, hr⟩
    cases i with
    | zero =>
      obtain rfl : a = b := by simpa using hb
      exact .inl ⟨r, rfl, by simpa using hr⟩
    | succ i =>
      refine .inr ⟨i, r, rfl, i, b, by simpa using hb, r, rfl, ?_⟩
      simpa using hr
  · rintro (⟨r, rfl, hr⟩ | ⟨i, r, rfl, j, b, hb, r', hcons, hr⟩)
    · exact ⟨0, a, rfl, r, rfl, by simpa using hr⟩
    · obtain ⟨rfl, rfl⟩ := List.cons.inj hcons
      exact ⟨i + 1, b, by simpa using hb, r, rfl, by simpa using hr⟩

/-- There is no fault along a list if no item has one. -/
theorem Faults.not_along_iff {V : α → Faults ε} {before items : List α} :
    (∀ k e, ¬ along (fun _ => V) before items k e) ↔ ∀ a ∈ items, ∀ k e, ¬ V a k e := by
  constructor
  · intro h a ha k e hk
    obtain ⟨i, hi⟩ := List.mem_iff_getElem?.mp ha
    exact h (i :: k) e ⟨i, a, hi, k, rfl, hk⟩
  · rintro h _ e ⟨i, a, hi, k, rfl, hk⟩
    exact h a (List.mem_iff_getElem?.mpr ⟨i, hi⟩) k e hk

theorem reports_along_nil {V : List α → α → Faults ε} {before : List α} {b : β} :
    Reports (.ok b) (Faults.along V before []) :=
  fun _ _ => Faults.not_along_nil

/-- One step of a check along a list: the first item, and then the rest. -/
theorem reports_along_cons {γ : Type} {V : List α → α → Faults ε} {before : List α} {a : α}
    {as : List α} {x : Except ε β} {f : β → Except ε γ} (hx : Reports x (V before a))
    (hf : ∀ b, x = .ok b → Reports (f b) (Faults.along V (before ++ [a]) as)) :
    Reports (x >>= f) (Faults.along V before (a :: as)) := by
  cases x with
  | ok b =>
    -- only the rest has faults, and adding one to their first number keeps their order
    have hrest := hf b rfl
    have hiff : ∀ k e, Faults.along V before (a :: as) k e ↔
        ∃ i r, k = (i + 1) :: r ∧ Faults.along V (before ++ [a]) as (i :: r) e := by
      intro k e
      rw [Faults.along_cons_iff]
      constructor
      · rintro (⟨r, -, hr⟩ | h)
        · exact absurd hr (hx r e)
        · exact h
      · exact .inr
    change Reports (f b) _
    cases hfb : f b with
    | ok c =>
      rw [hfb] at hrest
      intro k e hk
      obtain ⟨i, r, -, hr⟩ := (hiff k e).mp hk
      exact hrest (i :: r) e hr
    | error e =>
      rw [hfb] at hrest
      obtain ⟨_, ⟨i, c, hi, r, rfl, hr⟩, hfirst⟩ := hrest
      refine ⟨(i + 1) :: r, (hiff _ _).mpr ⟨i, r, rfl, i, c, hi, r, rfl, hr⟩, fun k' e' hk' => ?_⟩
      obtain ⟨i', r', rfl, hr'⟩ := (hiff k' e').mp hk'
      rcases hfirst (i' :: r') e' hr' with hlt | ⟨heq, he⟩
      · left
        rcases List.cons_lt_cons_iff.mp hlt with hi | ⟨rfl, hr⟩
        · exact List.cons_lt_cons_iff.mpr (.inl (by omega))
        · exact List.cons_lt_cons_iff.mpr (.inr ⟨rfl, hr⟩)
      · obtain ⟨rfl, rfl⟩ := List.cons.inj heq
        exact .inr ⟨rfl, he⟩
  | error e =>
    obtain ⟨r, hr, hfirst⟩ := hx
    refine ⟨0 :: r, Faults.along_cons_iff.mpr (.inl ⟨r, rfl, hr⟩), fun k' e' hk' => ?_⟩
    rcases Faults.along_cons_iff.mp hk' with ⟨r', rfl, hr'⟩ | ⟨i, r', rfl, -⟩
    · rcases hfirst r' e' hr' with hlt | ⟨rfl, he⟩
      · exact .inl (List.cons_lt_cons_iff.mpr (.inr ⟨rfl, hlt⟩))
      · exact .inr ⟨rfl, he⟩
    · exact .inl (List.cons_lt_cons_iff.mpr (.inl (Nat.succ_pos i)))

end QueryBook
