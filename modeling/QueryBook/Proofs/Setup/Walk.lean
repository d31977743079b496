import Mathlib.Data.List.Basic
import Mathlib.Logic.Relation

/-!
# Walking dependencies

The order in which setup gets to the queries of a book, apart from what it does to them. A name
that was visited is passed over; any other is marked, then its dependencies are walked, and only
then is it its turn. `Walk` says which names have their turn, in which order, and what is marked
in the end.

Marks are never taken back, and in the end all dependencies of whoever had a turn are marked: a
name that was passed over because it was marked already is one whose own walk is still under way
or done, so the gap is closed by the time the whole walk ends. That is why the names that had
their turn are those that can be reached past the marks of the beginning, however the walks of
siblings got into each other's way.

A walk exists from every beginning, since each name that is entered leaves one name less to enter.
-/

namespace QueryBook

namespace Setup

/-- `Walk deps V ns o V'`: with `V` marked, the names `ns` are walked, `o` are the names that have
their turn, in order, and `V'` is marked in the end. -/
inductive Walk (deps : String → List String) :
    List String → List String → List String → List String → Prop where
  | nil (V : List String) : Walk deps V [] [] V
  | skip {n : String} {V ns o V' : List String} : n ∈ V → Walk deps V ns o V' →
      Walk deps V (n :: ns) o V'
  | enter {n : String} {V ns o₁ V₁ o₂ V₂ : List String} : n ∉ V →
      Walk deps (V ++ [n]) (deps n) o₁ V₁ → Walk deps V₁ ns o₂ V₂ →
      Walk deps V (n :: ns) (o₁ ++ n :: o₂) V₂

/-- `b` is reached from `a` along dependencies, without a name of `V` on the way. -/
def Reaches (deps : String → List String) (V : List String) (a b : String) : Prop :=
  a ∉ V ∧ Relation.ReflTransGen (fun x y => y ∈ deps x ∧ y ∉ V) a b

variable {deps : String → List String} {V V' ns o : List String}

/-! ## What is marked in the end -/

theorem Walk.mem_marked (h : Walk deps V ns o V') (x : String) : x ∈ V' ↔ x ∈ V ∨ x ∈ o := by
  induction h with
  | nil V => simp
  | skip hn _ ih => exact ih
  | enter hn _ _ ih₁ ih₂ =>
    rw [ih₂, ih₁]
    simp only [List.mem_append, List.mem_cons, List.not_mem_nil, or_false]
    grind

theorem Walk.marked_of_mem (h : Walk deps V ns o V') {x : String} (hx : x ∈ V) : x ∈ V' :=
  (h.mem_marked x).mpr (.inl hx)

/-- No name has its turn that was marked before. -/
theorem Walk.not_mem_of_order (h : Walk deps V ns o V') : ∀ x ∈ o, x ∉ V := by
  induction h with
  | nil V => intro x hx; simp at hx
  | skip hn _ ih => exact ih
  | @enter n V ns o₁ V₁ o₂ V₂ hn h₁ _ ih₁ ih₂ =>
    intro x hx hV
    rcases List.mem_append.mp hx with hx | hx
    · exact ih₁ x hx (List.mem_append_left _ hV)
    rcases List.mem_cons.mp hx with rfl | hx
    · exact hn hV
    · exact ih₂ x hx (h₁.marked_of_mem (List.mem_append_left _ hV))

/-- No name has its turn twice. -/
theorem Walk.nodup (h : Walk deps V ns o V') : o.Nodup := by
  induction h with
  | nil V => exact List.nodup_nil
  | skip hn _ ih => exact ih
  | @enter n V ns o₁ V₁ o₂ V₂ hn h₁ h₂ ih₁ ih₂ =>
    have hmarked : n ∈ V₁ := h₁.marked_of_mem (by simp)
    have hn₂ : n ∉ o₂ := fun hx => h₂.not_mem_of_order n hx hmarked
    refine List.nodup_append.mpr ⟨ih₁, List.nodup_cons.mpr ⟨hn₂, ih₂⟩, ?_⟩
    rintro x hx y hy rfl
    rcases List.mem_cons.mp hy with rfl | hy
    · exact h₁.not_mem_of_order x hx (by simp)
    · exact h₂.not_mem_of_order x hy ((h₁.mem_marked x).mpr (.inr hx))

/-- In the end the names that were walked are marked, and so are all dependencies of the names
that had their turn. -/
theorem Walk.closed (h : Walk deps V ns o V') :
    (∀ n ∈ ns, n ∈ V') ∧ ∀ x ∈ o, ∀ d ∈ deps x, d ∈ V' := by
  induction h with
  | nil V => simp
  | @skip n V ns o V' hn h ih =>
    refine ⟨?_, ih.2⟩
    intro m hm
    rcases List.mem_cons.mp hm with rfl | hm
    · exact h.marked_of_mem hn
    · exact ih.1 m hm
  | @enter n V ns o₁ V₁ o₂ V₂ hn h₁ h₂ ih₁ ih₂ =>
    refine ⟨?_, ?_⟩
    · intro m hm
      rcases List.mem_cons.mp hm with rfl | hm
      · exact h₂.marked_of_mem (h₁.marked_of_mem (by simp))
      · exact ih₂.1 m hm
    · intro x hx d hd
      rcases List.mem_append.mp hx with hx | hx
      · exact h₂.marked_of_mem (ih₁.2 x hx d hd)
      rcases List.mem_cons.mp hx with rfl | hx
      · exact h₂.marked_of_mem (ih₁.1 d hd)
      · exact ih₂.2 x hx d hd

/-! ## Who has a turn -/

theorem Reaches.mono {W : List String} (hVW : ∀ x ∈ V, x ∈ W) {a b : String}
    (h : Reaches deps W a b) : Reaches deps V a b := by
  refine ⟨fun ha => h.1 (hVW a ha), ?_⟩
  exact Relation.ReflTransGen.mono (fun x y hxy => ⟨hxy.1, fun hy => hxy.2 (hVW y hy)⟩) a b h.2

/-- Only names that are reached have a turn. -/
theorem Walk.reaches_of_mem (h : Walk deps V ns o V') : ∀ x ∈ o, ∃ n ∈ ns, Reaches deps V n x := by
  induction h with
  | nil V => intro x hx; simp at hx
  | skip hn _ ih =>
    intro x hx
    obtain ⟨m, hm, hr⟩ := ih x hx
    exact ⟨m, List.mem_cons_of_mem _ hm, hr⟩
  | @enter n V ns o₁ V₁ o₂ V₂ hn h₁ _ ih₁ ih₂ =>
    intro x hx
    rcases List.mem_append.mp hx with hx | hx
    · obtain ⟨d, hd, hr⟩ := ih₁ x hx
      have hr : Reaches deps V d x := hr.mono fun y hy => List.mem_append_left _ hy
      exact ⟨n, by simp, hn, .head ⟨hd, hr.1⟩ hr.2⟩
    rcases List.mem_cons.mp hx with rfl | hx
    · exact ⟨x, by simp, hn, .refl⟩
    · obtain ⟨m, hm, hr⟩ := ih₂ x hx
      refine ⟨m, List.mem_cons_of_mem _ hm, hr.mono fun y hy => ?_⟩
      exact h₁.marked_of_mem (List.mem_append_left _ hy)

/-- Every name that is reached has its turn: along the way each name is marked in the end, and it
was not marked in the beginning. -/
theorem Walk.mem_of_reaches (h : Walk deps V ns o V') {n x : String} (hn : n ∈ ns)
    (hr : Reaches deps V n x) : x ∈ o := by
  have turn : ∀ y, y ∉ V → y ∈ V' → y ∈ o := fun y hy hy' =>
    ((h.mem_marked y).mp hy').resolve_left hy
  obtain ⟨hV, hpath⟩ := hr
  induction hpath with
  | refl => exact turn n hV (h.closed.1 n hn)
  | tail _ hstep ih => exact turn _ hstep.2 (h.closed.2 _ ih _ hstep.1)

/-- **The names that have their turn are those that are reached past the marks.** -/
theorem Walk.mem_order_iff (h : Walk deps V ns o V') (x : String) :
    x ∈ o ↔ ∃ n ∈ ns, Reaches deps V n x :=
  ⟨h.reaches_of_mem x, fun ⟨_, hn, hr⟩ => h.mem_of_reaches hn hr⟩

/-! ## Walks end -/

/-- How many names of `U` are not marked. -/
def unmarked (U V : List String) : Nat := (U.filter fun x => decide (x ∉ V)).length

theorem unmarked_le_length (U V : List String) : unmarked U V ≤ U.length :=
  List.length_filter_le _ _

theorem unmarked_mono {U V W : List String} (h : ∀ x ∈ V, x ∈ W) : unmarked U W ≤ unmarked U V := by
  refine List.Sublist.length_le (List.monotone_filter_right U ?_)
  intro x hx
  simp only [decide_eq_true_eq] at hx ⊢
  exact fun hV => hx (h x hV)

/-- To mark a name of `U` leaves one name less. -/
theorem unmarked_append_lt {U V : List String} {n : String} (hU : n ∈ U) (hV : n ∉ V) :
    unmarked U (V ++ [n]) < unmarked U V := by
  have hsub : (U.filter fun x => decide (x ∉ V ++ [n])) =
      (U.filter fun x => decide (x ∉ V)).filter fun x => decide (x ≠ n) := by
    rw [List.filter_filter]
    refine List.filter_congr fun x _ => ?_
    simp [and_comm]
  unfold unmarked
  rw [hsub]
  refine List.length_filter_lt_length_iff_exists.mpr ⟨n, ?_, by simp⟩
  simpa [hV] using hU

/-- **From every beginning there is a walk**, if the names and their dependencies all lie in a
finite universe. -/
theorem exists_walk {U : List String} (hU : ∀ x ∈ U, ∀ d ∈ deps x, d ∈ U) (V : List String) :
    ∀ ns : List String, (∀ n ∈ ns, n ∈ U) → ∃ o V', Walk deps V ns o V' := by
  -- names are entered one less each time; for the names beside, nothing is taken back
  induction hk : unmarked U V using Nat.strongRecOn generalizing V with
  | ind k ih =>
    intro ns
    induction ns generalizing V with
    | nil => exact fun _ => ⟨[], V, .nil V⟩
    | cons n ns ihns =>
      intro hns
      have hrest : ∀ m ∈ ns, m ∈ U := fun m hm => hns m (List.mem_cons_of_mem _ hm)
      by_cases hn : n ∈ V
      · obtain ⟨o, V', h⟩ := ihns V hk hrest
        exact ⟨o, V', .skip hn h⟩
      · have hnU : n ∈ U := hns n (by simp)
        have hlt := unmarked_append_lt hnU hn
        obtain ⟨o₁, V₁, h₁⟩ := ih _ (hk ▸ hlt) (V ++ [n]) rfl (deps n) (hU n hnU)
        have hle : unmarked U V₁ < k := by
          refine hk ▸ Nat.lt_of_le_of_lt (unmarked_mono ?_) hlt
          exact fun x hx => h₁.marked_of_mem hx
        obtain ⟨o₂, V₂, h₂⟩ := ih _ hle V₁ rfl ns hrest
        exact ⟨_, V₂, .enter hn h₁ h₂⟩

end Setup

end QueryBook
