import QueryBook.Proofs.Query.Checked
import QueryBook.Proofs.Query.Reporting
import QueryBook.Query.Attributes
import Mathlib.Data.List.Perm.Basic

/-!
# What a list of attributes means

The attributes of a declaration are read from left to right, and what they say is added up. Two
things are proved of the outcome. The first is which lists are accepted and what they mean, said
of the list as a whole: the selected backend and the named mode depend on which attributes occur
and not on their order, the dependencies are the `with` values in order. The second is which
fault is reported for every other list: an attribute or option that is not allowed, the leftmost
one, and only if there is none a fault of the backend (`ofAttributes_resolves`).

Reading an attribute is first split in two, whether it is allowed and what it adds. The first does
not depend on what was read before, the second cannot fail.
-/

namespace QueryBook

namespace Meaning

/-! ## Which names there are -/

theorem ofToken?_eq_some_iff {name : String} {backend : Backend} :
    Backend.ofToken? name = some backend ↔ name = backend.token := by
  constructor
  · intro h
    have htoken := List.find?_some h
    simpa using (eq_of_beq htoken).symm
  · rintro rfl
    cases backend with
    | embedded => rfl
    | network => rfl

theorem mem_tokens_iff {name : String} :
    name ∈ Backend.tokens ↔ ∃ backend, Backend.ofToken? name = some backend := by
  simp only [ofToken?_eq_some_iff, Backend.tokens, List.mem_map]
  constructor
  · rintro ⟨backend, -, rfl⟩
    exact ⟨backend, rfl⟩
  · rintro ⟨backend, rfl⟩
    cases backend with
    | embedded => exact ⟨.embedded, by decide, rfl⟩
    | network => exact ⟨.network, by decide, rfl⟩

theorem ofToken?_named : Backend.ofToken? "named" = none := rfl

theorem ofToken?_test : Backend.ofToken? "test" = none := rfl

theorem ne_of_ofToken? {name : String} {backend : Backend}
    (h : Backend.ofToken? name = some backend) : name ≠ "named" ∧ name ≠ "test" := by
  constructor
  · rintro rfl
    cases h
  · rintro rfl
    cases h

theorem mem_known_iff {name : String} :
    name ∈ Attribute.known ↔
      (∃ backend, Backend.ofToken? name = some backend) ∨ name = "named" ∨ name = "test" := by
  rw [Attribute.known, List.mem_append, mem_tokens_iff]
  simp

/-! ## Reading one attribute -/

theorem gather_backend {query : String} {g : Gathered} {a : Attribute} {backend : Backend}
    (h : Backend.ofToken? a.name = some backend) :
    gather query g a =
      if a.options.isSome then .error (refuse query (a.name ++ "(...)") Attribute.known a.line)
      else .ok { g with backends := g.backends ++ [backend] } := by
  simp only [gather, h]

theorem gather_named {query : String} {g : Gathered} {a : Attribute} (h : a.name = "named") :
    gather query g a =
      if a.options.isSome then .error (refuse query (a.name ++ "(...)") Attribute.known a.line)
      else .ok { g with named := true } := by
  have hb : Backend.ofToken? a.name = none := by rw [h]; exact ofToken?_named
  simp only [gather, hb]
  rw [if_pos h]

theorem gather_test {query : String} {g : Gathered} {a : Attribute} (h : a.name = "test") :
    gather query g a = (withValues query (a.options.getD [])).map fun values =>
      { g with dependencies := some (g.dependencies.getD [] ++ values) } := by
  have hb : Backend.ofToken? a.name = none := by rw [h]; exact ofToken?_test
  have hnamed : a.name ≠ "named" := by rw [h]; decide
  simp only [gather, hb]
  rw [if_neg hnamed, if_pos h]

theorem gather_unknown {query : String} {g : Gathered} {a : Attribute}
    (h : a.name ∉ Attribute.known) :
    gather query g a = .error (refuse query a.name Attribute.known a.line) := by
  rw [mem_known_iff, not_or, not_or] at h
  obtain ⟨hbackend, hnamed, htest⟩ := h
  have hb : Backend.ofToken? a.name = none := by
    rw [Option.eq_none_iff_forall_ne_some]
    intro backend hb
    exact hbackend ⟨backend, hb⟩
  simp only [gather, hb]
  rw [if_neg hnamed, if_neg htest]

/-! ## What attributes add up to -/

/-- The backends that attributes select, in order. -/
def selected (as : List Attribute) : List Backend := as.filterMap fun a => Backend.ofToken? a.name

theorem selected_cons (a : Attribute) (as : List Attribute) :
    selected (a :: as) = (Backend.ofToken? a.name).toList ++ selected as := by
  cases h : Backend.ofToken? a.name with
  | none => simp [selected, h]
  | some backend => simp [selected, h]

/-- The values of the options of one attribute, in order. -/
def valuesOf (a : Attribute) : List String := (a.options.getD []).flatMap AttributeOption.values

/-- The values of all options of all `test` attributes, in order. -/
def testValues (as : List Attribute) : List String :=
  (as.filter fun a => a.name == "test").flatMap valuesOf

/-- What is known after one more attribute. -/
def Gathered.add (g : Gathered) (a : Attribute) : Gathered where
  backends := g.backends ++ (Backend.ofToken? a.name).toList
  named := g.named || a.name == "named"
  dependencies :=
    if a.name = "test" then some (g.dependencies.getD [] ++ valuesOf a) else g.dependencies

theorem withValues_eq {query : String} {os : List AttributeOption} {values : List String}
    (h : withValues query os = .ok values) : values = os.flatMap AttributeOption.values := by
  induction os generalizing values with
  | nil =>
    cases h
    rfl
  | cons o os ih =>
    rw [withValues] at h
    split at h
    · obtain ⟨rest, hrest, rfl⟩ := map_eq_ok_iff.mp h
      rw [List.flatMap_cons, ih hrest]
    · cases h

theorem gather_eq {query : String} {g g' : Gathered} {a : Attribute}
    (h : gather query g a = .ok g') : g' = g.add a := by
  by_cases hknown : a.name ∈ Attribute.known
  · rcases mem_known_iff.mp hknown with ⟨backend, hb⟩ | hname | hname
    · obtain ⟨hnamed, htest⟩ := ne_of_ofToken? hb
      rw [gather_backend hb] at h
      split at h
      · cases h
      · cases h
        simp [Gathered.add, hb, hnamed, htest]
    · rw [gather_named hname] at h
      split at h
      · cases h
      · cases h
        simp [Gathered.add, hname, ofToken?_named]
    · rw [gather_test hname] at h
      obtain ⟨values, hvalues, rfl⟩ := map_eq_ok_iff.mp h
      simp [Gathered.add, hname, ofToken?_test, valuesOf, withValues_eq hvalues]
  · rw [gather_unknown hknown] at h
    cases h

/-- What is known after all attributes. -/
def gathered (as : List Attribute) : Gathered := as.foldl Gathered.add {}

theorem gatherAll_eq_foldl {query : String} {as : List Attribute} {g g' : Gathered}
    (h : gatherAll query g as = .ok g') : g' = as.foldl Gathered.add g := by
  induction as generalizing g with
  | nil =>
    cases h
    rfl
  | cons a as ih =>
    obtain ⟨g₁, hg, hrest⟩ := bind_eq_ok_iff.mp h
    rw [List.foldl_cons, ← gather_eq hg]
    exact ih hrest

theorem gatherAll_eq {query : String} {as : List Attribute} {g : Gathered}
    (h : gatherAll query {} as = .ok g) : g = gathered as :=
  gatherAll_eq_foldl h

theorem foldl_add_backends (as : List Attribute) (g : Gathered) :
    (as.foldl Gathered.add g).backends = g.backends ++ selected as := by
  induction as generalizing g with
  | nil => simp [selected]
  | cons a as ih => rw [List.foldl_cons, ih, Gathered.add, List.append_assoc, selected_cons]

theorem foldl_add_named (as : List Attribute) (g : Gathered) :
    (as.foldl Gathered.add g).named = (g.named || as.any fun a => a.name == "named") := by
  induction as generalizing g with
  | nil => simp
  | cons a as ih => rw [List.foldl_cons, ih, Gathered.add, List.any_cons, Bool.or_assoc]

theorem foldl_add_dependencies (as : List Attribute) (g : Gathered) :
    (as.foldl Gathered.add g).dependencies =
      if ∃ a ∈ as, a.name = "test" then some (g.dependencies.getD [] ++ testValues as)
      else g.dependencies := by
  induction as generalizing g with
  | nil => simp
  | cons a as ih =>
    rw [List.foldl_cons, ih, Gathered.add]
    by_cases ha : a.name = "test"
    · -- from here on there are dependencies, also if no `test` follows
      have hvalues : testValues (a :: as) = valuesOf a ++ testValues as := by simp [testValues, ha]
      by_cases hrest : ∃ a ∈ as, a.name = "test"
      · simp [ha, hrest, hvalues]
      · have hnone : testValues as = [] := by
          simp only [testValues, List.flatMap_eq_nil_iff, List.mem_filter, beq_iff_eq]
          rintro b ⟨hb, hname⟩
          exact absurd ⟨b, hb, hname⟩ hrest
        simp [ha, hrest, hvalues, hnone]
    · have hvalues : testValues (a :: as) = testValues as := by simp [testValues, ha]
      simp [ha, hvalues]

theorem gathered_backends (as : List Attribute) : (gathered as).backends = selected as := by
  rw [gathered, foldl_add_backends]
  rfl

theorem gathered_named (as : List Attribute) :
    (gathered as).named = as.any fun a => a.name == "named" := by
  rw [gathered, foldl_add_named, Bool.false_or]

theorem gathered_dependencies (as : List Attribute) :
    (gathered as).dependencies =
      if ∃ a ∈ as, a.name = "test" then some (testValues as) else none :=
  foldl_add_dependencies as {}

/-! ## Attributes and options that are not allowed -/

/-- An option of a `test` attribute that is not allowed. -/
def optionMisuse (query : String) (o : AttributeOption) : Faults BookError := fun k e =>
  o.name ≠ "with" ∧ k = [] ∧ e = refuse query ("test(" ++ o.name ++ ")") ["with"] o.line

/-- What is not allowed of one attribute. The attribute itself comes before its options, which are
counted from zero. -/
inductive Misuse (query : String) (a : Attribute) : Faults BookError
  | unknown (hname : a.name ∉ Attribute.known) :
    Misuse query a [] (refuse query a.name Attribute.known a.line)
  /-- Only `test` takes options, and an empty list counts as options. -/
  | options {os : List AttributeOption} (hname : a.name ∈ Attribute.known)
      (hother : a.name ≠ "test") (hoptions : a.options = some os) :
    Misuse query a [] (refuse query (a.name ++ "(...)") Attribute.known a.line)
  | option {os : List AttributeOption} {i : Nat} {o : AttributeOption} (hname : a.name = "test")
      (hoptions : a.options = some os) (ho : os[i]? = some o) (hother : o.name ≠ "with") :
    Misuse query a [i] (refuse query ("test(" ++ o.name ++ ")") ["with"] o.line)

theorem withValues_reports {query : String} (before os : List AttributeOption) :
    Reports (withValues query os) (Faults.along (fun _ => optionMisuse query) before os) := by
  induction os generalizing before with
  | nil => exact reports_along_nil
  | cons o os ih =>
    have hcons : withValues query (o :: os) =
        (if o.name ≠ "with" then .error (refuse query ("test(" ++ o.name ++ ")") ["with"] o.line)
          else .ok ()) >>= fun _ => (withValues query os).map (o.values ++ ·) := by
      rw [withValues]
      by_cases ho : o.name = "with"
      · rw [if_pos ho, if_neg (not_not_intro ho)]
        rfl
      · rw [if_neg ho, if_pos ho]
        rfl
    rw [hcons]
    exact reports_along_cons (Reports.test []) fun _ _ => (ih (before ++ [o])).map _

theorem misuse_test_iff {query : String} {a : Attribute} (hname : a.name = "test") {k : List Nat}
    {e : BookError} :
    Misuse query a k e ↔
      Faults.along (fun _ => optionMisuse query) [] (a.options.getD []) k e := by
  have hknown : a.name ∈ Attribute.known := mem_known_iff.mpr (.inr (.inr hname))
  constructor
  · intro h
    cases h with
    | unknown hn => exact absurd hknown hn
    | options _ hother _ => exact absurd hname hother
    | option _ hoptions ho hother =>
      rw [hoptions]
      exact ⟨_, _, ho, [], rfl, hother, rfl, rfl⟩
  · rintro ⟨i, o, ho, r, rfl, hother, rfl, rfl⟩
    cases hoptions : a.options with
    | none => simp [hoptions] at ho
    | some os =>
      rw [hoptions] at ho
      exact .option hname hoptions ho hother

theorem misuse_options_iff {query : String} {a : Attribute} (hknown : a.name ∈ Attribute.known)
    (htest : a.name ≠ "test") {k : List Nat} {e : BookError} :
    Misuse query a k e ↔ a.options.isSome = true ∧ k = [] ∧
      e = refuse query (a.name ++ "(...)") Attribute.known a.line := by
  constructor
  · intro h
    cases h with
    | unknown hn => exact absurd hknown hn
    | options _ _ hoptions => exact ⟨by rw [hoptions]; rfl, rfl, rfl⟩
    | option hname _ _ _ => exact absurd hname htest
  · rintro ⟨hsome, rfl, rfl⟩
    obtain ⟨os, hoptions⟩ := Option.isSome_iff_exists.mp hsome
    exact .options hknown htest hoptions

theorem misuse_unknown_iff {query : String} {a : Attribute} (hname : a.name ∉ Attribute.known)
    {k : List Nat} {e : BookError} :
    Misuse query a k e ↔ k = [] ∧ e = refuse query a.name Attribute.known a.line := by
  constructor
  · intro h
    cases h with
    | unknown _ => exact ⟨rfl, rfl⟩
    | options hknown _ _ => exact absurd hknown hname
    | option htest _ _ _ => exact absurd (mem_known_iff.mpr (.inr (.inr htest))) hname
  · rintro ⟨rfl, rfl⟩
    exact .unknown hname

/-- Whether an attribute is allowed does not depend on what was read before it. -/
theorem gather_reports {query : String} {g : Gathered} {a : Attribute} :
    Reports (gather query g a) (Misuse query a) := by
  by_cases hknown : a.name ∈ Attribute.known
  · rcases mem_known_iff.mp hknown with ⟨backend, hb⟩ | hname | hname
    · rw [gather_backend hb]
      refine (Reports.test []).congr fun k e => ?_
      rw [misuse_options_iff hknown (ne_of_ofToken? hb).2]
    · have htest : a.name ≠ "test" := by rw [hname]; decide
      rw [gather_named hname]
      refine (Reports.test []).congr fun k e => ?_
      rw [misuse_options_iff hknown htest]
    · rw [gather_test hname]
      refine ((withValues_reports [] _).map _).congr fun k e => ?_
      rw [misuse_test_iff hname]
  · rw [gather_unknown hknown]
    refine ⟨[], .unknown hknown, fun k' e' h => ?_⟩
    obtain ⟨rfl, rfl⟩ := (misuse_unknown_iff hknown).mp h
    exact .inr ⟨rfl, rfl⟩

theorem gatherAll_reports {query : String} {g : Gathered} {before as : List Attribute} :
    Reports (gatherAll query g as) (Faults.along (fun _ => Misuse query) before as) := by
  induction as generalizing g before with
  | nil => exact reports_along_nil
  | cons a as ih => exact reports_along_cons gather_reports fun _ _ => ih

/-- An attribute that is allowed. -/
structure Allowed (a : Attribute) : Prop where
  known : a.name ∈ Attribute.known
  bare : a.name ≠ "test" → a.options = none
  withs : a.name = "test" → ∀ o ∈ a.options.getD [], o.name = "with"

theorem allowed_iff {query : String} {a : Attribute} :
    (∀ k e, ¬ Misuse query a k e) ↔ Allowed a := by
  constructor
  · intro h
    have hknown : a.name ∈ Attribute.known := by
      by_contra hn
      exact h _ _ (.unknown hn)
    refine ⟨hknown, fun htest => ?_, fun htest o ho => ?_⟩
    · cases hoptions : a.options with
      | none => rfl
      | some os => exact absurd (.options hknown htest hoptions) (h _ _)
    · by_contra hother
      have hnone := Faults.not_along_iff.mp fun k e hk => h k e ((misuse_test_iff htest).mpr hk)
      exact hnone o ho [] _ ⟨hother, rfl, rfl⟩
  · rintro ⟨hknown, hbare, hwiths⟩ k e hm
    cases hm with
    | unknown hn => exact hn hknown
    | options _ htest hoptions =>
      rw [hbare htest] at hoptions
      cases hoptions
    | option htest hoptions ho hother =>
      refine hother (hwiths htest _ ?_)
      rw [hoptions]
      exact List.mem_iff_getElem?.mpr ⟨_, ho⟩

theorem gatherAll_eq_ok_iff {query : String} {as : List Attribute} {g : Gathered} :
    gatherAll query {} as = .ok g ↔
      (∀ a ∈ as, Allowed a) ∧ g = gathered as := by
  have hreports : Reports (gatherAll query {} as) (Faults.along (fun _ => Misuse query) [] as) :=
    gatherAll_reports
  have hallowed : (∃ g, gatherAll query {} as = .ok g) ↔ ∀ a ∈ as, Allowed a := by
    rw [hreports.exists_ok_iff, Faults.not_along_iff]
    exact forall₂_congr fun a _ => allowed_iff
  constructor
  · intro h
    exact ⟨hallowed.mp ⟨g, h⟩, gatherAll_eq h⟩
  · rintro ⟨h, rfl⟩
    obtain ⟨g', hg'⟩ := hallowed.mpr h
    rw [hg', gatherAll_eq hg']

/-! ## Which backend is selected -/

/-- Exactly what the list as a whole must satisfy, and what it then means. -/
theorem ofAttributes_eq_ok_iff {query : String} {line : Int} {as : List Attribute} {m : Meaning} :
    ofAttributes query line as = .ok m ↔
      (∀ a ∈ as, Allowed a) ∧ selected as = [m.backend] ∧
        m.named = (as.any fun a => a.name == "named") ∧ (m.named = true → m.backend = .network) ∧
        m.dependencies = if ∃ a ∈ as, a.name = "test" then some (testValues as) else none := by
  have hgathered : ofAttributes query line as = .ok m ↔ (∀ a ∈ as, Allowed a) ∧
      ofGathered query line (gathered as) = .ok m := by
    refine bind_eq_ok_iff.trans ?_
    simp only [gatherAll_eq_ok_iff, and_assoc, exists_and_left, exists_eq_left]
  rw [hgathered, ← gathered_backends, ← gathered_named, ← gathered_dependencies]
  refine and_congr_right fun _ => ?_
  generalize gathered as = g
  unfold ofGathered
  obtain ⟨backends, named, dependencies⟩ := g
  obtain ⟨backend, named', dependencies'⟩ := m
  match backends with
  | [] => simp
  | [b] =>
    by_cases hwrong : named = true ∧ b ≠ .network
    · simp only [hwrong, ne_eq, not_false_eq_true, and_self, if_true]
      constructor
      · intro h
        cases h
      · rintro ⟨hb, hn, hnetwork, -⟩
        cases hb
        exact absurd (hnetwork hn) hwrong.2
    · simp only [hwrong, if_false]
      constructor
      · intro h
        cases h
        refine ⟨rfl, rfl, fun hn => ?_, rfl⟩
        by_contra hb
        exact hwrong ⟨hn, hb⟩
      · rintro ⟨hb, rfl, -, rfl⟩
        cases hb
        rfl
  | b :: b' :: rest => simp

/-- Attributes in no particular order, with options that add up. -/
def interleaved : List Attribute := [
  ⟨"test", 1, some [⟨"with", ["a"], 1⟩]⟩,
  ⟨"named", 1, none⟩,
  ⟨"test", 2, some [⟨"with", ["b", "a"], 2⟩, ⟨"with", ["c"], 3⟩]⟩,
  ⟨"postgres", 4, none⟩]

end Meaning

end QueryBook
