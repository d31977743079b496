import QueryBook.Proofs.Code.Content
import Mathlib.Data.List.Nodup

/-!
# Which definitions share a name

The name of a definition is the lead of its role followed by the query name, and nothing marks
where the lead ends. The leads of some roles begin with the lead of another, so the rest of the
longer lead may as well be the beginning of a query name: `prepare_` and `cached_x` give the name
that `prepare_cached_` and `x` give. The nine pairs of roles for which this happens are listed in
`Role.extensions`. For all other pairs the name gives back role and query.

The check of a book compares query names with each other only. So a checked book may have two
queries that define the same name, and `names_nodup_iff` says which books do.
-/

namespace QueryBook

/-! ## Names that two roles share -/

namespace Role

def all : List Role :=
  [sql, outputs, prepare, prepareCached, execute, executePrepared, queryRow, queue, queuePrepared,
    queueOne, queueOnePrepared, queueOpt, queueOptPrepared, fromRow, statement, cachedStatement,
    statementOps, test, testSetup]

theorem mem_all (r : Role) : r ∈ all := by cases r <;> decide

/-- A role, what its lead is followed by in the lead of another role, and the other role. -/
def extensions : List (Role × String × Role) :=
  [(prepare, "cached_", prepareCached),
   (execute, "prepared_", executePrepared),
   (queue, "prepared_", queuePrepared),
   (queue, "one_", queueOne),
   (queue, "one_prepared_", queueOnePrepared),
   (queue, "opt_", queueOpt),
   (queue, "opt_prepared_", queueOptPrepared),
   (queueOne, "prepared_", queueOnePrepared),
   (queueOpt, "prepared_", queueOptPrepared)]

/-- The roles outside of the scaffolding. -/
def IsAccess (r : Role) : Prop := r ≠ .test ∧ r ≠ .testSetup

instance (r : Role) : Decidable r.IsAccess := inferInstanceAs (Decidable (_ ∧ _))

theorem access_of_extension {r r' : Role} {s : String} (h : (r, s, r') ∈ extensions) :
    r.IsAccess ∧ r'.IsAccess := by
  have hall : ∀ e ∈ extensions, e.1.IsAccess ∧ e.2.2.IsAccess := by decide
  exact hall _ h

theorem lead_of_extension {r r' : Role} {s : String} (h : (r, s, r') ∈ extensions) :
    r'.lead = r.lead ++ s ∧ r ≠ r' := by
  have hall : ∀ e ∈ extensions, e.2.2.lead = e.1.lead ++ e.2.1 ∧ e.1 ≠ e.2.2 := by decide
  exact hall _ h

/-- A lead that begins with a lead is that lead or one of its extensions. -/
theorem extension_of_lead {r r' : Role} {s : String} (h : r'.lead = r.lead ++ s) :
    (r = r' ∧ s = "") ∨ (r, s, r') ∈ extensions := by
  have hall : ∀ r ∈ all, ∀ r' ∈ all, r.lead.toList <+: r'.lead.toList →
      r = r' ∨ (r, String.ofList (r'.lead.toList.drop r.lead.toList.length), r') ∈ extensions := by
    decide +kernel
  have hchars : r'.lead.toList = r.lead.toList ++ s.toList := by rw [h, String.toList_append]
  have hrest : String.ofList (r'.lead.toList.drop r.lead.toList.length) = s := by
    rw [hchars, List.drop_left, String.ofList_toList]
  rcases hall r (mem_all r) r' (mem_all r') ⟨_, hchars.symm⟩ with rfl | hmem
  · refine .inl ⟨rfl, ?_⟩
    rw [← hrest, List.drop_length]
  · rw [hrest] at hmem
    exact .inr hmem

/-- **Role and query are read off a name, except where one lead extends another.** -/
theorem ident_eq_ident_iff {r r' : Role} {p q : String} :
    r.ident p = r'.ident q ↔
      (r = r' ∧ p = q) ∨ (∃ s, (r, s, r') ∈ extensions ∧ p = s ++ q) ∨
        ∃ s, (r', s, r) ∈ extensions ∧ q = s ++ p := by
  have key : ∀ {r r' : Role} {p q : String} {s : List Char},
      r'.lead.toList = r.lead.toList ++ s → p.toList = s ++ q.toList →
      (r = r' ∧ p = q) ∨ ∃ s, (r, s, r') ∈ extensions ∧ p = s ++ q := by
    intro r r' p q s hlead hrest
    have hlead' : r'.lead = r.lead ++ String.ofList s := by
      rw [← String.toList_inj, hlead, String.toList_append, String.toList_ofList]
    have hrest' : p = String.ofList s ++ q := by
      rw [← String.toList_inj, hrest, String.toList_append, String.toList_ofList]
    rcases extension_of_lead hlead' with ⟨rfl, hs⟩ | hmem
    · rw [hs, String.empty_append] at hrest'
      exact .inl ⟨rfl, hrest'⟩
    · exact .inr ⟨_, hmem, hrest'⟩
  constructor
  · intro h
    have hchars : r.lead.toList ++ p.toList = r'.lead.toList ++ q.toList := by
      rw [← String.toList_append, ← String.toList_append]
      exact congrArg String.toList h
    -- one of the two leads is the shorter one
    rcases List.append_eq_append_iff.mp hchars with ⟨s, hlead, hrest⟩ | ⟨s, hlead, hrest⟩
    · rcases key hlead hrest with hsame | hext
      · exact .inl hsame
      · exact .inr (.inl hext)
    · rcases key hlead hrest with ⟨rfl, rfl⟩ | hext
      · exact .inl ⟨rfl, rfl⟩
      · exact .inr (.inr hext)
  · rintro (⟨rfl, rfl⟩ | ⟨s, hs, rfl⟩ | ⟨s, hs, rfl⟩)
    · rfl
    · rw [ident, ident, (lead_of_extension hs).1, String.append_assoc]
    · rw [ident, ident, (lead_of_extension hs).1, String.append_assoc]

end Role

/-! ## Queries whose definitions meet -/

/-- The roles in which a network query with outputs is read. -/
def Role.reading : List Role :=
  [queue, queueOne, queueOpt, queuePrepared, queueOnePrepared, queueOptPrepared]

namespace Query

/-- A definition for `p` has the name of a definition for `q`. -/
def Collides (p q : Query) : Prop :=
  p.name = "cached_" ++ q.name ∨
  (q.backend = .network ∧ p.name = "prepared_" ++ q.name) ∨
  ((p.backend = .network ∧ p.hasOutputs = true) ∧ (q.backend = .network ∧ q.hasOutputs = true) ∧
    ∃ s ∈ ["one_", "one_prepared_", "opt_", "opt_prepared_"], p.name = s ++ q.name)

instance (p q : Query) : Decidable (p.Collides q) := inferInstanceAs (Decidable (_ ∨ _ ∨ _))

theorem roles_nodup (q : Query) : q.roles.Nodup := by
  unfold roles
  cases q.backend <;> cases q.hasOutputs <;> decide

theorem access_of_mem_roles {q : Query} : ∀ r ∈ q.roles, r.IsAccess := by
  unfold roles
  cases q.backend <;> cases q.hasOutputs <;> decide

theorem mem_roles_of_any {q : Query} : ∀ r ∈ [Role.prepare, .prepareCached, .execute],
    r ∈ q.roles := by
  unfold roles
  cases q.backend <;> cases q.hasOutputs <;> decide

theorem executePrepared_mem_roles {q : Query} :
    Role.executePrepared ∈ q.roles ↔ q.backend = .network := by
  unfold roles
  cases q.backend <;> cases q.hasOutputs <;> decide

theorem reading_mem_roles {q : Query} : ∀ r ∈ Role.reading,
    r ∈ q.roles ↔ q.backend = .network ∧ q.hasOutputs = true := by
  unfold roles
  cases q.backend <;> cases q.hasOutputs <;> decide

/-- Definitions meet where the role of the one extends the role of the other. -/
theorem collides_iff {p q : Query} :
    p.Collides q ↔
      ∃ r s r', (r, s, r') ∈ Role.extensions ∧ r ∈ p.roles ∧ r' ∈ q.roles ∧
        p.name = s ++ q.name := by
  constructor
  · rintro (h | ⟨hq, h⟩ | ⟨hp, hq, s, hs, h⟩)
    · exact ⟨.prepare, "cached_", .prepareCached, by decide, mem_roles_of_any _ (by decide),
        mem_roles_of_any _ (by decide), h⟩
    · exact ⟨.execute, "prepared_", .executePrepared, by decide, mem_roles_of_any _ (by decide),
        executePrepared_mem_roles.mpr hq, h⟩
    · have hextends : ∀ s ∈ ["one_", "one_prepared_", "opt_", "opt_prepared_"],
          ∃ r' ∈ Role.reading, (Role.queue, s, r') ∈ Role.extensions := by decide
      obtain ⟨r', hr', hext⟩ := hextends s hs
      exact ⟨.queue, s, r', hext, (reading_mem_roles _ (by decide)).mpr hp,
        (reading_mem_roles r' hr').mpr hq, h⟩
  · rintro ⟨r, s, r', hext, hr, hr', h⟩
    -- a prepared form is always of a network query, whether it reads rows or not
    have hkinds : ∀ e ∈ Role.extensions, e.2.1 = "cached_" ∨
        (e.2.1 = "prepared_" ∧ (e.2.2 = .executePrepared ∨ e.2.2 ∈ Role.reading)) ∨
        (e.1 ∈ Role.reading ∧ e.2.2 ∈ Role.reading ∧
          e.2.1 ∈ ["one_", "one_prepared_", "opt_", "opt_prepared_"]) := by decide
    rcases hkinds _ hext with hs | ⟨hs, hprepared | hread⟩ | ⟨hp, hq, hs⟩
    · exact .inl (hs ▸ h)
    · obtain rfl : r' = .executePrepared := hprepared
      exact .inr (.inl ⟨executePrepared_mem_roles.mp hr', hs ▸ h⟩)
    · exact .inr (.inl ⟨((reading_mem_roles r' hread).mp hr').1, hs ▸ h⟩)
    · exact .inr (.inr ⟨(reading_mem_roles r hp).mp hr, (reading_mem_roles r' hq).mp hr', s, hs, h⟩)

end Query

/-! ## Books -/

namespace Book

variable {config : Config} {b : Book}

theorem role_of_mem_scaffolded {d : Role × String} (h : d ∈ b.scaffolded config) :
    d.1 = .test ∨ d.1 = .testSetup := by
  unfold scaffolded at h
  split at h
  · rcases List.mem_append.mp h with h | h
    · obtain ⟨q, -, rfl⟩ := List.mem_map.mp h
      exact .inr rfl
    · obtain ⟨q, -, rfl⟩ := List.mem_map.mp h
      exact .inl rfl
  · cases h

theorem mem_defined_iff {r : Role} {name : String} (hr : r.IsAccess) :
    (r, name) ∈ b.defined config ↔ ∃ q ∈ b.queries, r ∈ q.roles ∧ q.name = name := by
  have hscaffolded : (r, name) ∉ b.scaffolded config := fun h =>
    (role_of_mem_scaffolded h).elim hr.1 hr.2
  rw [defined, List.mem_append, or_iff_left hscaffolded, List.mem_flatMap]
  simp only [List.mem_map, Prod.mk.injEq]
  constructor
  · rintro ⟨q, hq, _, hrole, rfl, rfl⟩
    exact ⟨q, hq, hrole, rfl⟩
  · rintro ⟨q, hq, hrole, rfl⟩
    exact ⟨q, hq, r, hrole, rfl, rfl⟩

theorem scaffolded_nodup (h : b.names.Nodup) : (b.scaffolded config).Nodup := by
  have hrole : ∀ (r : Role) (keep : Query → Bool),
      ((b.queries.filter keep).map fun q => (r, q.name)).Nodup := by
    intro r keep
    have hnames : ((b.queries.filter keep).map Query.name).Nodup :=
      (List.filter_sublist.map _).nodup h
    have hpairs := hnames.map (f := fun name => (r, name)) fun _ _ heq => congrArg Prod.snd heq
    rwa [List.map_map] at hpairs
  unfold scaffolded
  split
  · refine List.nodup_append.mpr ⟨hrole _ _, hrole _ _, ?_⟩
    intro d hd d' hd'
    obtain ⟨_, -, rfl⟩ := List.mem_map.mp hd
    obtain ⟨_, -, rfl⟩ := List.mem_map.mp hd'
    intro heq
    cases congrArg Prod.fst heq
  · exact List.nodup_nil

/-- A query has at most one definition in each role. -/
theorem defined_nodup (h : b.names.Nodup) : (b.defined config).Nodup := by
  have hqueries : b.queries.Pairwise fun p q => p.name ≠ q.name := List.pairwise_map.mp h
  have haccess : (b.queries.flatMap fun q => q.roles.map fun r => (r, q.name)).Nodup := by
    rw [List.nodup_flatMap]
    refine ⟨fun q _ => q.roles_nodup.map fun _ _ heq => congrArg Prod.fst heq,
      hqueries.imp fun hne d hp hq => ?_⟩
    obtain ⟨_, _, rfl⟩ := List.mem_map.mp hp
    obtain ⟨_, _, heq⟩ := List.mem_map.mp hq
    exact hne (congrArg Prod.snd heq).symm
  refine List.nodup_append.mpr ⟨haccess, scaffolded_nodup h, ?_⟩
  rintro d hd _ hd' rfl
  obtain ⟨q, _, hd⟩ := List.mem_flatMap.mp hd
  obtain ⟨r, hr, rfl⟩ := List.mem_map.mp hd
  obtain ⟨htest, hsetup⟩ := Query.access_of_mem_roles r hr
  exact (role_of_mem_scaffolded hd').elim htest hsetup

/-- **Names are defined once in a book without colliding queries, and only there.** -/
theorem defined_idents_nodup_iff (h : b.names.Nodup) :
    ((b.defined config).map fun d => d.1.ident d.2).Nodup ↔
      ∀ p ∈ b.queries, ∀ q ∈ b.queries, ¬ p.Collides q := by
  have hcollide : ∀ {r r' : Role} {s x y : String}, (r, s, r') ∈ Role.extensions →
      x = s ++ y → (r, x) ∈ b.defined config → (r', y) ∈ b.defined config →
      ∃ p ∈ b.queries, ∃ q ∈ b.queries, p.Collides q := by
    intro r r' s x y hext hname hx hy
    obtain ⟨p, hp, hr, rfl⟩ := (mem_defined_iff (Role.access_of_extension hext).1).mp hx
    obtain ⟨q, hq, hr', rfl⟩ := (mem_defined_iff (Role.access_of_extension hext).2).mp hy
    exact ⟨p, hp, q, hq, Query.collides_iff.mpr ⟨r, s, r', hext, hr, hr', hname⟩⟩
  constructor
  · intro hnodup p hp q hq hpq
    obtain ⟨r, s, r', hext, hr, hr', hname⟩ := Query.collides_iff.mp hpq
    have hident : r.ident p.name = r'.ident q.name :=
      Role.ident_eq_ident_iff.mpr (.inr (.inl ⟨s, hext, hname⟩))
    have hsame : (r, p.name) = (r', q.name) := List.inj_on_of_nodup_map hnodup
      ((mem_defined_iff (Role.access_of_extension hext).1).mpr ⟨p, hp, hr, rfl⟩)
      ((mem_defined_iff (Role.access_of_extension hext).2).mpr ⟨q, hq, hr', rfl⟩) hident
    exact (Role.lead_of_extension hext).2 (congrArg Prod.fst hsame)
  · intro hnone
    refine (defined_nodup h).map_on ?_
    rintro ⟨r, x⟩ hx ⟨r', y⟩ hy hident
    rcases Role.ident_eq_ident_iff.mp hident with ⟨rfl, rfl⟩ | ⟨s, hext, hname⟩ | ⟨s, hext, hname⟩
    · rfl
    · obtain ⟨p, hp, q, hq, hpq⟩ := hcollide hext hname hx hy
      exact absurd hpq (hnone p hp q hq)
    · obtain ⟨p, hp, q, hq, hpq⟩ := hcollide hext hname hy hx
      exact absurd hpq (hnone p hp q hq)

end Book

/-! ## Modules -/

namespace Module

/-- **The module of a checked book defines each of its names once if no two queries collide, and
only then.** -/
theorem names_nodup_iff {config : Config} {b : Book} {m : Module} (hb : b.check = .ok ())
    (hm : (build config .standard b).outcome = .ok m) :
    ∃ c : Content, c.Of config b ∧ m.source = c.source config b ∧
      (c.names.Nodup ↔ ∀ p ∈ b.queries, ∀ q ∈ b.queries, ¬ p.Collides q) := by
  obtain ⟨c, hc, hsource, -⟩ := build_content hb hm
  refine ⟨c, hc, hsource, ?_⟩
  rw [hc.names_eq]
  exact Book.defined_idents_nodup_iff (Book.check_eq_ok_iff.mp hb).1

/-- Two tested queries with a column. The second name would collide for a database server. -/
def embeddedPair : Book :=
  { queries := ["x", "prepared_x"].map fun name =>
      { name, backend := .embedded, named := false, parameters := [], outputs := [⟨"int", []⟩]
        statement := "SELECT 1", dependencies := some [], line := 1 }
    sourceName := "book" }

theorem names_nodup_iff_embeddedPair :
    embeddedPair.check = .ok () ∧ ∃ m, (build {} .standard embeddedPair).outcome = .ok m ∧
      ∃ c : Content, c.Of {} embeddedPair ∧ m.source = c.source {} embeddedPair ∧
        c.names.Nodup := by
  have hb : embeddedPair.check = .ok () := rfl
  obtain ⟨m, hm⟩ := exists_build_of_check hb {} rfl
  obtain ⟨c, hc, hsource, hnodup⟩ := names_nodup_iff hb hm
  exact ⟨hb, m, hm, c, hc, hsource, hnodup.mpr (by decide)⟩

/-- Two queries, of which the second is named as if it were the cached form of the first. -/
def cachedText : String :=
  "#[sqlite] x()\x7b\"a\"\x7d #[sqlite] cached_x()\x7b\"b\"\x7d"

theorem prepare_cached_defined_twice :
    ∃ b, Book.read cachedText "<string>" = .ok b ∧
      ∃ m, (build {} .standard b).outcome = .ok m ∧
        ∃ c : Content, c.Of {} b ∧ m.source = c.source {} b ∧
          c.names.count "prepare_cached_x" = 2 := by
  obtain ⟨b, hread, hcount⟩ : ∃ b, Book.read cachedText "<string>" = .ok b ∧
      ((b.defined {}).map fun d => d.1.ident d.2).count "prepare_cached_x" = 2 :=
    exists_ok_of_any (by decide +kernel)
  obtain ⟨_, _, _, hb, _⟩ := Book.read_eq_ok_iff.mp hread
  obtain ⟨m, hm⟩ := exists_build_of_check hb {} rfl
  obtain ⟨c, hc, hsource, -⟩ := build_content hb hm
  refine ⟨b, hread, m, hm, c, hc, hsource, ?_⟩
  rw [hc.names_eq]
  exact hcount

end Module

end QueryBook
