import QueryBook.Proofs.Session.Sending
import QueryBook.Session.Caches
import Mathlib.Data.List.Dedup
import Mathlib.Data.List.Induction
import Mathlib.Data.List.Nodup

/-!
# Caches remember what was prepared

What a cache holds is decided by its history: the calls of the client that were made for it and
succeeded, in order, with what the client returned. `preparations` reads these calls off the reports
on the steps. The caches agree with them after every step: a hit makes no call, a call that fails
leaves nothing behind, and a call that succeeds adds one entry to one cache, for a key that this
cache did not have. Everything else follows from this agreement: no key is prepared twice for a
cache, every later look-up returns the handle of that one call, and the size of a cache counts the
keys that were prepared for it.

Nothing is assumed of the client. It may keep a state, and answer one request in different ways.
-/

namespace QueryBook

/-! ## A shelf of caches -/

namespace CacheShelf

theorem get_put (s : CacheShelf) (i j : Int) (c : StatementCache) :
    (s.put i c).get j = if j = i then c else s.get j := by
  unfold get put
  rw [List.lookup_cons]
  by_cases h : j = i
  · rw [if_pos h, h]
    simp
  · rw [if_neg h, beq_eq_false_iff_ne.mpr h]

theorem get_put_of_ne (s : CacheShelf) {i j : Int} (h : j ≠ i) (c : StatementCache) :
    (s.put i c).get j = s.get j := by
  rw [get_put, if_neg h]

/-- To put a cache back in its place changes nothing. -/
@[simp] theorem get_put_get (s : CacheShelf) (i j : Int) : (s.put i (s.get i)).get j = s.get j := by
  rw [get_put]
  split
  · rename_i h
    rw [h]
  · rfl

end CacheShelf

namespace StatementCache

theorem find?_eq_none_iff {c : StatementCache} {key : CacheKey} :
    c.find? key = none ↔ key ∉ c.entries.map Prod.fst := by
  unfold find?
  rw [List.lookup_eq_none_iff, List.mem_map]
  constructor
  · rintro h ⟨e, he, rfl⟩
    simpa using h e he
  · intro h e he
    rw [bne_iff_ne]
    rintro rfl
    exact h ⟨e, he, rfl⟩

/-- With one entry for each key, the entry of a key is what is found. -/
theorem find?_eq_some_iff {c : StatementCache} (hc : (c.entries.map Prod.fst).Nodup)
    {key : CacheKey} {p : Prepared} : c.find? key = some p ↔ (key, p) ∈ c.entries := by
  obtain ⟨entries⟩ := c
  show entries.lookup key = some p ↔ (key, p) ∈ entries
  change (entries.map Prod.fst).Nodup at hc
  induction entries with
  | nil => simp
  | cons e entries ih =>
    obtain ⟨hfresh, hrest⟩ := List.nodup_cons.mp hc
    rw [List.lookup_cons, List.mem_cons]
    by_cases h : key = e.1
    · have hnone : (key, p) ∉ entries := fun hmem =>
        hfresh (List.mem_map.mpr ⟨_, hmem, h⟩)
      rw [h, beq_self_eq_true, or_iff_left (h ▸ hnone)]
      simp only [Option.some.injEq]
      exact ⟨fun hp => by rw [← hp], fun hp => by rw [← hp]⟩
    · have hne : (key, p) ≠ e := fun he => h (by rw [← he])
      rw [beq_eq_false_iff_ne.mpr h, or_iff_right hne]
      exact ih hrest

theorem request_of_none {m : Type → Type} [Monad m] {c : StatementCache} {key : CacheKey}
    (h : c.find? key = none) (prepare : CacheKey → m Prepared) :
    c.request key prepare = prepare key >>= fun p =>
      pure (p, c.insert key p, record s!"prepared statement cache miss, prepared {p.name}") := by
  rw [request, h]

theorem find?_insert {c : StatementCache} {key k : CacheKey} {p q : Prepared}
    (h : (c.insert key p).find? k = some q) : c.find? k = some q ∨ (k = key ∧ q = p) := by
  unfold insert find? at h
  rw [List.lookup_append, Option.or_eq_some_iff] at h
  rcases h with h | ⟨_, h⟩
  · exact .inl h
  · rw [List.lookup_cons] at h
    by_cases hk : k = key
    · rw [hk, beq_self_eq_true] at h
      exact .inr ⟨hk, (Option.some.inj h).symm⟩
    · rw [beq_eq_false_iff_ne.mpr hk] at h
      cases h

end StatementCache

namespace Caches

variable {σ : Type}

/-! ## What a step can do -/

/-- The step looks a key up, with its types or, if it has none, without. -/
def Step.Asks (t : Step) (key : CacheKey) : Prop :=
  t.action = .prepare key ∨ t.action = .prepareUntyped key.1 ∧ key.2 = []

section

variable {client : Client σ} {s : State σ} {t : Step} {key : CacheKey} {p : Prepared} {e : Failure}
  {c' : σ}

/-- A look-up, with or without types, is a request for its key. -/
theorem step_of_asks (ht : t.Asks key) (s : State σ) :
    step client s t = answer s t.cache ((s.shelf.get t.cache).request key (noted client)) := by
  obtain ⟨i, action⟩ := t
  rcases ht with h | ⟨h, htypes⟩
  · cases h
    rfl
  · cases h
    obtain ⟨statement, types⟩ := key
    cases htypes
    rfl

/-- A key that the cache has is answered without the client. -/
theorem step_hit (client : Client σ) (ht : t.Asks key)
    (h : (s.shelf.get t.cache).find? key = some p) :
    (step client s t).1.outcome = .ok (.statement p) ∧ (step client s t).1.calls = [] ∧
      (step client s t).2 = { s with shelf := s.shelf.put t.cache (s.shelf.get t.cache) } := by
  rw [step_of_asks ht, answer, StatementCache.request, h]
  exact ⟨rfl, rfl, rfl⟩

/-- A key that the cache does not have is asked of the client. If the client fails, the caches stay
as they are. -/
theorem step_miss_failed (ht : t.Asks key) (h : (s.shelf.get t.cache).find? key = none)
    (hclient : client key s.client = .error e c') :
    (step client s t).1.outcome = .error e ∧
      (step client s t).1.calls = [{ key, answer := .error e }] ∧
      (step client s t).2 = { s with client := c' } := by
  have hnoted : noted client key (s.client, []) = .error e (c', [{ key, answer := .error e }]) := by
    simp only [noted, hclient, List.nil_append]
  rw [step_of_asks ht, answer, StatementCache.request_of_none h, Session.bind_apply, hnoted]
  exact ⟨rfl, rfl, rfl⟩

/-- If the client does not fail, its handle is returned and kept. -/
theorem step_miss_made (ht : t.Asks key) (h : (s.shelf.get t.cache).find? key = none)
    (hclient : client key s.client = .ok p c') :
    (step client s t).1.outcome = .ok (.statement p) ∧
      (step client s t).1.calls = [{ key, answer := .ok p }] ∧
      (step client s t).2 =
        { shelf := s.shelf.put t.cache ((s.shelf.get t.cache).insert key p), client := c' } := by
  have hnoted : noted client key (s.client, []) = .ok p (c', [{ key, answer := .ok p }]) := by
    simp only [noted, hclient, List.nil_append]
  rw [step_of_asks ht, answer, StatementCache.request_of_none h, Session.bind_apply, hnoted]
  exact ⟨rfl, rfl, rfl⟩

theorem step_contains (client : Client σ) (h : t.action = .contains key) (s : State σ) :
    step client s t =
      ({ outcome := .ok (.present ((s.shelf.get t.cache).contains key)), calls := []
         size := (s.shelf.get t.cache).size, journal := [] }, s) := by
  obtain ⟨i, action⟩ := t
  cases h
  rfl

end

/-- Every step looks a key up, or asks whether there is one. -/
theorem Step.cases (t : Step) : (∃ key, t.Asks key) ∨ ∃ key, t.action = .contains key := by
  cases h : t.action with
  | prepare key => exact .inl ⟨key, .inl h⟩
  | prepareUntyped statement => exact .inl ⟨(statement, []), .inr ⟨h, rfl⟩⟩
  | contains key => exact .inr ⟨key, rfl⟩

/-- A call of the client that succeeded: the cache it was made for, the key, and the handle that the
client returned. -/
structure Preparation where
  cache : Int
  key : CacheKey
  handle : Prepared
deriving DecidableEq

/-- The call of the client that a step made with success, as its report has it. -/
def preparation? (t : Step) (r : Report) : Option Preparation :=
  match r.calls with
  | [{ key, answer := .ok p }] => some { cache := t.cache, key, handle := p }
  | _ => none

/-- **What a step does to the caches**: nothing, or it adds an entry for a key that was not there,
with the handle that the client returned. -/
theorem step_cases (client : Client σ) (s : State σ) (t : Step) :
    (preparation? t (step client s t).1 = none ∧
      ∀ i, (step client s t).2.shelf.get i = s.shelf.get i) ∨
    ∃ key p, t.Asks key ∧ (s.shelf.get t.cache).find? key = none ∧
      (step client s t).1.outcome = .ok (.statement p) ∧
      preparation? t (step client s t).1 = some { cache := t.cache, key, handle := p } ∧
      (step client s t).2.shelf =
        s.shelf.put t.cache ((s.shelf.get t.cache).insert key p) := by
  rcases t.cases with ⟨key, ht⟩ | ⟨key, ht⟩
  · cases hfind : (s.shelf.get t.cache).find? key with
    | some p =>
      obtain ⟨_, hcalls, hstate⟩ := step_hit client ht hfind
      refine .inl ⟨by rw [preparation?, hcalls], fun i => ?_⟩
      rw [hstate]
      exact s.shelf.get_put_get t.cache i
    | none =>
      cases hclient : client key s.client with
      | error e c' =>
        obtain ⟨_, hcalls, hstate⟩ := step_miss_failed ht hfind hclient
        refine .inl ⟨by rw [preparation?, hcalls], fun i => ?_⟩
        rw [hstate]
      | ok p c' =>
        obtain ⟨houtcome, hcalls, hstate⟩ := step_miss_made ht hfind hclient
        refine .inr ⟨key, p, ht, hfind, houtcome, ?_, ?_⟩
        · rw [preparation?, hcalls]
        · rw [hstate]
  · rw [step_contains client ht]
    exact .inl ⟨rfl, fun _ => rfl⟩

/-! ## Histories -/

section

variable (client : Client σ)

/-- The state after some steps. -/
def after (s : State σ) : List Step → State σ
  | [] => s
  | t :: rest => after (step client s t).2 rest

theorem after_append (s : State σ) (ts us : List Step) :
    after client s (ts ++ us) = after client (after client s ts) us := by
  induction ts generalizing s with
  | nil => rfl
  | cons t ts ih => exact ih _

theorem length_run (s : State σ) (ts : List Step) : (run client s ts).length = ts.length := by
  induction ts generalizing s with
  | nil => rfl
  | cons t ts ih => exact congrArg (· + 1) (ih _)

theorem run_append (s : State σ) (ts us : List Step) :
    run client s (ts ++ us) = run client s ts ++ run client (after client s ts) us := by
  induction ts generalizing s with
  | nil => rfl
  | cons t ts ih => exact congrArg ((step client s t).1 :: ·) (ih _)

variable (initial : σ)

/-- The calls of the client that were made with success, as the reports on the steps have them. -/
def preparations (ts : List Step) : List Preparation :=
  (ts.zip (run client (.start initial) ts)).filterMap fun x => preparation? x.1 x.2

/-- The keys that were prepared for a cache with success, in order. -/
def preparedKeys (ts : List Step) (i : Int) : List CacheKey :=
  ((preparations client initial ts).filter fun m => m.cache == i).map Preparation.key

/-- The handles that the client returned for a key and a cache, in order. -/
def handles (ts : List Step) (i : Int) (key : CacheKey) : List Prepared :=
  ((preparations client initial ts).filter fun m => m.cache == i && m.key == key).map
    Preparation.handle

/-- The report on a step that follows some steps. -/
def reportOn (ts : List Step) (t : Step) : Report :=
  (step client (after client (.start initial) ts) t).1

/-- A cache after some steps. -/
def cacheAfter (ts : List Step) (i : Int) : StatementCache :=
  (after client (.start initial) ts).shelf.get i

end

section

variable {client : Client σ} {initial : σ}

/-- The reports of a run are the reports on its steps. -/
theorem run_snoc (ts : List Step) (t : Step) :
    run client (.start initial) (ts ++ [t]) =
      run client (.start initial) ts ++ [reportOn client initial ts t] :=
  run_append client (.start initial) ts [t]

/-- One step adds at most one call. -/
theorem preparations_snoc (ts : List Step) (t : Step) :
    preparations client initial (ts ++ [t]) =
      preparations client initial ts ++
        (preparation? t (reportOn client initial ts t)).toList := by
  unfold preparations
  rw [run_snoc, List.zip_append (length_run _ _ _).symm, List.filterMap_append]
  congr 1

theorem preparations_isPrefix (ts us : List Step) :
    preparations client initial ts <+: preparations client initial (ts ++ us) := by
  unfold preparations
  rw [run_append, List.zip_append (length_run _ _ _).symm, List.filterMap_append]
  exact List.prefix_append _ _

theorem cacheAfter_snoc (ts : List Step) (t : Step) (i : Int) :
    cacheAfter client initial (ts ++ [t]) i =
      (step client (after client (.start initial) ts) t).2.shelf.get i := by
  unfold cacheAfter
  rw [after_append]
  rfl

end

/-! ## The caches agree with the history -/

/-- The entries of a cache that come of some calls. -/
def entriesOf (made : List Preparation) (i : Int) : List (CacheKey × Prepared) :=
  (made.filter fun m => m.cache == i).map fun m => (m.key, m.handle)

/-- The caches hold what was prepared, and nothing was prepared twice. -/
structure Agrees (made : List Preparation) (shelf : CacheShelf) : Prop where
  /-- Each cache has an entry for each call made for it. -/
  entries : ∀ i, (shelf.get i).entries = entriesOf made i
  /-- No two entries of a cache have the same key. -/
  distinct : ∀ i, ((entriesOf made i).map Prod.fst).Nodup

theorem agrees_empty : Agrees [] .empty := ⟨fun _ => rfl, fun _ => List.nodup_nil⟩

theorem entriesOf_snoc (made : List Preparation) (m : Preparation) (i : Int) :
    entriesOf (made ++ [m]) i =
      entriesOf made i ++ if m.cache = i then [(m.key, m.handle)] else [] := by
  unfold entriesOf
  rw [List.filter_append, List.map_append]
  congr 1
  by_cases h : m.cache = i
  · simp [h]
  · simp [h]

/-- **The agreement is kept by every step.** -/
theorem Agrees.step {made : List Preparation} {s : State σ} (h : Agrees made s.shelf)
    (client : Client σ) (t : Step) :
    Agrees (made ++ (preparation? t (step client s t).1).toList) (step client s t).2.shelf := by
  obtain ⟨hnone, hget⟩ | ⟨key, p, _, hfind, _, hmade, hshelf⟩ := step_cases client s t
  · rw [hnone, Option.toList_none, List.append_nil]
    exact ⟨fun i => by rw [hget, h.entries], h.distinct⟩
  · rw [hmade, Option.toList_some]
    have hfresh : key ∉ (entriesOf made t.cache).map Prod.fst := by
      rw [← h.entries]
      exact StatementCache.find?_eq_none_iff.mp hfind
    refine ⟨fun i => ?_, fun i => ?_⟩
    · rw [entriesOf_snoc, ← h.entries i, hshelf, CacheShelf.get_put]
      -- one cache gets the entry and the others stay as they are
      by_cases hi : i = t.cache
      · rw [if_pos hi, if_pos hi.symm, hi]
        rfl
      · rw [if_neg hi, if_neg (Ne.symm hi), List.append_nil]
    · rw [entriesOf_snoc]
      by_cases hi : t.cache = i
      · rw [if_pos hi, List.map_append, ← hi]
        exact (h.distinct t.cache).append (List.nodup_singleton key)
          (List.disjoint_singleton.mpr hfresh)
      · rw [if_neg hi, List.append_nil]
        exact h.distinct i

/-- The agreement holds after any steps. -/
theorem agrees_after (client : Client σ) (initial : σ) (ts : List Step) :
    Agrees (preparations client initial ts) (after client (.start initial) ts).shelf := by
  induction ts using List.reverseRecOn with
  | nil => exact agrees_empty
  | append_singleton ts t ih =>
    rw [preparations_snoc, after_append]
    exact ih.step client t

/-! ## What follows for look-ups -/

section

variable {client : Client σ} {initial : σ} {ts us : List Step} {t u : Step} {i : Int}
  {key : CacheKey} {p : Prepared} {e : Failure}

theorem mem_handles :
    p ∈ handles client initial ts i key ↔
      (key, p) ∈ entriesOf (preparations client initial ts) i := by
  unfold handles entriesOf
  simp only [List.mem_map, List.mem_filter, Bool.and_eq_true, beq_iff_eq, Prod.mk.injEq]
  constructor
  · rintro ⟨m, ⟨hm, hi, hkey⟩, rfl⟩
    exact ⟨m, ⟨hm, hi⟩, hkey, rfl⟩
  · rintro ⟨m, ⟨hm, hi⟩, hkey, rfl⟩
    exact ⟨m, ⟨hm, hi, hkey⟩, rfl⟩

/-- What a cache finds for a key is what the client returned for it. -/
theorem find?_after :
    (cacheAfter client initial ts i).find? key = some p ↔ p ∈ handles client initial ts i key := by
  have h := agrees_after client initial ts
  rw [mem_handles, ← h.entries]
  refine StatementCache.find?_eq_some_iff ?_
  show (((after client (.start initial) ts).shelf.get i).entries.map Prod.fst).Nodup
  rw [h.entries]
  exact h.distinct i

theorem find?_after_eq_none :
    (cacheAfter client initial ts i).find? key = none ↔
      handles client initial ts i key = [] := by
  rw [Option.eq_none_iff_forall_ne_some, List.eq_nil_iff_forall_not_mem]
  exact forall_congr' fun p => not_congr find?_after

/-- No key is prepared twice for a cache. -/
theorem length_handles_le (client : Client σ) (initial : σ) (ts : List Step) (i : Int)
    (key : CacheKey) : (handles client initial ts i key).length ≤ 1 := by
  have hkeys : ((entriesOf (preparations client initial ts) i).map Prod.fst).Nodup :=
    (agrees_after client initial ts).distinct i
  have hcount : (handles client initial ts i key).length =
      ((entriesOf (preparations client initial ts) i).map Prod.fst).count key := by
    unfold handles entriesOf
    rw [List.length_map, List.map_map, List.count, List.countP_map, List.countP_filter,
      List.countP_eq_length_filter]
    refine congrArg List.length (List.filter_congr fun m _ => ?_)
    exact Bool.and_comm _ _
  rw [hcount]
  exact List.nodup_iff_count_le_one.mp hkeys key

theorem handles_append (h : p ∈ handles client initial ts i key) :
    p ∈ handles client initial (ts ++ us) i key := by
  obtain ⟨m, hm, rfl⟩ := List.mem_map.mp h
  obtain ⟨hmem, hkey⟩ := List.mem_filter.mp hm
  exact List.mem_map_of_mem
    (List.mem_filter.mpr ⟨(preparations_isPrefix ts us).subset hmem, hkey⟩)

/-- A step that does not ask for a key adds no handle for it. -/
theorem handles_snoc_of_quiet (h : u.cache = i → ¬ u.Asks key) :
    handles client initial (ts ++ [u]) i key = handles client initial ts i key := by
  unfold handles
  rw [preparations_snoc, reportOn, List.filter_append, List.map_append]
  obtain ⟨hnone, _⟩ | ⟨key', p, hasks, _, _, hmade, _⟩ :=
    step_cases client (after client (.start initial) ts) u
  · rw [hnone]
    exact List.append_nil _
  · rw [hmade]
    have hother : (u.cache == i && key' == key) = false := by
      rw [Bool.eq_false_iff]
      intro hboth
      obtain ⟨hi, hkey⟩ := Bool.and_eq_true_iff.mp hboth
      exact h (eq_of_beq hi) (eq_of_beq hkey ▸ hasks)
    simp [hother]

theorem handles_append_of_quiet (h : ∀ u ∈ us, u.cache = i → ¬ u.Asks key) :
    handles client initial (ts ++ us) i key = handles client initial ts i key := by
  induction us using List.reverseRecOn with
  | nil => rw [List.append_nil]
  | append_singleton us u ih =>
    rw [← List.append_assoc, handles_snoc_of_quiet (h u (by simp))]
    exact ih fun v hv => h v (List.mem_append_left _ hv)

/-- A key that was prepared for the cache is answered by its handle, without the client. -/
theorem reportOn_of_mem (ht : t.Asks key) (h : p ∈ handles client initial ts t.cache key) :
    (reportOn client initial ts t).outcome = .ok (.statement p) ∧
      (reportOn client initial ts t).calls = [] := by
  obtain ⟨houtcome, hcalls, -⟩ := step_hit client ht (find?_after.mpr h)
  exact ⟨houtcome, hcalls⟩

/-- A key that was not prepared for the cache is asked of the client, once, and what the client
answers is what comes out. -/
theorem reportOn_of_nil (ht : t.Asks key) (h : handles client initial ts t.cache key = []) :
    ∃ answer : Except Failure Prepared,
      (reportOn client initial ts t).calls = [{ key, answer }] ∧
        (reportOn client initial ts t).outcome = answer.map .statement := by
  have hfind := find?_after_eq_none.mpr h
  cases hclient : client key (after client (.start initial) ts).client with
  | error e c' =>
    obtain ⟨houtcome, hcalls, -⟩ := step_miss_failed ht hfind hclient
    exact ⟨.error e, hcalls, houtcome⟩
  | ok p c' =>
    obtain ⟨houtcome, hcalls, -⟩ := step_miss_made ht hfind hclient
    exact ⟨.ok p, hcalls, houtcome⟩

/-- A look-up that fails is one of a key that was not prepared before. -/
theorem handles_of_error (ht : t.Asks key)
    (h : (reportOn client initial ts t).outcome = .error e) :
    handles client initial (ts ++ [t]) t.cache key = [] := by
  have hnil : handles client initial ts t.cache key = [] := by
    rw [List.eq_nil_iff_forall_not_mem]
    intro p hp
    rw [(reportOn_of_mem ht hp).1] at h
    cases h
  obtain ⟨hnone, _⟩ | ⟨_, _, _, _, hok, _⟩ :=
    step_cases client (after client (.start initial) ts) t
  · unfold handles at hnil ⊢
    rw [preparations_snoc, reportOn, hnone, Option.toList_none, List.append_nil]
    exact hnil
  · cases hok.symm.trans h

/-- A step that fails leaves all caches as they are. -/
theorem cacheAfter_of_error (h : (reportOn client initial ts t).outcome = .error e) (i : Int) :
    cacheAfter client initial (ts ++ [t]) i = cacheAfter client initial ts i := by
  rw [cacheAfter_snoc]
  obtain ⟨_, hget⟩ | ⟨_, _, _, _, hok, _⟩ :=
    step_cases client (after client (.start initial) ts) t
  · exact hget i
  · cases hok.symm.trans h

/-- A step leaves the caches that it is not about as they are. -/
theorem cacheAfter_of_ne (hi : i ≠ t.cache) :
    cacheAfter client initial (ts ++ [t]) i = cacheAfter client initial ts i := by
  rw [cacheAfter_snoc]
  obtain ⟨_, hget⟩ | ⟨_, _, _, _, _, _, hshelf⟩ :=
    step_cases client (after client (.start initial) ts) t
  · exact hget i
  · rw [hshelf]
    exact CacheShelf.get_put_of_ne _ hi _

end

/-- The size of a cache counts the keys that were prepared for it. -/
theorem size_cacheAfter (client : Client σ) (initial : σ) (ts : List Step) (i : Int) :
    (cacheAfter client initial ts i).size = (preparedKeys client initial ts i).dedup.length := by
  have h := agrees_after client initial ts
  have hkeys : (entriesOf (preparations client initial ts) i).map Prod.fst =
      preparedKeys client initial ts i := by
    unfold entriesOf preparedKeys
    rw [List.map_map]
    rfl
  have hnodup : (preparedKeys client initial ts i).Nodup := hkeys ▸ h.distinct i
  calc (cacheAfter client initial ts i).size
      = (entriesOf (preparations client initial ts) i).length := congrArg List.length (h.entries i)
    _ = (preparedKeys client initial ts i).length := by rw [← hkeys, List.length_map]
    _ = (preparedKeys client initial ts i).dedup.length := by rw [hnodup.dedup]

/-- **Caches remember what was prepared**, whatever the client does. After any steps `ts`: for each
cache and key at most one call of the client has succeeded. A look-up of a key for which none has
makes one call and returns what the client answers. If one has, every later look-up returns the
handle of that call and makes none. A look-up that fails leaves all caches as they are, and the next
look-up of its key makes a call again. To ask for a key changes nothing and tells whether it was
prepared. The size of a cache is the number of keys prepared for it, and a step changes no cache but
its own. -/
theorem prepared_once_per_key (client : Client σ) (initial : σ) (ts : List Step) :
    (∀ i key, (handles client initial ts i key).length ≤ 1) ∧
    (∀ (t : Step) (key : CacheKey), t.Asks key → handles client initial ts t.cache key = [] →
      ∃ answer : Except Failure Prepared,
        (reportOn client initial ts t).calls = [{ key, answer }] ∧
          (reportOn client initial ts t).outcome = answer.map .statement) ∧
    (∀ i key, ∀ p ∈ handles client initial ts i key, ∀ (us : List Step) (t : Step),
      t.cache = i → t.Asks key →
        (reportOn client initial (ts ++ us) t).outcome = .ok (.statement p) ∧
          (reportOn client initial (ts ++ us) t).calls = []) ∧
    (∀ (t : Step) (e : Failure), (reportOn client initial ts t).outcome = .error e →
      (∀ i, cacheAfter client initial (ts ++ [t]) i = cacheAfter client initial ts i) ∧
      ∀ key, t.Asks key → ∀ us : List Step, (∀ u ∈ us, u.cache = t.cache → ¬ u.Asks key) →
        ∀ next : Step, next.cache = t.cache → next.Asks key →
          ∃ answer, (reportOn client initial (ts ++ t :: us) next).calls = [{ key, answer }]) ∧
    (∀ (t : Step) (key : CacheKey), t.action = .contains key →
      (reportOn client initial ts t).outcome =
        .ok (.present (!(handles client initial ts t.cache key).isEmpty)) ∧
      (reportOn client initial ts t).calls = [] ∧
      ∀ i, cacheAfter client initial (ts ++ [t]) i = cacheAfter client initial ts i) ∧
    (∀ i, (cacheAfter client initial ts i).size = (preparedKeys client initial ts i).dedup.length) ∧
    ∀ (t : Step) (i : Int), i ≠ t.cache →
      cacheAfter client initial (ts ++ [t]) i = cacheAfter client initial ts i := by
  refine ⟨length_handles_le client initial ts, fun t key ht => reportOn_of_nil ht, ?_, ?_, ?_,
    size_cacheAfter client initial ts, fun t i => cacheAfter_of_ne⟩
  · rintro i key p hp us t rfl ht
    exact reportOn_of_mem ht (handles_append hp)
  · intro t e he
    refine ⟨cacheAfter_of_error he, fun key ht us hquiet next hnext hasks => ?_⟩
    have hnil : handles client initial (ts ++ t :: us) next.cache key = [] := by
      rw [hnext, List.append_cons, handles_append_of_quiet hquiet]
      exact handles_of_error ht he
    obtain ⟨answer, hcalls, -⟩ := reportOn_of_nil hasks hnil
    exact ⟨answer, hcalls⟩
  · intro t key ht
    have hstep := step_contains client ht (after client (.start initial) ts)
    refine ⟨?_, ?_, fun i => ?_⟩
    · rw [reportOn, hstep, StatementCache.contains]
      cases hfind : (cacheAfter client initial ts t.cache).find? key with
      | none =>
        rw [find?_after_eq_none.mp hfind]
        exact congrArg (fun o => Except.ok (Result.present (Option.isSome o))) hfind
      | some p =>
        have hne := List.ne_nil_of_mem (find?_after.mp hfind)
        rw [List.isEmpty_eq_false_iff.mpr hne]
        exact congrArg (fun o => Except.ok (Result.present (Option.isSome o))) hfind
    · rw [reportOn, hstep]
    · rw [cacheAfter_snoc, hstep]
      rfl

/-- A client that fails at first, and then gives each statement the number of its call. -/
def failingFirst : Client Nat := fun key n =>
  if n = 0 then .error .tooLarge 1
  else .ok { name := s!"s{n}", statement := key.1, types := key.2 } (n + 1)

/-- A look-up without types that fails, its key in another cache, and the key again, with an empty
list of types. -/
def retried : List Step :=
  [{ cache := 0, action := .prepareUntyped "q" }, { cache := 1, action := .prepare ("q", []) },
   { cache := 0, action := .prepare ("q", []) }]

theorem prepared_once_per_key_retried :
    handles failingFirst 0 retried 0 ("q", []) =
      [{ name := "s2", statement := "q", types := [] }] ∧
    (∀ us, (reportOn failingFirst 0 (retried ++ us)
        { cache := 0, action := .prepareUntyped "q" }).outcome =
      .ok (.statement { name := "s2", statement := "q", types := [] })) ∧
    (cacheAfter failingFirst 0 retried 0).size = 1 := by
  have hhandles : handles failingFirst 0 retried 0 ("q", []) =
      [{ name := "s2", statement := "q", types := [] }] := by decide +kernel
  obtain ⟨_, _, hhit, _, _, hsize, _⟩ := prepared_once_per_key failingFirst 0 retried
  refine ⟨hhandles, fun us => ?_, (hsize 0).trans (by decide +kernel)⟩
  exact (hhit 0 ("q", []) _ (hhandles ▸ List.mem_singleton_self _) us
    { cache := 0, action := .prepareUntyped "q" } rfl (.inr ⟨rfl, rfl⟩)).1

end Caches

end QueryBook
