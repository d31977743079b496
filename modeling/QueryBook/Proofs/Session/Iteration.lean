import QueryBook.Proofs.Session.Handles

/-!
# Rows come one at a time

Rows are fetched from a cursor as they are asked for. Between two calls the databases may change in
any way, as long as nobody else uses the cursor before the end has been seen; so a run is given by
the databases that each call finds. The mapper may keep state of its own, and what it does is given
with each call as well.

One fetch is described exactly (`World.fetched`). What a call does depends on how many calls there
were before it (`After.step`): it takes its row, or sees the end, or does nothing at all. A run
follows, since each call leaves the cursor as the next one must find it.
-/

namespace QueryBook

/-! ## One fetch -/

namespace World

/-- An open cursor with these rows to fetch. -/
def Offers (w : World) (id : Nat) (rows : List (List Value)) : Prop :=
  ∃ c, w.cursors[id - 1]? = some c ∧ c.closed = false ∧ c.rows = rows

/-- The world after a fetch: one row less on the cursor, if there was any, and the fetch
recorded. -/
def fetched (w : World) (id : Nat) : World :=
  let c := w.cursors.getD (id - 1) default
  { w with
    cursors := w.cursors.set (id - 1) { c with rows := c.rows.tail }
    events := w.events ++ [.fetchOne id] }

variable {w w' : World} {id : Nat} {rows : List (List Value)}

theorem Offers.fetched (h : w.Offers id rows) : (w.fetched id).Offers id rows.tail := by
  obtain ⟨c, hc, hopen, rfl⟩ := h
  obtain ⟨hlt, -⟩ := List.getElem?_eq_some_iff.mp hc
  have hget : w.cursors.getD (id - 1) default = c := by
    rw [List.getD_eq_getElem?_getD, hc, Option.getD_some]
  refine ⟨{ c with rows := c.rows.tail }, ?_, hopen, rfl⟩
  rw [World.fetched, hget]
  exact List.getElem?_set_self hlt

theorem Offers.congr (h : w.Offers id rows) (hsame : w'.cursors[id - 1]? = w.cursors[id - 1]?) :
    w'.Offers id rows := by
  obtain ⟨c, hc, hrest⟩ := h
  exact ⟨c, hsame.trans hc, hrest⟩

/-- An open cursor gives the first of its rows. -/
theorem Offers.fetchOne_apply (h : w.Offers id rows) :
    Session.fetchOne id w = .ok rows.head? (w.fetched id) := by
  obtain ⟨c, hc, hopen, rfl⟩ := h
  have hget : w.cursors.getD (id - 1) default = c := by
    rw [List.getD_eq_getElem?_getD, hc, Option.getD_some]
  have hpasses : Session.refuseClosed c = pure () := by
    rw [Session.refuseClosed, hopen, if_neg Bool.false_ne_true]
  unfold Session.fetchOne
  rw [Session.bind_apply]
  show (Session.refuseClosed (w.cursors.getD (id - 1) default) >>= _) w = _
  rw [hget, hpasses, World.fetched, hget]
  cases hrows : c.rows with
  | nil =>
    have hsame : w.cursors.set (id - 1) { c with rows := [] } = w.cursors := by
      obtain ⟨hlt, rfl⟩ := List.getElem?_eq_some_iff.mp hc
      rw [← hrows]
      exact List.set_getElem_self hlt
    rw [List.tail_nil, hsame]
    rfl
  | cons row rest => rfl

end World

namespace Rows

/-! ## Runs -/

/-- A call for the next row: the databases that it finds, and what the mapper does in it. -/
structure Call where
  found : World
  mapper : Mapper

/-- What came of a call, and the databases that it left. -/
structure Taken where
  result : Except Failure (Option Value)
  left : World

/-- One call after another. A call that fails leaves the rows as they were. -/
def run (r : Rows) : List Call → List Taken
  | [] => []
  | c :: calls =>
    match ({ r with mapper := c.mapper } : Rows).next c.found with
    | .ok (v, r') w => { result := .ok v, left := w } :: r'.run calls
    | .error e w => { result := .error e, left := w } :: r.run calls

/-- What is owed to the call that `k` others came before, on rows over a cursor. -/
structure Served (id : Nat) (types : List ColumnType) (rows : List (List Value)) (k : Nat)
    (c : Call) (t : Taken) : Prop where
  /-- It fetches the row of its number, and what becomes of this row decides. -/
  row : ∀ row, rows[k]? = some row → c.found.Offers id (rows.drop k) ∧
    t.left = c.found.fetched id ∧ t.result = (c.mapper.read types row).map some
  /-- The first call after the last row finds that there is none. -/
  atEnd : k = rows.length →
    c.found.Offers id [] ∧ t.left = c.found.fetched id ∧ t.result = .ok none
  /-- After that the databases are not asked. -/
  pastEnd : rows.length < k → t.left = c.found ∧ t.result = .ok none

/-- Nobody else uses the cursor up to the call that sees the end of the rows. -/
structure Alone (id : Nat) (rows : List (List Value)) (calls : List Call) (taken : List Taken) :
    Prop where
  start : ∀ c, calls[0]? = some c → c.found.Offers id rows
  between : ∀ k < rows.length, ∀ c t, calls[k + 1]? = some c → taken[k]? = some t →
    c.found.cursors[id - 1]? = t.left.cursors[id - 1]?

/-! ## One call -/

section

variable {r : Rows} {w : World}

theorem next_of_offers_cons (hdone : r.done = false) {row : List Value} {rest : List (List Value)}
    (hw : w.Offers r.cursor (row :: rest)) :
    r.next w = match r.mapper.read r.types row with
      | .ok v => .ok (some v, r) (w.fetched r.cursor)
      | .error e => .error e (w.fetched r.cursor) := by
  unfold next Mapper.read
  rw [hdone, if_neg Bool.false_ne_true, Session.bind_apply, hw.fetchOne_apply]
  show (Session.ofExcept _ >>= fun v => pure (some v, r)) (w.fetched r.cursor) = _
  rw [Session.bind_apply]
  cases (ColumnType.decodeRow r.types row).bind r.mapper with
  | ok v => rfl
  | error e => rfl

theorem next_of_offers_nil (hdone : r.done = false) (hw : w.Offers r.cursor []) :
    r.next w = .ok (none, { r with done := true }) (w.fetched r.cursor) := by
  unfold next
  rw [hdone, if_neg Bool.false_ne_true, Session.bind_apply, hw.fetchOne_apply]
  rfl

theorem next_of_done (hdone : r.done = true) : r.next w = .ok (none, r) w := by
  unfold next
  rw [if_pos hdone]
  rfl

end

variable {id : Nat} {types : List ColumnType} {rows : List (List Value)} {r : Rows} {k : Nat}

/-- The rows over a cursor after `k` calls. Only their end is remembered. -/
structure After (id : Nat) (types : List ColumnType) (rows : List (List Value)) (k : Nat)
    (r : Rows) : Prop where
  cursor : r.cursor = id
  types : r.types = types
  done : r.done = true ↔ rows.length < k

/-- **A call is served by the number of calls before it**, and leaves the cursor to the next. -/
theorem After.step (hr : r.After id types rows k) (c : Call) (calls : List Call)
    (hfound : k ≤ rows.length → c.found.Offers id (rows.drop k)) :
    ∃ (t : Taken) (r' : Rows), r.run (c :: calls) = t :: r'.run calls ∧
      Served id types rows k c t ∧ r'.After id types rows (k + 1) ∧
      (k < rows.length → t.left.Offers id (rows.drop (k + 1))) := by
  obtain ⟨rfl, rfl, hdone⟩ := hr
  rcases Nat.lt_trichotomy k rows.length with hlt | rfl | hgt
  · -- there is a row, and it is used up whatever becomes of it
    have hopen : r.done = false := Bool.eq_false_iff.mpr fun h => by
      have := hdone.mp h
      omega
    have hdrop : rows.drop k = rows[k] :: rows.drop (k + 1) := List.drop_eq_getElem_cons hlt
    have hoffers := hfound (Nat.le_of_lt hlt)
    have hnext := next_of_offers_cons (r := { r with mapper := c.mapper }) hopen (hdrop ▸ hoffers)
    have hleft : (c.found.fetched r.cursor).Offers r.cursor (rows.drop (k + 1)) := by
      have hfetched := hoffers.fetched
      rwa [hdrop, List.tail_cons] at hfetched
    have hserved : Served r.cursor r.types rows k c
        { result := (c.mapper.read r.types rows[k]).map some
          left := c.found.fetched r.cursor } := by
      refine ⟨fun row hrow => ?_, fun h => by omega, fun h => by omega⟩
      rw [List.getElem?_eq_getElem hlt] at hrow
      cases hrow
      exact ⟨hoffers, rfl, rfl⟩
    have hafter : ∀ mapper, After r.cursor r.types rows (k + 1) { r with mapper } := by
      intro mapper
      refine ⟨rfl, rfl, fun h => ?_, fun h => by omega⟩
      cases hopen.symm.trans h
    cases hread : c.mapper.read r.types rows[k] with
    | ok v =>
      rw [hread] at hserved
      refine ⟨_, { r with mapper := c.mapper }, ?_, hserved, hafter c.mapper, fun _ => hleft⟩
      simp only [run, hnext, hread]
      rfl
    | error e =>
      rw [hread] at hserved
      refine ⟨_, r, ?_, hserved, hafter r.mapper, fun _ => hleft⟩
      simp only [run, hnext, hread]
      rfl
  · have hopen : r.done = false := Bool.eq_false_iff.mpr fun h => by
      have := hdone.mp h
      omega
    have hoffers := hfound (Nat.le_refl _)
    rw [List.drop_length] at hoffers
    have hnext := next_of_offers_nil (r := { r with mapper := c.mapper }) hopen hoffers
    refine ⟨⟨.ok none, c.found.fetched r.cursor⟩, { r with mapper := c.mapper, done := true }, ?_,
      ⟨fun row hrow => ?_, fun _ => ⟨hoffers, rfl, rfl⟩, fun h => by omega⟩,
      ⟨rfl, rfl, fun _ => Nat.lt_succ_self _, fun _ => rfl⟩, fun h => by omega⟩
    · simp only [run, hnext]
    · rw [List.getElem?_eq_none (Nat.le_refl _)] at hrow
      cases hrow
  · have hclosed : r.done = true := hdone.mpr hgt
    have hnext := next_of_done (r := { r with mapper := c.mapper }) (w := c.found) hclosed
    refine ⟨⟨.ok none, c.found⟩, { r with mapper := c.mapper }, ?_,
      ⟨fun row hrow => ?_, fun h => by omega, fun _ => ⟨rfl, rfl⟩⟩,
      ⟨rfl, rfl, fun _ => by omega, fun _ => hclosed⟩, fun h => by omega⟩
    · simp only [run, hnext]
    · rw [List.getElem?_eq_none (Nat.le_of_lt hgt)] at hrow
      cases hrow

/-- What a run from there serves to its calls. -/
theorem After.run_served (hr : r.After id types rows k) (calls : List Call)
    (hstart : ∀ c, calls[0]? = some c → k ≤ rows.length → c.found.Offers id (rows.drop k))
    (hbetween : ∀ j, k + j < rows.length → ∀ c t, calls[j + 1]? = some c →
      (r.run calls)[j]? = some t → c.found.cursors[id - 1]? = t.left.cursors[id - 1]?) :
    (r.run calls).length = calls.length ∧
      ∀ j c t, calls[j]? = some c → (r.run calls)[j]? = some t →
        Served id types rows (k + j) c t := by
  induction calls generalizing r k with
  | nil => exact ⟨rfl, fun j c t hc => by simp at hc⟩
  | cons c calls ih =>
    obtain ⟨t, r', hrun, hserved, hr', hleft⟩ := hr.step c calls (hstart c rfl)
    rw [hrun] at hbetween ⊢
    obtain ⟨hlength, hrest⟩ := ih hr'
      (fun c' hc' hle => (hleft hle).congr (hbetween 0 hle c' t (by simpa using hc') rfl))
      (fun j hj c' t' hc' ht' => hbetween (j + 1) (by omega) c' t' (by simpa using hc')
        (by simpa using ht'))
    refine ⟨congrArg (· + 1) hlength, fun j c' t' hc' ht' => ?_⟩
    cases j with
    | zero =>
      cases hc'
      cases ht'
      exact hserved
    | succ j =>
      have hj := hrest j c' t' (by simpa using hc') (by simpa using ht')
      rwa [Nat.add_right_comm, Nat.add_assoc] at hj

/-- **Each call takes the row of its number.** It gives what becomes of this row, a value or the
row's own error, and no other row is touched. The first call after the last row finds the end, and
from then on every call gives nothing and leaves the databases alone, whatever the cursor has been
used for since. -/
theorem run_takes_each_row (id : Nat) (types : List ColumnType) (f : Mapper)
    (rows : List (List Value)) (calls : List Call)
    (h : Alone id rows calls (({ cursor := id, types, mapper := f } : Rows).run calls)) :
    (({ cursor := id, types, mapper := f } : Rows).run calls).length = calls.length ∧
      ∀ k c t, calls[k]? = some c →
        (({ cursor := id, types, mapper := f } : Rows).run calls)[k]? = some t →
        Served id types rows k c t := by
  have hr : After id types rows 0 { cursor := id, types, mapper := f } :=
    ⟨rfl, rfl, nofun, fun h => absurd h (Nat.not_lt_zero _)⟩
  obtain ⟨hlength, hserved⟩ := hr.run_served calls (fun c hc _ => h.start c hc)
    (fun j hj => h.between j (by omega))
  refine ⟨hlength, fun k c t hc ht => ?_⟩
  have hk := hserved k c t hc ht
  rwa [Nat.zero_add] at hk

/-- A database with one cursor, which has rows to fetch. -/
def single (rows : List (List Value)) : World :=
  { answers := [], environment := [], cursors := [{ connection := 1, rows }] }

/-- Three rows of which the second is no number, and five calls. Before the last one the cursor has
been used for another statement. -/
theorem run_takes_each_row_reused :
    let rows : List (List Value) := [[.int 1], [.text "two"], [.int 3]]
    let call (w : World) : Call := { found := w, mapper := Mapper.columns }
    let calls := [call (single rows), call ((single rows).fetched 1),
      call (((single rows).fetched 1).fetched 1),
      call ((((single rows).fetched 1).fetched 1).fetched 1), call (single [[.int 9]])]
    let taken := ({ cursor := 1, types := [.int], mapper := Mapper.columns } : Rows).run calls
    Alone 1 rows calls taken ∧
      (∃ t, taken[1]? = some t ∧ t.result = .error (.rows (.decode 0 "int" (.text "two") none))) ∧
      (∃ t, taken[2]? = some t ∧ t.result = .ok (some (.row [.int 3]))) ∧
      ∃ t, taken[4]? = some t ∧ t.result = .ok none ∧ t.left = single [[.int 9]] := by
  intro rows call calls taken
  have halone : Alone 1 rows calls taken := by
    refine ⟨fun c hc => ?_, fun k hk c t hc ht => ?_⟩
    · cases hc
      exact ⟨_, rfl, rfl, rfl⟩
    · match k, hk with
      | 0, _ | 1, _ | 2, _ =>
        cases hc
        cases ht
        rfl
  obtain ⟨hlength, hserved⟩ := run_takes_each_row 1 [.int] Mapper.columns rows calls halone
  have htaken : ∀ k, k < 5 → ∃ t, taken[k]? = some t := fun k hk =>
    ⟨_, List.getElem?_eq_getElem (hlength ▸ hk)⟩
  obtain ⟨t₁, h₁⟩ := htaken 1 (by decide)
  obtain ⟨t₂, h₂⟩ := htaken 2 (by decide)
  obtain ⟨t₄, h₄⟩ := htaken 4 (by decide)
  refine ⟨halone, ⟨t₁, h₁, ?_⟩, ⟨t₂, h₂, ?_⟩, t₄, h₄, ?_⟩
  · exact ((hserved 1 _ t₁ rfl h₁).row _ rfl).2.2
  · exact ((hserved 2 _ t₂ rfl h₂).row _ rfl).2.2
  · exact ((hserved 4 _ t₄ rfl h₄).pastEnd (by decide)).symm

end Rows

end QueryBook
