import QueryBook.Proofs.Session.CacheHistory
import QueryBook.Proofs.Session.Preparing
import QueryBook.Session.Script
import Mathlib.Data.List.Induction
import Mathlib.Data.List.Nodup

/-!
# Statements are executed where they were prepared

Any number of clients and caches share one counter of statement names, and every call of the driver
may fail. An operation prepares a statement, with or without a cache, or runs one by its handle. A
step is described from outside: what was sent, what came of it, and what the caches hold afterwards.
Two facts are kept by every step. The names that were sent for preparing are values of the counter
in order, with gaps where nothing was sent, so no name is sent twice. And whatever a cache holds was
prepared by an operation with this very cache.

The second fact does not say on which connection. It is only when each cache keeps to one
connection, and each handle to the connection that returned it, that a statement is never executed
on a connection that does not know it.
-/

namespace QueryBook

namespace Clients

/-! ## Clients and caches in one program -/

/-- What is asked of a client. -/
inductive Action where
  | prepare (key : CacheKey)
  | prepareCached (cache : Int) (key : CacheKey)
  /-- Runs the statement of a handle for its effect. -/
  | execute (handle : Prepared) (values : List Value)
  /-- Runs the statement of a handle for its rows. -/
  | query (handle : Prepared) (values : List Value)

/-- An operation of a client, and what its driver will refuse. -/
structure Operation where
  client : Client
  action : Action
  faults : CursorFaults := {}

namespace Operation

/-- The connection that serves the client. -/
def connection (o : Operation) : Nat := o.client.connection

/-- The key that a statement is asked for. -/
def key? (o : Operation) : Option CacheKey :=
  match o.action with
  | .prepare key | .prepareCached _ key => some key
  | .execute _ _ | .query _ _ => none

/-- The cache that is used. -/
def cache? (o : Operation) : Option Int :=
  match o.action with
  | .prepareCached i _ => some i
  | .prepare _ | .execute _ _ | .query _ _ => none

/-- The handle that is used, and the values for its statement. -/
def runs? (o : Operation) : Option (Prepared × List Value) :=
  match o.action with
  | .execute p values | .query p values => some (p, values)
  | .prepare _ | .prepareCached _ _ => none

end Operation

/-- What an operation returns. -/
inductive Result where
  | statement (p : Prepared)
  | count (n : Int)
  | rows (rows : List (List Value))

/-- The world with the caches of the program. -/
structure State where
  world : World
  shelf : CacheShelf

/-- No cache was used. -/
def State.start (w : World) : State := { world := w, shelf := .empty }

/-- A session on the world alone. -/
def onWorld {α : Type} (x : Session α) : EStateM Failure State α := fun s =>
  match x s.world with
  | .ok a w => .ok a { s with world := w }
  | .error e w => .error e { s with world := w }

/-- Carries an operation out. -/
def perform (o : Operation) : EStateM Failure State Result := do
  match o.action with
  | .prepare key => return .statement (← onWorld (Session.prepare o.connection key o.faults))
  | .prepareCached i key => do
    let cache := (← get).shelf.get i
    let (p, cache) ← onWorld (Session.prepareCached cache o.connection key o.faults)
    modify fun s => { s with shelf := s.shelf.put i cache }
    return .statement p
  | .execute p values =>
    return .count (← onWorld (Session.execute o.connection (.prepared p) values o.faults))
  | .query p values =>
    return .rows (← onWorld (Session.query o.connection (.prepared p) values o.faults))

/-- What is known of an operation afterwards. -/
structure Record where
  operation : Operation
  outcome : Except Failure Result
  /-- What it did. -/
  events : List Event

/-- The statements that an operation sent, with their connections. -/
def Record.sent (r : Record) : List (Nat × Command) := r.events.filterMap Event.sent?

/-- A command that prepares a statement: it has the name of the statement, its types, if there are
any, and its text. -/
structure Prepares (p : Prepared) (c : Command) : Prop where
  untyped : p.types = [] → c.text = "PREPARE " ++ p.name ++ " AS " ++ p.statement
  typed : p.types ≠ [] →
    c.text = "PREPARE " ++ p.name ++ " (" ++ String.intercalate ", " p.types ++ ") AS " ++
      p.statement
  arguments : c.arguments = .none

/-- A command that executes the statement of a name with some values. -/
structure Executes (name : String) (values : List Value) (c : Command) : Prop where
  bare : values = [] → c.text = "EXECUTE " ++ name ∧ c.arguments = .none
  applied : values ≠ [] →
    c.text = "EXECUTE " ++ name ++ "(" ++
      String.intercalate ", " (values.map fun _ => "%s") ++ ")" ∧ c.arguments = .positional values

theorem prepares_prepare (p : Prepared) : Prepares p (Command.prepare p) := by
  refine ⟨fun h => ?_, fun h => ?_, rfl⟩
  · simp [Command.prepare, h]
  · simp [Command.prepare, h, String.append_assoc]

theorem executes_ofPrepared (name : String) (values : List Value) :
    Executes name values (Command.ofPrepared name values) := by
  refine ⟨fun h => ?_, fun h => ?_⟩
  · simp [Command.ofPrepared, h]
  · simp [Command.ofPrepared, h]

/-- The operation prepared a statement with success: a command that prepares it was accepted. -/
def Record.HasPrepared (r : Record) (p : Prepared) : Prop :=
  ∃ cursor channel command, Prepares p command ∧
    .execute r.operation.connection cursor channel command true ∈ r.events

/-- The handle that an operation returned. -/
def Record.returned? (r : Record) : Option Prepared :=
  match r.outcome with
  | .ok (.statement p) => some p
  | _ => none

/-- One operation and its record. -/
def step (s : State) (o : Operation) : Record × State :=
  let record (outcome : Except Failure Result) (s' : State) : Record × State :=
    ({ operation := o, outcome, events := s'.world.events.drop s.world.events.length }, s')
  match perform o s with
  | .ok r s' => record (.ok r) s'
  | .error e s' => record (.error e) s'

/-- The records of several operations. -/
def run (s : State) : List Operation → List Record
  | [] => []
  | o :: rest => (step s o).1 :: run (step s o).2 rest

/-- The state after several operations. -/
def stateAfter (s : State) : List Operation → State
  | [] => s
  | o :: rest => stateAfter (step s o).2 rest

/-! ## What an operation can do -/

/-- The cache of number `i` has a statement for a key. -/
def State.Keeps (s : State) (i : Int) (key : CacheKey) (p : Prepared) : Prop :=
  (s.shelf.get i).find? key = some p

/-- **What an operation can do**, seen from outside. -/
inductive Effect (s : State) (o : Operation) (r : Record) (s' : State) : Prop where
  /-- The driver does not make a cursor, and nothing is sent. -/
  | unsent (hmaking : o.faults.making ≠ none) (hsent : r.sent = [])
      (houtcome : r.returned? = none)
      (hshelf : s'.shelf = s.shelf)
      (hnames : s.world.statementNames ≤ s'.world.statementNames)
  /-- The statement is in the cache. -/
  | cached {i : Int} {key : CacheKey} {p : Prepared} (hcache : o.cache? = some i)
      (hkey : o.key? = some key) (hkeeps : s.Keeps i key p) (hsent : r.sent = [])
      (hreturned : r.returned? = some p) (hshelf : ∀ j, s'.shelf.get j = s.shelf.get j)
      (hnames : s'.world.statementNames = s.world.statementNames)
  /-- The statement is sent to be prepared, and the operation fails. -/
  | refused {key : CacheKey} (hkey : o.key? = some key)
      (hsent : r.sent = [(o.connection, Command.prepare (s.world.nextStatement key))])
      (houtcome : r.returned? = none) (hshelf : s'.shelf = s.shelf)
      (hnames : s'.world.statementNames = s.world.statementNames + 1)
  /-- The statement is prepared, and kept if there is a cache. -/
  | prepared {key : CacheKey} (hkey : o.key? = some key)
      (hsent : r.sent = [(o.connection, Command.prepare (s.world.nextStatement key))])
      (hprepared : r.HasPrepared (s.world.nextStatement key))
      (hreturned : r.returned? = some (s.world.nextStatement key))
      (hshelf : ∀ i k p, s'.Keeps i k p → s.Keeps i k p ∨
        (o.cache? = some i ∧ k = key ∧ p = s.world.nextStatement key))
      (hnames : s'.world.statementNames = s.world.statementNames + 1)
  /-- A prepared statement is executed. -/
  | ran {p : Prepared} {values : List Value} (hruns : o.runs? = some (p, values))
      (hsent : r.sent = [(o.connection, Command.ofPrepared p.name values)])
      (houtcome : r.returned? = none) (hshelf : s'.shelf = s.shelf)
      (hnames : s'.world.statementNames = s.world.statementNames)

theorem step_of_ok {s s' : State} {o : Operation} {x : Result} (h : perform o s = .ok x s') :
    step s o = ({ operation := o, outcome := .ok x
                  events := s'.world.events.drop s.world.events.length }, s') := by
  rw [step, h]

theorem step_of_error {s s' : State} {o : Operation} {e : Failure}
    (h : perform o s = .error e s') :
    step s o = ({ operation := o, outcome := .error e
                  events := s'.world.events.drop s.world.events.length }, s') := by
  rw [step, h]

@[simp] theorem step_operation (s : State) (o : Operation) : (step s o).1.operation = o := by
  unfold step
  split <;> rfl

theorem onWorld_of_ok {α β : Type} {x : Session α} {s : State} {a : α} {w : World}
    (h : x s.world = .ok a w) (f : α → EStateM Failure State β) :
    (onWorld x >>= f) s = f a { s with world := w } := by
  rw [Session.bind_apply, onWorld, h]

theorem onWorld_of_error {α β : Type} {x : Session α} {s : State} {e : Failure} {w : World}
    (h : x s.world = .error e w) (f : α → EStateM Failure State β) :
    (onWorld x >>= f) s = .error e { s with world := w } := by
  rw [Session.bind_apply, onWorld, h]

/-- A statement that is run by its handle. -/
theorem effect_of_sendsIfMade {α : Type} {s : State} {o : Operation} {p : Prepared}
    {values : List Value} {x : Session α} {f : α → Result} (hruns : o.runs? = some (p, values))
    (hx : Session.SendsIfMade o.connection (Command.ofPrepared p.name values) o.faults x)
    (hf : ∀ a, (Record.mk o (.ok (f a)) []).returned? = none)
    (hperform : perform o = do return f (← onWorld x)) :
    Effect s o (step s o).1 (step s o).2 := by
  obtain ⟨hmaking, e, he⟩ | ⟨w, hsends, hnames, ⟨e, he⟩ | ⟨_, a, ha⟩⟩ := hx s.world
  · rw [step_of_error ((congrFun hperform s).trans (onWorld_of_error he _))]
    exact .unsent hmaking (World.nothing_sent rfl) rfl rfl (Nat.le_refl _)
  · rw [step_of_error ((congrFun hperform s).trans (onWorld_of_error he _))]
    exact .ran hruns hsends.sent_eq rfl rfl hnames
  · rw [step_of_ok ((congrFun hperform s).trans (onWorld_of_ok ha _))]
    exact .ran hruns hsends.sent_eq (hf a) rfl hnames

/-- A statement that is prepared, whatever becomes of it afterwards. -/
theorem effect_of_prepare {s : State} {o : Operation} {key : CacheKey} (hkey : o.key? = some key)
    (hfailed : ∀ e w, Session.prepare o.connection key o.faults s.world = .error e w →
      perform o s = .error e { s with world := w })
    (hok : ∀ p w, Session.prepare o.connection key o.faults s.world = .ok p w →
      ∃ s', perform o s = .ok (.statement p) s' ∧ s'.world.events = w.events ∧
        s'.world.statementNames = w.statementNames ∧
        ∀ i k q, s'.Keeps i k q → s.Keeps i k q ∨ (o.cache? = some i ∧ k = key ∧ q = p)) :
    Effect s o (step s o).1 (step s o).2 := by
  obtain ⟨hmaking, e, he⟩ | ⟨w, hsends, hnames, ⟨e, he⟩ | ⟨herror, hprepared⟩⟩ :=
    Session.prepare_cases o.connection key o.faults s.world
  · rw [step_of_error (hfailed e _ he)]
    exact .unsent hmaking (World.nothing_sent rfl) rfl rfl (Nat.le_succ _)
  · rw [step_of_error (hfailed e w he)]
    exact .refused hkey hsends.sent_eq rfl rfl hnames
  · obtain ⟨s', hperform, hevents, hcount, hshelf⟩ := hok _ w hprepared
    rw [step_of_ok hperform]
    refine .prepared hkey ?_ ?_ rfl hshelf (hcount.trans hnames)
    · show (s'.world.events.drop _).filterMap _ = _
      rw [hevents]
      exact hsends.sent_eq
    · obtain ⟨cursor, channel, haccepted⟩ := hsends.accepted herror
      refine ⟨cursor, channel, _, prepares_prepare _, ?_⟩
      show _ ∈ s'.world.events.drop _
      rw [hevents]
      exact haccepted

/-- Every operation does one of these things. -/
theorem effect_step (s : State) (o : Operation) : Effect s o (step s o).1 (step s o).2 := by
  obtain ⟨client, action, faults⟩ := o
  cases action with
  | prepare key =>
    refine effect_of_prepare rfl (fun e w he => onWorld_of_error he _) (fun p w hp => ?_)
    exact ⟨_, onWorld_of_ok hp _, rfl, rfl, fun i k q h => .inl h⟩
  | prepareCached i key =>
    cases hfind : (s.shelf.get i).find? key with
    | some p =>
      obtain ⟨r, hr⟩ :=
        Session.prepareCached_of_find?_some hfind client.connection faults s.world
      rw [step_of_ok (onWorld_of_ok hr _)]
      exact .cached rfl rfl hfind (World.nothing_sent rfl) rfl (s.shelf.get_put_get i) rfl
    | none =>
      refine effect_of_prepare rfl (fun e w he => ?_) (fun p w hp => ?_)
      · exact onWorld_of_error (Session.prepareCached_of_error hfind he) _
      · obtain ⟨r, hr⟩ := Session.prepareCached_of_ok hfind hp
        refine ⟨_, onWorld_of_ok hr _, rfl, rfl, fun j k q h => ?_⟩
        change ((s.shelf.put i _).get j).find? k = some q at h
        rw [CacheShelf.get_put] at h
        by_cases hj : j = i
        · rw [if_pos hj] at h
          rcases StatementCache.find?_insert h with h | ⟨hk, hq⟩
          · exact .inl (hj ▸ h)
          · exact .inr ⟨congrArg some hj.symm, hk, hq⟩
        · rw [if_neg hj] at h
          exact .inl h
  | execute p values =>
    exact effect_of_sendsIfMade (f := .count) rfl
      (Session.sendsIfMade_execute _ (.prepared p) values _) (fun _ => rfl) rfl
  | query p values =>
    exact effect_of_sendsIfMade (f := .rows) rfl
      (Session.sendsIfMade_query _ (.prepared p) values _) (fun _ => rfl) rfl

/-! ## What every operation keeps -/

/-- The names under which statements were sent to be prepared, in order. -/
def preparedNames (log : List Record) : List String :=
  (log.flatMap Record.sent).filterMap fun x => x.2.preparedName?

/-- A handle for a key, with a name of the program. -/
def HandleFor (key : CacheKey) (p : Prepared) : Prop :=
  (∃ n, p.name = statementName n) ∧ key = (p.statement, p.types)

/-- The names that were sent are numbered in order, none higher than `bound`. -/
def Numbered (log : List Record) (bound : Nat) : Prop :=
  ∃ ns : List Nat, preparedNames log = ns.map statementName ∧ ns.Pairwise (· < ·) ∧
    ∀ n ∈ ns, n ≤ bound

/-- What a cache has was prepared by an operation with this cache. -/
def Traced (log : List Record) (s : State) : Prop :=
  ∀ i key p, s.Keeps i key p → HandleFor key p ∧
    ∃ r ∈ log, r.operation.cache? = some i ∧ r.HasPrepared p

/-- What is true of the state after some operations. -/
structure Consistent (log : List Record) (s : State) : Prop where
  names : Numbered log s.world.statementNames
  cached : Traced log s

theorem consistent_start (w : World) : Consistent [] (.start w) :=
  ⟨⟨[], rfl, .nil, by simp⟩, fun _ _ _ h => nomatch h⟩

theorem handleFor_nextStatement (w : World) (key : CacheKey) :
    HandleFor key (w.nextStatement key) := ⟨⟨_, rfl⟩, rfl⟩

theorem preparedNames_snoc (log : List Record) (r : Record) :
    preparedNames (log ++ [r]) =
      preparedNames log ++ r.sent.filterMap fun x => x.2.preparedName? := by
  unfold preparedNames
  rw [List.flatMap_append, List.filterMap_append, List.flatMap_singleton]

/-- An operation that sends nothing to be prepared keeps the order of the names. -/
theorem Numbered.quiet {log : List Record} {r : Record} {m n : Nat} (h : Numbered log m)
    (hsent : r.sent.filterMap (fun x => x.2.preparedName?) = []) (hle : m ≤ n) :
    Numbered (log ++ [r]) n := by
  obtain ⟨ns, heq, hpair, hbound⟩ := h
  refine ⟨ns, ?_, hpair, fun k hk => Nat.le_trans (hbound k hk) hle⟩
  rw [preparedNames_snoc, hsent, List.append_nil, heq]

/-- A name that is sent is higher than all before. -/
theorem Numbered.prepare {log : List Record} {r : Record} {w : World} {c : Nat} {key : CacheKey}
    (h : Numbered log w.statementNames)
    (hsent : r.sent = [(c, Command.prepare (w.nextStatement key))]) :
    Numbered (log ++ [r]) (w.statementNames + 1) := by
  obtain ⟨ns, heq, hpair, hbound⟩ := h
  have hname : (Command.prepare (w.nextStatement key)).preparedName? =
      some (statementName (w.statementNames + 1)) := Command.preparedName?_prepare rfl
  refine ⟨ns ++ [w.statementNames + 1], ?_, ?_, ?_⟩
  · rw [preparedNames_snoc, hsent, heq, List.map_append]
    simp [hname]
  · refine List.pairwise_append.mpr ⟨hpair, List.pairwise_singleton _ _, ?_⟩
    intro m hm n hn
    have hlast := List.mem_singleton.mp hn
    have hle := hbound m hm
    omega
  · intro n hn
    rcases List.mem_append.mp hn with hn | hn
    · have hle := hbound n hn
      omega
    · exact Nat.le_of_eq (List.mem_singleton.mp hn)

/-- A longer log accounts for what the caches had before. -/
theorem Traced.snoc {log : List Record} {s : State} (h : Traced log s) (r : Record) :
    Traced (log ++ [r]) s := by
  intro i key p hkeeps
  obtain ⟨hhandle, r', hr', hprepared⟩ := h i key p hkeeps
  exact ⟨hhandle, r', List.mem_append_left _ hr', hprepared⟩

theorem Traced.of_get_eq {log : List Record} {s s' : State} (h : Traced log s)
    (hget : ∀ i, s'.shelf.get i = s.shelf.get i) : Traced log s' := by
  intro i key p hkeeps
  rw [State.Keeps, hget] at hkeeps
  exact h i key p hkeeps

/-- **Every operation keeps it.** -/
theorem Consistent.step {log : List Record} {s : State} (h : Consistent log s) (o : Operation) :
    Consistent (log ++ [(step s o).1]) (step s o).2 := by
  have hcached := h.cached.snoc (Clients.step s o).1
  cases effect_step s o with
  | unsent _ hsent _ hshelf hnames =>
    exact ⟨h.names.quiet (by rw [hsent]; rfl) hnames, hcached.of_get_eq fun i => by rw [hshelf]⟩
  | cached _ _ _ hsent _ hshelf hnames =>
    exact ⟨h.names.quiet (by rw [hsent]; rfl) (Nat.le_of_eq hnames.symm), hcached.of_get_eq hshelf⟩
  | refused _ hsent _ hshelf hnames =>
    exact ⟨hnames ▸ h.names.prepare hsent, hcached.of_get_eq fun i => by rw [hshelf]⟩
  | prepared _ hsent hprepared _ hshelf hnames =>
    refine ⟨hnames ▸ h.names.prepare hsent, fun i key p hkeeps => ?_⟩
    -- the one new entry was prepared just now
    rcases hshelf i key p hkeeps with hkeeps | ⟨hcache, rfl, rfl⟩
    · exact hcached i key p hkeeps
    · refine ⟨handleFor_nextStatement _ _, _, List.mem_append_right _ List.mem_cons_self, ?_,
        hprepared⟩
      rw [step_operation]
      exact hcache
  | ran _ hsent _ hshelf hnames =>
    refine ⟨h.names.quiet ?_ (Nat.le_of_eq hnames.symm), hcached.of_get_eq fun i => by rw [hshelf]⟩
    simp [hsent, Command.preparedName?_ofPrepared]

/-- A handle that is returned was prepared: by this operation, or before with the same cache. -/
theorem Consistent.returned {log : List Record} {s : State} {o : Operation} {p : Prepared}
    (h : Consistent log s) (hp : (Clients.step s o).1.returned? = some p) :
    (∃ n, p.name = statementName n) ∧ o.key? = some (p.statement, p.types) ∧
      ∃ r ∈ log ++ [(Clients.step s o).1], r.HasPrepared p ∧
        (r.operation.connection = o.connection ∨
          ∃ i, r.operation.cache? = some i ∧ o.cache? = some i) := by
  cases effect_step s o with
  | unsent _ _ houtcome _ _ => cases houtcome.symm.trans hp
  | refused _ _ houtcome _ _ => cases houtcome.symm.trans hp
  | ran _ _ houtcome _ _ => cases houtcome.symm.trans hp
  | @cached i key q hcache hkey hkeeps _ hreturned _ _ =>
    cases hreturned.symm.trans hp
    obtain ⟨⟨hname, hparts⟩, r, hr, hsame, hprepared⟩ := h.cached i key p hkeeps
    exact ⟨hname, hparts ▸ hkey, r, List.mem_append_left _ hr, hprepared, .inr ⟨i, hsame, hcache⟩⟩
  | @prepared key hkey _ hprepared hreturned _ _ =>
    cases hreturned.symm.trans hp
    refine ⟨⟨_, rfl⟩, hkey, _, List.mem_append_right _ List.mem_cons_self, hprepared, .inl ?_⟩
    rw [step_operation]

/-! ## Runs -/

theorem run_append (s : State) (os os' : List Operation) :
    run s (os ++ os') = run s os ++ run (stateAfter s os) os' := by
  induction os generalizing s with
  | nil => rfl
  | cons o os ih => exact congrArg ((step s o).1 :: ·) (ih _)

theorem stateAfter_append (s : State) (os os' : List Operation) :
    stateAfter s (os ++ os') = stateAfter (stateAfter s os) os' := by
  induction os generalizing s with
  | nil => rfl
  | cons o os ih => exact ih _

theorem run_operations (s : State) (os : List Operation) :
    (run s os).map Record.operation = os := by
  induction os generalizing s with
  | nil => rfl
  | cons o os ih =>
    rw [run, List.map_cons, ih, step_operation]

/-- A record of a run is that of an operation on the state which the operations before it left. -/
theorem run_split {s : State} {os : List Operation} {before after : List Record} {r : Record}
    (h : run s os = before ++ r :: after) :
    ∃ os₁ o os₂, os = os₁ ++ o :: os₂ ∧ before = run s os₁ ∧
      r = (step (stateAfter s os₁) o).1 := by
  induction os generalizing s before with
  | nil => cases before <;> cases h
  | cons o os ih =>
    cases before with
    | nil =>
      obtain ⟨hr, _⟩ := List.cons.inj h
      exact ⟨[], o, os, rfl, rfl, hr.symm⟩
    | cons b before =>
      obtain ⟨hb, hrest⟩ := List.cons.inj h
      obtain ⟨os₁, o', os₂, rfl, rfl, hr⟩ := ih hrest
      exact ⟨o :: os₁, o', os₂, rfl, by rw [run, hb], hr⟩

/-- All operations keep it. -/
theorem consistent_run (w : World) (os : List Operation) :
    Consistent (run (.start w) os) (stateAfter (.start w) os) := by
  induction os using List.reverseRecOn with
  | nil => exact consistent_start w
  | append_singleton os o ih =>
    rw [run_append, stateAfter_append]
    exact ih.step o

/-- Each cache is used with the clients of one connection only. -/
def CachesStay (os : List Operation) : Prop :=
  ∃ owner : Int → Nat, ∀ o ∈ os, ∀ i, o.cache? = some i → o.connection = owner i

/-- A handle is used only on a connection that returned it before. -/
def HandlesStay (log : List Record) : Prop :=
  ∀ before r after, log = before ++ r :: after → ∀ p values, r.operation.runs? = some (p, values) →
    ∃ r' ∈ before, r'.operation.connection = r.operation.connection ∧ r'.returned? = some p

/-- A handle that a run returned, and where its statement was prepared. -/
theorem returned_of_run {w : World} {os : List Operation} {before after : List Record} {r : Record}
    {p : Prepared} (h : run (.start w) os = before ++ r :: after) (hp : r.returned? = some p) :
    (∃ n, p.name = statementName n) ∧ r.operation.key? = some (p.statement, p.types) ∧
      ∃ r' ∈ before ++ [r], r'.HasPrepared p ∧
        (r'.operation.connection = r.operation.connection ∨
          ∃ i, r'.operation.cache? = some i ∧ r.operation.cache? = some i) := by
  obtain ⟨os₁, o, _, _, rfl, rfl⟩ := run_split h
  rw [step_operation]
  exact (consistent_run w os₁).returned hp

/-- When caches stay with a connection, a handle was prepared on the connection that returned it. -/
theorem CachesStay.connection_eq {os : List Operation} (h : CachesStay os) {r r' : Record}
    (hr : r.operation ∈ os) (hr' : r'.operation ∈ os)
    (hsource : r'.operation.connection = r.operation.connection ∨
      ∃ i, r'.operation.cache? = some i ∧ r.operation.cache? = some i) :
    r'.operation.connection = r.operation.connection := by
  obtain ⟨owner, howner⟩ := h
  rcases hsource with hsame | ⟨i, hi', hi⟩
  · exact hsame
  · rw [howner _ hr' i hi', howner _ hr i hi]

/-- Then a handle that was returned before was prepared before, on the same connection. -/
theorem CachesStay.prepared {w : World} {os : List Operation} {before after : List Record}
    {r r₀ : Record} {p : Prepared} (hcaches : CachesStay os)
    (h : run (.start w) os = before ++ r :: after) (hr₀ : r₀ ∈ before)
    (hp : r₀.returned? = some p) :
    (∃ n, p.name = statementName n) ∧
      ∃ r' ∈ before, r'.operation.connection = r₀.operation.connection ∧ r'.HasPrepared p := by
  -- the record that returned the handle splits the run a second time
  obtain ⟨before₀, after₀, rfl⟩ := List.append_of_mem hr₀
  rw [List.append_assoc, List.cons_append] at h
  obtain ⟨hname, _, r', hr', hprepared, hsource⟩ := returned_of_run h hp
  have hmem : ∀ x ∈ before₀ ++ [r₀], x.operation ∈ os := by
    intro x hx
    rw [← run_operations (.start w) os, h, List.append_cons]
    exact List.mem_map_of_mem (List.mem_append_left _ hx)
  refine ⟨hname, r', ?_, hcaches.connection_eq (hmem r₀ (by simp)) (hmem r' hr') hsource, hprepared⟩
  rw [List.append_cons]
  exact List.mem_append_left _ hr'

/-- An operation either asks for a statement or has one. -/
theorem Operation.key?_of_runs? {o : Operation} {x : Prepared × List Value}
    (h : o.runs? = some x) : o.key? = none := by
  obtain ⟨client, action, faults⟩ := o
  cases action with
  | prepare key => cases h
  | prepareCached i key => cases h
  | execute p values => rfl
  | query p values => rfl

/-- An operation with a handle executes its statement. -/
theorem sent_of_runs {s : State} {o : Operation} {p : Prepared} {values : List Value}
    (hruns : o.runs? = some (p, values)) (hmaking : o.faults.making = none) :
    (step s o).1.sent = [(o.connection, Command.ofPrepared p.name values)] := by
  have hkey := Operation.key?_of_runs? hruns
  cases effect_step s o with
  | unsent hfault _ _ _ _ => exact absurd hmaking hfault
  | cached _ hsome _ _ _ _ _ => cases hkey.symm.trans hsome
  | refused hsome _ _ _ _ => cases hkey.symm.trans hsome
  | prepared hsome _ _ _ _ _ => cases hkey.symm.trans hsome
  | ran hruns' hsent _ _ _ =>
    cases hruns'.symm.trans hruns
    exact hsent

/-- Only an operation with a handle sends a command that executes a name. -/
theorem runs_of_sent {s : State} {o : Operation} {c : Nat} {command : Command} {name : String}
    (hsent : (c, command) ∈ (step s o).1.sent) (hname : command.executedName? = some name) :
    ∃ p values, o.runs? = some (p, values) ∧ c = o.connection ∧
      command = Command.ofPrepared p.name values := by
  cases effect_step s o with
  | unsent _ hnone _ _ _ =>
    rw [hnone] at hsent
    cases hsent
  | cached _ _ _ hnone _ _ _ =>
    rw [hnone] at hsent
    cases hsent
  | refused _ hone _ _ _ =>
    rw [hone] at hsent
    cases List.mem_singleton.mp hsent
    cases (Command.executedName?_prepare _).symm.trans hname
  | prepared _ hone _ _ _ _ =>
    rw [hone] at hsent
    cases List.mem_singleton.mp hsent
    cases (Command.executedName?_prepare _).symm.trans hname
  | @ran p values hruns hone _ _ _ =>
    rw [hone] at hsent
    cases List.mem_singleton.mp hsent
    exact ⟨p, values, hruns, rfl, rfl⟩

/-- **Statements are executed where they were prepared.** In a run from any world: no two statements
are sent to be prepared under one name; a handle that is returned was prepared with success, under
its name, with its text and its types, which are those that were asked for; and an operation with a
handle sends the command that executes it by its name, if the driver makes a cursor. If caches and
handles stay with their connections, every command that executes a name is one of these, and the
statement of its handle was prepared before, under this name, on the same connection. -/
theorem executes_only_prepared (w : World) (os : List Operation) :
    (preparedNames (run (.start w) os)).Nodup ∧
    (∀ before r after, run (.start w) os = before ++ r :: after → ∀ p, r.returned? = some p →
      r.operation.key? = some (p.statement, p.types) ∧
      ∃ r' ∈ before ++ [r], r'.HasPrepared p) ∧
    (∀ r ∈ run (.start w) os, ∀ p values, r.operation.runs? = some (p, values) →
      r.operation.faults.making = none →
        ∃ command, Executes p.name values command ∧
          r.sent = [(r.operation.connection, command)]) ∧
    (CachesStay os → HandlesStay (run (.start w) os) →
      ∀ before r after, run (.start w) os = before ++ r :: after →
        ∀ c command, (c, command) ∈ r.sent → ∀ name, command.executedName? = some name →
          ∃ p values, r.operation.runs? = some (p, values) ∧ p.name = name ∧
            Executes name values command ∧
            ∃ r' ∈ before, r'.operation.connection = c ∧ r'.HasPrepared p) := by
  refine ⟨?_, ?_, ?_, ?_⟩
  · obtain ⟨ns, heq, hpair, _⟩ := (consistent_run w os).names
    have hnodup : ns.Nodup := hpair.imp Nat.ne_of_lt
    rw [heq]
    exact hnodup.map statementName_injective
  · intro before r after h p hp
    obtain ⟨_, hkey, r', hr', hprepared, _⟩ := returned_of_run h hp
    exact ⟨hkey, r', hr', hprepared⟩
  · intro r hr p values hruns hmaking
    obtain ⟨before, after, h⟩ := List.append_of_mem hr
    obtain ⟨os₁, o, _, _, _, rfl⟩ := run_split h
    rw [step_operation] at hruns hmaking ⊢
    exact ⟨_, executes_ofPrepared _ _, sent_of_runs hruns hmaking⟩
  · intro hcaches hhandles before r after h c command hsent name hname
    obtain ⟨p, values, hruns, rfl, rfl⟩ : ∃ p values, r.operation.runs? = some (p, values) ∧
        c = r.operation.connection ∧ command = Command.ofPrepared p.name values := by
      obtain ⟨os₁, o, _, _, _, rfl⟩ := run_split h
      rw [step_operation]
      exact runs_of_sent hsent hname
    obtain ⟨r₀, hr₀, hconnection, hreturned⟩ := hhandles before r after h p values hruns
    obtain ⟨⟨n, hn⟩, r', hr', hsame, hprepared⟩ := hcaches.prepared h hr₀ hreturned
    rw [Command.executedName?_ofPrepared hn] at hname
    obtain rfl := Option.some.inj hname
    exact ⟨p, values, hruns, rfl, executes_ofPrepared _ _, r', hr', hsame.trans hconnection,
      hprepared⟩

/-- An operation without a handle, or with one that its connection returned, keeps handles in their
place. -/
theorem HandlesStay.snoc {log : List Record} {r : Record} (h : HandlesStay log)
    (hr : ∀ x ∈ r.operation.runs?, ∃ r' ∈ log,
      r'.operation.connection = r.operation.connection ∧ r'.returned? = some x.1) :
    HandlesStay (log ++ [r]) := by
  intro before r₁ after hsplit p values hruns
  rcases List.eq_nil_or_concat after with rfl | ⟨after, r₂, rfl⟩
  · obtain ⟨rfl, hlast⟩ := List.append_inj' hsplit rfl
    cases hlast
    exact hr _ hruns
  · rw [List.concat_eq_append, ← List.cons_append, ← List.append_assoc] at hsplit
    obtain ⟨hlog, _⟩ := List.append_inj' hsplit rfl
    exact h before r₁ after hlog p values hruns

/-- Two connections with a cache each. The first statement is refused and prepared again in a
transaction; the next is prepared, but its cursor cannot be closed, so it is prepared again. -/
def interleaved : List Operation :=
  [{ client := { connection := 1 }, action := .prepareCached 0 ("q", []) },
   { client := { connection := 1, inTransaction := true }, action := .prepareCached 0 ("q", []) },
   { client := { connection := 2 }, action := .prepareCached 1 ("q", ["int4"])
     faults := { closing := some .tooLarge } },
   { client := { connection := 2 }, action := .prepareCached 1 ("q", ["int4"]) },
   { client := { connection := 1 }, action := .prepareCached 0 ("q", []) }]

/-- A query on the second connection, by the handle that its cache has. -/
def queryOnSecond : Operation :=
  { client := { connection := 2 }, action := .query ⟨"sqlfn_4", "q", ["int4"]⟩ [.int 1] }

/-- A world that refuses the first statement. -/
def refusingFirst : World := { answers := [{ error := some .tooLarge }], environment := [] }

theorem executes_only_prepared_interleaved :
    CachesStay (interleaved ++ [queryOnSecond]) ∧
    HandlesStay (run (.start refusingFirst) (interleaved ++ [queryOnSecond])) ∧
    preparedNames (run (.start refusingFirst) (interleaved ++ [queryOnSecond])) =
      ["sqlfn_1", "sqlfn_2", "sqlfn_3", "sqlfn_4"] ∧
    (preparedNames (run (.start refusingFirst) (interleaved ++ [queryOnSecond]))).Nodup ∧
    ∃ r ∈ run (.start refusingFirst) interleaved, r.operation.connection = 2 ∧
      r.HasPrepared ⟨"sqlfn_4", "q", ["int4"]⟩ := by
  have hrun := run_append (.start refusingFirst) interleaved [queryOnSecond]
  have hcaches : CachesStay (interleaved ++ [queryOnSecond]) := by
    refine ⟨fun i => if i = 0 then 1 else 2, fun o ho i hi => ?_⟩
    simp only [interleaved, queryOnSecond, List.cons_append, List.nil_append, List.mem_cons,
      List.not_mem_nil, or_false] at ho
    rcases ho with rfl | rfl | rfl | rfl | rfl | rfl <;> cases hi <;> rfl
  have hhandles : HandlesStay (run (.start refusingFirst) (interleaved ++ [queryOnSecond])) := by
    have hnone : ∀ o ∈ interleaved, o.runs? = none := by decide
    rw [hrun]
    refine HandlesStay.snoc ?_ ?_
    · intro before r after hsplit p values hruns
      have hmem : r.operation ∈ interleaved := by
        rw [← run_operations (.start refusingFirst) interleaved, hsplit]
        exact List.mem_map_of_mem (by simp)
      cases (hnone _ hmem).symm.trans hruns
    · rw [step_operation]
      decide +kernel
  obtain ⟨hnodup, _, _, hexecuted⟩ :=
    executes_only_prepared refusingFirst (interleaved ++ [queryOnSecond])
  obtain ⟨p, values, hruns, _, _, r, hr, hconnection, hprepared⟩ :=
    hexecuted hcaches hhandles _ _ [] hrun 2 _
      (by rw [sent_of_runs rfl rfl]; exact List.mem_cons_self) "sqlfn_4"
      (Command.executedName?_ofPrepared (n := 4) (by decide +kernel) _)
  rw [step_operation] at hruns
  cases hruns
  exact ⟨hcaches, hhandles, by decide +kernel, hnodup, r, hr, hconnection, hprepared⟩

end Clients

end QueryBook
