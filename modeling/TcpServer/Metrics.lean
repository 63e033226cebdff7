import Mathlib.Data.List.AList
import TcpServer.ConfigLoader
import TcpServer.GuardedAccounts

/-!
# The metrics facade

`configure` and `enabled` are one access of the flag. `counter_add` and `gauge_set` test
the flag and then change their map under the lock; the getters take the lock without a
test. The maps are the two hash maps, which are never walked.

With any number of threads a getter returns what the routines that entered before it
have made of its name, and while the facade stays enabled no update is lost.
-/

namespace TcpServer.Metrics

open AtomicObjects Config GuardedSections Transition

/-- The maps behind the lock. A name that was never used is in neither of them. -/
structure Store where
  counters : AList (fun _ : Text => UInt64) := ∅
  gauges : AList (fun _ : Text => Int64) := ∅

/-- The calls of the facade, with their arguments. Names are texts, and any text is a
name. -/
inductive Request where
  | configure (cfg : MetricsConfig)
  | enabled
  | counterAdd (name : Text) (delta : UInt64)
  | gaugeSet (name : Text) (value : Int64)
  | counterGet (name : Text)
  | gaugeGet (name : Text)
deriving DecidableEq

/-- What they return. The calls that change something return nothing. -/
inductive Answer where
  | done
  | enabled (flag : Bool)
  | counter (value : UInt64)
  | gauge (value : Int64)
deriving DecidableEq

/-- An update of one map, as a routine makes it inside of the lock. -/
inductive Update where
  | add (name : Text) (delta : UInt64)
  | set (name : Text) (value : Int64)
deriving DecidableEq

/-- The value of a counter; the sum wraps around like the `uint64_t` it is. -/
def Store.counter (store : Store) (name : Text) : UInt64 := (store.counters.lookup name).getD 0

/-- The value of a gauge, and zero for one that was never set. The getter does not
make an entry. -/
def Store.gauge (store : Store) (name : Text) : Int64 := (store.gauges.lookup name).getD 0

/-- `counters_ref()[key] += delta` makes the entry with the value zero if there is none. -/
def Update.apply : Update → Store → Store
  | .add name delta, store =>
      { store with counters := store.counters.insert name (store.counter name + delta) }
  | .set name value, store => { store with gauges := store.gauges.insert name value }

/-- The facade, with `enabled_flag()` as its flag and the maps as its object. Updates
are skipped while it is disabled; the getters are not. -/
def metricsInterface : Interface Request Bool Update Store Answer where
  routine
    | .configure cfg => .store cfg.enabled .done
    | .enabled => .load .enabled
    | .counterAdd name delta => .guarded id .done [.add name delta] fun _ => .done
    | .gaugeSet name value => .guarded id .done [.set name value] fun _ => .done
    | .counterGet name =>
        .guarded (fun _ => true) .done [] fun store => .counter (store.counter name)
    | .gaugeGet name => .guarded (fun _ => true) .done [] fun store => .gauge (store.gauge name)
  act := Update.apply

/-- What a request adds to a counter. Only an addition under this name adds anything.
-/
def Request.adds (name : Text) : Request → UInt64
  | .counterAdd other delta => if other = name then delta else 0
  | .configure _ | .enabled | .gaugeSet _ _ | .counterGet _ | .gaugeGet _ => 0

/-- What a request sets a gauge to. Only a setting under this name sets anything. -/
def Request.sets (name : Text) : Request → Option Int64
  | .gaugeSet other value => if other = name then some value else none
  | .configure _ | .enabled | .counterAdd _ _ | .counterGet _ | .gaugeGet _ => none

/-- The sum of what requests add to a counter, modulo 2^64 like the counter itself. -/
def added (name : Text) : List Request → UInt64
  | [] => 0
  | request :: rest => request.adds name + added name rest

/-- What requests have set a gauge to last, if any of them has. -/
def lastSet (name : Text) (requests : List Request) : Option Int64 :=
  (requests.filterMap (Request.sets name)).getLast?

section Updates

/-- Adding to a counter changes it by the amount, modulo 2^64. A counter that nobody
has added to is zero. -/
@[simp] theorem counter_add_same (store : Store) (name : Text) (delta : UInt64) :
    ((Update.add name delta).apply store).counter name = store.counter name + delta := by
  simp [Update.apply, Store.counter]

/-- Adding to a counter changes no other counter: the map has one entry for each name.
-/
@[simp] theorem counter_add_other (store : Store) {name other : Text} (delta : UInt64)
    (different : name ≠ other) :
    ((Update.add other delta).apply store).counter name = store.counter name := by
  simp [Update.apply, Store.counter, AList.lookup_insert_ne different]

/-- A gauge that is set has that value. What it was before is forgotten. -/
@[simp] theorem gauge_set_same (store : Store) (name : Text) (value : Int64) :
    ((Update.set name value).apply store).gauge name = value := by
  simp [Update.apply, Store.gauge]

/-- Setting a gauge changes no other gauge. -/
@[simp] theorem gauge_set_other (store : Store) {name other : Text} (value : Int64)
    (different : name ≠ other) :
    ((Update.set other value).apply store).gauge name = store.gauge name := by
  simp [Update.apply, Store.gauge, AList.lookup_insert_ne different]

/-- Setting a gauge leaves the counters alone, even the one of the same name: they are
kept in two maps. -/
@[simp] theorem counter_gauge_set (store : Store) (name other : Text) (value : Int64) :
    ((Update.set other value).apply store).counter name = store.counter name := rfl

/-- Adding to a counter leaves the gauges alone, even the one of the same name. -/
@[simp] theorem gauge_counter_add (store : Store) (name other : Text) (delta : UInt64) :
    ((Update.add other delta).apply store).gauge name = store.gauge name := rfl

/-- What a routine does to a counter when it enters: it adds what its request says,
and most requests say nothing. -/
theorem entered_counter (request : Request) (store : Store) (name : Text) :
    (metricsInterface.perform (metricsInterface.body request) store).counter name =
      store.counter name + request.adds name := by
  cases request with
  | counterAdd other delta =>
    by_cases same : other = name
    · subst other
      simp [Interface.perform, Interface.body, metricsInterface, Request.adds]
    · simp [Interface.perform, Interface.body, metricsInterface, Request.adds, same, Ne.symm same]
  | _ => simp [Interface.perform, Interface.body, metricsInterface, Request.adds]

/-- What a routine does to a gauge when it enters: it sets it to what its request
says, or leaves it. -/
theorem entered_gauge (request : Request) (store : Store) (name : Text) :
    (metricsInterface.perform (metricsInterface.body request) store).gauge name =
      (request.sets name).getD (store.gauge name) := by
  cases request with
  | gaugeSet other value =>
    by_cases same : other = name
    · subst other
      simp [Interface.perform, Interface.body, metricsInterface, Request.sets]
    · simp [Interface.perform, Interface.body, metricsInterface, Request.sets, same, Ne.symm same]
  | _ => simp [Interface.perform, Interface.body, metricsInterface, Request.sets]

/-- The store behind routines that enter in a row, each doing its work as a whole. -/
def behind (requests : List Request) (store : Store) : Store :=
  requests.foldl (fun store request =>
    metricsInterface.perform (metricsInterface.body request) store) store

/-- Behind several routines a counter is the sum of what they have added to it. Proof:
by induction on the routines, from the effect of one. -/
theorem behind_counter (requests : List Request) (store : Store) (name : Text) :
    (behind requests store).counter name = store.counter name + added name requests := by
  induction requests generalizing store with
  | nil => simp [behind, added]
  | cons request rest inductionHypothesis =>
    have later := inductionHypothesis
      (metricsInterface.perform (metricsInterface.body request) store)
    rw [entered_counter, UInt64.add_assoc] at later
    simpa [behind, added] using later

/-- Behind several routines a gauge is what was set last, or what it was before all of
them. Proof: by induction on the routines, from the effect of one. -/
theorem behind_gauge (requests : List Request) (store : Store) (name : Text) :
    (behind requests store).gauge name = (lastSet name requests).getD (store.gauge name) := by
  induction requests generalizing store with
  | nil => rfl
  | cons request rest inductionHypothesis =>
    have later := inductionHypothesis
      (metricsInterface.perform (metricsInterface.body request) store)
    rw [entered_gauge] at later
    refine later.trans ?_
    cases sets : request.sets name with
    | none => simp [lastSet, sets]
    | some value => simp [lastSet, sets, List.getLast?_cons]

/-- The order of additions does not matter, so calls may be counted in another order
than they enter. -/
theorem added_perm (name : Text) {requests others : List Request} (same : requests.Perm others) :
    added name requests = added name others := by
  induction same with
  | nil => rfl
  | cons request _ inductionHypothesis =>
    simpa [added] using congrArg (request.adds name + ·) inductionHypothesis
  | swap first second rest =>
    simp only [added]
    rw [← UInt64.add_assoc, ← UInt64.add_assoc, UInt64.add_comm (second.adds name)]
  | trans _ _ left right => exact left.trans right

end Updates

section Runs

variable {T : Type} [DecidableEq T]

/-- A configuration of the facade and its callers: the maps, the flag, the mutex, and
where each caller is. -/
abbrev MetricsConfiguration (T : Type) := GuardedConfig T Request Bool Update Store Answer

/-- A mark of the facade: an effect of one of its routines on the maps, or an event.
-/
abbrev MetricsMark (T : Type) := GuardedSections.Mark T Request Answer

/-- An event of the facade: a routine is called, or returns with its answer. -/
abbrev MetricsEvent (T : Type) := GuardedSections.Event T Request Answer

/-- No call disables the facade. All other calls are free. -/
def KeepsEnabled : Request → Prop
  | .configure cfg => cfg.enabled = true
  | _ => True

/-- No call enables the facade. All other calls are free. -/
def KeepsDisabled : Request → Prop
  | .configure cfg => cfg.enabled = false
  | _ => True

/-- The requests that change a map when they are let in. -/
def Request.updates : Request → Prop
  | .counterAdd _ _ | .gaugeSet _ _ => True
  | _ => False

variable {flag : Bool} {store : Store} {config : MetricsConfiguration T}
  {longer : List (MetricsMark T ⊕ MetricsEvent T)}

/-- While the facade stays enabled, all calls have entered once all threads are idle.
Proof: no test fails, since the flag that every test reads is good. -/
theorem enabled_calls_enter
    (run : Run (markedGuarded metricsInterface T) (Permits KeepsEnabled)
      (idle T Request Update Answer true store) config longer)
    (atRest : ∀ thread, config.locals thread = .idle) :
    ((eventsOf longer).filterMap (Event.guardedCall metricsInterface)).Perm
      (entered (marksOf longer)) := by
  refine all_calls_enter (· = true) rfl ?_ ?_ run atRest
  · intro request stored answer permitted routine
    cases request with
    | configure cfg =>
      cases routine
      exact permitted
    | _ => cases routine
  · intro request passes skipped pieces answer _ routine stored good
    cases request with
    | configure _ | enabled => cases routine
    | counterAdd _ _ | gaugeSet _ _ =>
      cases routine
      exact good
    | counterGet _ | gaugeGet _ =>
      cases routine
      rfl

/-- While the facade stays disabled, no update is let in, and none enters. Proof: no
test of an update passes on the flag that it reads. -/
theorem disabled_calls_stay
    (run : Run (markedGuarded metricsInterface T) (Permits KeepsDisabled)
      (idle T Request Update Answer false store) config longer) :
    (∀ thread request, (config.locals thread).admitted = some request → ¬ request.updates) ∧
      ∀ request ∈ entered (marksOf longer), ¬ request.updates := by
  refine (tests_fail (· = false) rfl ?_ ?_ run).2
  · intro request stored answer permitted routine
    cases request with
    | configure cfg =>
      cases routine
      exact permitted
    | _ => cases routine
  · intro request passes skipped pieces answer updates routine stored bad
    cases request with
    | counterAdd _ _ | gaugeSet _ _ =>
      cases routine
      exact bad
    | _ => cases updates

/-- Without updates a store keeps its values, however often it is read. -/
theorem behind_without_updates {requests : List Request}
    (quiet : ∀ request ∈ requests, ¬ request.updates) (store : Store) :
    behind requests store = store := by
  induction requests with
  | nil => rfl
  | cons request rest inductionHypothesis =>
    have later := inductionHypothesis fun other member =>
      quiet other (List.mem_cons_of_mem _ member)
    cases request with
    | counterAdd _ _ | gaugeSet _ _ => exact absurd trivial (quiet _ (List.mem_cons_self ..))
    | _ => exact later

/-- A getter has no pieces to do inside of the mutex. It reads, and leaves the maps as
they are. -/
theorem getter_body {request : Request} (reads : ¬ request.updates) :
    metricsInterface.body request = [] := by
  cases request with
  | counterAdd _ _ | gaugeSet _ _ => exact absurd trivial reads
  | _ => rfl

/-- While the facade stays disabled, whoever is inside of the mutex has nothing left
to do, as it can only be a getter. -/
theorem disabled_unfinished
    (run : Run (markedGuarded metricsInterface T) (Permits KeepsDisabled)
      (idle T Request Update Answer false store) config longer) : unfinished config = [] := by
  obtain ⟨plain, _⟩ := guarded_runs (run_reaches run)
  cases holder : config.shared.mutex.holder with
  | none => simp only [unfinished, holder]
  | some thread =>
    have routed := run_routed plain thread
    have admits := (disabled_calls_stay run).1 thread
    simp only [unfinished, holder]
    cases standing : config.locals thread with
    | idle | called _ | entering _ _ _ => rfl
    | inside request rest answer =>
      rw [standing] at routed admits
      obtain ⟨passes, skipped, finished, routine⟩ := routed
      have nothing := getter_body (admits request rfl)
      simp only [Interface.body, routine, List.append_eq_nil_iff] at nothing
      exact nothing.2

/-- The metrics facade in front of any number of threads. In every run, while nobody holds
the lock, each counter is the sum of the additions that have entered and each gauge the
value that was set last; a getter answers so for the routines that have entered before
it; and each call has its effects between its call and its return. While the facade
stays enabled, no addition is lost once all threads are idle; while it stays disabled,
the maps do not change at all. -/
theorem metrics_exact (T : Type) [DecidableEq T] (flag : Bool) (store : Store)
    (config : MetricsConfiguration T) (longer : List (MetricsMark T ⊕ MetricsEvent T))
    (reached : Reaches (markedGuarded metricsInterface T)
      (idle T Request Update Answer flag store) config longer) :
    (config.shared.mutex.holder = none → ∀ name,
      config.shared.object.counter name =
        store.counter name + added name (entered (marksOf longer)) ∧
      config.shared.object.gauge name =
        (lastSet name (entered (marksOf longer))).getD (store.gauge name)) ∧
    (∀ before thread request answer after,
      (marksOf longer).filterMap Mark.operation =
        before ++ .performed thread request answer :: after →
      (∀ name, request = .counterGet name → answer =
        .counter (store.counter name + added name (before.filterMap Effect.request))) ∧
      ∀ name, request = .gaugeGet name → answer =
        .gauge ((lastSet name (before.filterMap Effect.request)).getD (store.gauge name))) ∧
    (∀ thread, (session metricsInterface T).run .ready
        ((marksOf longer).filterMap (ownedBy Mark.owner thread)) =
      some (sessionOf metricsInterface config.shared (config.locals thread))) ∧
    (marksOf longer).filterMap Mark.told = eventsOf longer ∧
    (flag = true → Run (markedGuarded metricsInterface T) (Permits KeepsEnabled)
        (idle T Request Update Answer flag store) config longer →
      (∀ thread, config.locals thread = .idle) →
      ∀ name, config.shared.object.counter name = store.counter name +
        added name ((eventsOf longer).filterMap (Event.guardedCall metricsInterface))) ∧
    (flag = false → Run (markedGuarded metricsInterface T) (Permits KeepsDisabled)
        (idle T Request Update Answer flag store) config longer →
      config.shared.object = store) := by
  obtain ⟨plain, effects, sessions, told, free⟩ := guarded_runs reached
  have object (unlocked : config.shared.mutex.holder = none) :
      config.shared.object = behind (entered (marksOf longer)) store := by
    have final := sections_object effects
    simp only [standsFor, free unlocked, Interface.perform, List.foldl_nil] at final
    exact final
  refine ⟨?_, ?_, sessions, told, ?_, ?_⟩
  · intro unlocked name
    rw [object unlocked, behind_counter, behind_gauge]
    exact ⟨rfl, rfl⟩
  · intro before thread request answer after split
    rw [split] at effects
    obtain ⟨passes, skipped, pieces, read, routine, answered⟩ := performed_answer effects
    constructor
    · rintro name rfl
      cases routine
      rw [answered]
      exact congrArg Answer.counter (behind_counter _ store name)
    · rintro name rfl
      cases routine
      rw [answered]
      exact congrArg Answer.gauge (behind_gauge _ store name)
  · rintro rfl run atRest name
    rw [object (rest_unlocked plain atRest), behind_counter,
      added_perm name (enabled_calls_enter run atRest)]
  · rintro rfl run
    have final := sections_object effects
    simp only [standsFor, disabled_unfinished run, Interface.perform, List.foldl_nil] at final
    exact final.trans (behind_without_updates (disabled_calls_stay run).2 store)

/-- The check of `KeepsEnabled` for a schedule, so that a run can be replayed. -/
def keepsEnabled (choice : Bool × Option Request) : Bool :=
  match choice.2 with
  | some (.configure cfg) => cfg.enabled
  | _ => true

/-- The check says what it is to check, so a replayed run meets the condition. -/
theorem keeps_enabled_sound (config : MetricsConfiguration Bool) (choice : Bool × Option Request)
    (passed : keepsEnabled choice = true) : Permits KeepsEnabled config choice := by
  rintro request called
  cases request with
  | configure cfg => simpa [keepsEnabled, called, KeepsEnabled] using passed
  | _ => trivial

/-- The name of a counter that two threads add to. -/
def accepts : Text := chars "accepts"

/-- Two threads add to one counter, the second while the first is inside, and the sum
wraps around; then the first reads it. -/
def wrappingAdditions : List (Bool × Option Request) :=
  (true, some (.counterAdd accepts 0xFFFFFFFFFFFFFFFF)) :: List.replicate 2 (true, none) ++
    (false, some (.counterAdd accepts 3)) :: (false, none) :: List.replicate 2 (true, none) ++
    List.replicate 3 (false, none) ++
    (true, some (.counterGet accepts)) :: List.replicate 3 (true, none)

/-- Both additions are in the counter, and the getter has read them. One amount is so
large that the sum wraps. -/
theorem metrics_exact_wrapping :
    ∃ (config : MetricsConfiguration Bool) (longer : List (MetricsMark Bool ⊕ MetricsEvent Bool)),
      .returned true (.counterGet accepts) (.counter 2) ∈ eventsOf longer ∧
      config.shared.object.counter accepts = ({} : Store).counter accepts +
        added accepts ((eventsOf longer).filterMap (Event.guardedCall metricsInterface)) := by
  obtain ⟨config, longer, run, observed⟩ :=
    replay_exhibits_under (markedGuarded metricsInterface Bool)
      (idle Bool Request Update Answer true {}) (fun _ choice => keepsEnabled choice)
      keeps_enabled_sound
      (fun final => decide (.returned true (.counterGet accepts) (.counter 2) ∈ eventsOf final.2) &&
        (final.1.locals true).isIdle && (final.1.locals false).isIdle)
      wrappingAdditions (by decide)
  simp only [Bool.and_eq_true, decide_eq_true_eq] at observed
  obtain ⟨⟨read, first⟩, second⟩ := observed
  have atRest : ∀ thread, config.locals thread = .idle := by
    intro thread
    cases thread with
    | true => exact idle_sound first
    | false => exact idle_sound second
  obtain ⟨_, _, _, _, complete, _⟩ :=
    metrics_exact Bool true {} config longer (run_reaches run)
  exact ⟨config, longer, read, complete rfl run atRest accepts⟩

end Runs

end TcpServer.Metrics
