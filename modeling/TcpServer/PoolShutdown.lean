import TcpServer.PoolSafety

/-!
# Shutting the worker pool down

`shutdown` stores the stop flag without a mutex, notifies both condition
variables and joins the workers; a call that finds the flag set returns at once.
Two properties of it hold in some interleavings only. Each is proved for the
runs whose steps meet a condition, and each step that breaks the condition is
shown to break the property.
-/

namespace TcpServer.Runtime

open Monitors Threads Transition

variable {T : Type} [DecidableEq T] {pool : WorkerPool}

/-! ## Wake-ups -/

/-- No worker sleeps without a notification while `shutdown` joins the workers. A
worker that did would never return. -/
def WakeupsDelivered (config : PoolConfig pool T) : Prop :=
  ∀ caller next, callerPc config caller = .shutdownJoin next → ∀ index,
    .worker index ∉ config.shared.taskLock.asleep ∧
      .worker index ∉ config.shared.resultLock.asleep

/-- The condition on one step: `shutdown` notifies a condition variable only while
no worker stands between a wait predicate that was false and its sleep. -/
def NotifiesOutsideWaits (config : PoolConfig pool T)
    (choice : ThreadId pool.numWorkers T × Choice pool.numWorkers T) : Prop :=
  ∀ caller, choice.1 = .caller caller →
    (callerPc config caller = .shutdownNotifyTask →
      ∀ index, workerPc config index ≠ .taskSleep) ∧
    (callerPc config caller = .shutdownNotifyResult →
      ∀ index done, workerPc config index ≠ .resultSleep done)

/-- A caller that has stored the stop flag and not returned, so that it is going to
join. -/
def CallerPc.stopping : CallerPc → Bool
  | .shutdownNotifyTask | .shutdownNotifyResult | .shutdownJoin _ => true
  | _ => false

/-- A caller that has notified `task_cv_` in `shutdown`. Who sleeps there now has gone
to sleep later. -/
def CallerPc.notifiedTasks : CallerPc → Bool
  | .shutdownNotifyResult | .shutdownJoin _ => true
  | _ => false

/-- A caller that has notified `result_cv_` as well, and joins. -/
def CallerPc.notifiedResults : CallerPc → Bool
  | .shutdownJoin _ => true
  | _ => false

/-- The worker has tested its condition and goes to sleep in its next step. A
notification in between is lost on it. -/
def WorkerPc.aboutToSleepOnResults : WorkerPc → Bool
  | .resultSleep _ => true
  | _ => false

section Moves

variable {shared after : Shared pool.numWorkers T} {choice : Choice pool.numWorkers T}
  {events : List (Event pool.numWorkers T)}

/-- A worker becomes a sleeper only by its own step from the sleep itself, and it
comes there only while the stop flag is not set. -/
theorem worker_move_task_asleep {index : Fin pool.numWorkers} {before own : WorkerPc}
    (move : WorkerMove pool index shared choice before after own events) :
    (before ≠ .taskSleep → after.taskLock.asleep ⊆ shared.taskLock.asleep) ∧
      (own = .taskSleep → shared.stop = false) := by
  cases move with
  | lockTasks locked =>
    exact ⟨fun _ => (Monitor.lock_cases locked).2.2.le, nofun⟩
  | taskWait running empty => exact ⟨fun _ => Finset.Subset.refl _, fun _ => running⟩
  | taskSleep => exact ⟨fun awake => absurd rfl awake, nofun⟩
  | taskWake woken => exact ⟨fun _ => Monitor.wake_subset woken, nofun⟩
  | notifyTaken => exact ⟨fun _ => Finset.empty_subset _, nofun⟩
  | _ => exact ⟨fun _ => Finset.Subset.refl _, nofun⟩

/-- The same on the side of the results. -/
theorem worker_move_result_asleep {index : Fin pool.numWorkers} {before own : WorkerPc}
    (move : WorkerMove pool index shared choice before after own events) :
    (before.aboutToSleepOnResults = false →
      after.resultLock.asleep ⊆ shared.resultLock.asleep) ∧
      (own.aboutToSleepOnResults = true → shared.stop = false) := by
  cases move with
  | lockResultsToEvict locked | lockResultsToWait locked =>
    exact ⟨fun _ => (Monitor.lock_cases locked).2.2.le, nofun⟩
  | resultWait running full => exact ⟨fun _ => Finset.Subset.refl _, fun _ => running⟩
  | resultSleep => exact ⟨nofun, nofun⟩
  | resultWake woken => exact ⟨fun _ => Monitor.wake_subset woken, nofun⟩
  | notifyPushed notified => exact ⟨fun _ => Monitor.notify_one_subset notified, nofun⟩
  | _ => exact ⟨fun _ => Finset.Subset.refl _, nofun⟩

/-- No caller puts a worker to sleep. -/
theorem caller_move_asleep {caller : T} {before own : CallerPc}
    (move : CallerMove pool caller shared choice before after own events) :
    after.taskLock.asleep ⊆ shared.taskLock.asleep ∧
      after.resultLock.asleep ⊆ shared.resultLock.asleep := by
  cases move with
  | lockTasks locked => exact ⟨(Monitor.lock_cases locked).2.2.le, Finset.Subset.refl _⟩
  | lockResults locked => exact ⟨Finset.Subset.refl _, (Monitor.lock_cases locked).2.2.le⟩
  | notifyEnqueued notified => exact ⟨Monitor.notify_one_subset notified, Finset.Subset.refl _⟩
  | notifyTasks => exact ⟨Finset.empty_subset _, Finset.Subset.refl _⟩
  | notifyPopped | notifyResults => exact ⟨Finset.Subset.refl _, Finset.empty_subset _⟩
  | _ => exact ⟨Finset.Subset.refl _, Finset.Subset.refl _⟩

/-- The stages of `shutdown`: a caller comes to each from the one before it. -/
theorem caller_move_stages {caller : T} {before own : CallerPc}
    (move : CallerMove pool caller shared choice before after own events) :
    (own.stopping = true → before.stopping = true ∨ after.stop = true) ∧
    (own.notifiedTasks = true → before.notifiedTasks = true ∨
      (before = .shutdownNotifyTask ∧ after.taskLock.asleep = ∅)) ∧
    (own.notifiedResults = true → before.notifiedResults = true ∨
      (before = .shutdownNotifyResult ∧ after.resultLock.asleep = ∅)) := by
  cases move with
  | stopFirst running => exact ⟨fun _ => .inr rfl, nofun, nofun⟩
  | notifyTasks => exact ⟨fun _ => .inl rfl, fun _ => .inr ⟨rfl, rfl⟩, nofun⟩
  | notifyResults => exact ⟨fun _ => .inl rfl, fun _ => .inl rfl, fun _ => .inr ⟨rfl, rfl⟩⟩
  | join more ended => exact ⟨fun _ => .inl rfl, fun _ => .inl rfl, fun _ => .inl rfl⟩
  | _ => exact ⟨nofun, nofun, nofun⟩

/-- What comes next in `shutdown` behind each of the two notifications. -/
theorem caller_move_next_stage {caller : T} {before own : CallerPc}
    (move : CallerMove pool caller shared choice before after own events) :
    (before = .shutdownNotifyTask → own = .shutdownNotifyResult) ∧
      (before = .shutdownNotifyResult → own = .shutdownJoin 0) := by
  cases move with
  | notifyTasks => exact ⟨fun _ => rfl, nofun⟩
  | notifyResults => exact ⟨nofun, fun _ => rfl⟩
  | _ => exact ⟨nofun, nofun⟩

end Moves

/-- What `shutdown` has achieved at each of its stages: the flag is set; then
nobody sleeps on `task_cv_` or is about to; then nobody on `result_cv_` either. -/
structure Closing (config : PoolConfig pool T) : Prop where
  stopped : ∀ caller, (callerPc config caller).stopping = true → config.shared.stop = true
  tasks : ∀ caller, (callerPc config caller).notifiedTasks = true →
    config.shared.taskLock.asleep = ∅ ∧ ∀ index, workerPc config index ≠ .taskSleep
  results : ∀ caller, (callerPc config caller).notifiedResults = true →
    config.shared.resultLock.asleep = ∅ ∧
      ∀ index, (workerPc config index).aboutToSleepOnResults = false

omit [DecidableEq T] in
/-- The later stages include the earlier. -/
theorem notified_tasks_stopping {pc : CallerPc} (notified : pc.notifiedTasks = true) :
    pc.stopping = true := by
  cases pc <;> first | rfl | cases notified

/-- Whoever has notified the results has stored the stop flag before. -/
theorem notified_results_stopping {pc : CallerPc} (notified : pc.notifiedResults = true) :
    pc.stopping = true := by
  cases pc <;> first | rfl | cases notified

/-- A worker's move keeps what `shutdown` has achieved: with the stop flag set,
no worker goes to sleep any more. -/
theorem worker_keeps_closing {config next : PoolConfig pool T} {index : Fin pool.numWorkers}
    {choice : Choice pool.numWorkers T} {events : List (Event pool.numWorkers T)}
    (closing : Closing config)
    (move : WorkerMove pool index config.shared choice (workerPc config index) next.shared
      (workerPc next index) events)
    (others : ∀ other, other ≠ index → workerPc next other = workerPc config other)
    (callers : ∀ caller, callerPc next caller = callerPc config caller) : Closing next := by
  obtain ⟨stopped, tasks, results⟩ := closing
  obtain ⟨taskSleepers, taskWaits⟩ := worker_move_task_asleep move
  obtain ⟨resultSleepers, resultWaits⟩ := worker_move_result_asleep move
  constructor
  · intro caller stops
    rw [callers caller] at stops
    rw [worker_move_stop move]
    exact stopped caller stops
  · intro caller notified
    rw [callers caller] at notified
    obtain ⟨nobody, awake⟩ := tasks caller notified
    have stop := stopped caller (notified_tasks_stopping notified)
    refine ⟨Finset.subset_empty.mp (nobody ▸ taskSleepers (awake index)), ?_⟩
    intro other sleeps
    by_cases same : other = index
    · subst other
      exact absurd (stop.symm.trans (taskWaits sleeps)) nofun
    · exact awake other (others other same ▸ sleeps)
  · intro caller notified
    rw [callers caller] at notified
    obtain ⟨nobody, awake⟩ := results caller notified
    have stop := stopped caller (notified_results_stopping notified)
    refine ⟨Finset.subset_empty.mp (nobody ▸ resultSleepers (awake index)), ?_⟩
    intro other
    by_cases same : other = index
    · subst other
      by_contra sleeps
      exact absurd (stop.symm.trans (resultWaits (Bool.not_eq_false _ ▸ sleeps))) nofun
    · rw [others other same]
      exact awake other

/-- A caller's move keeps it too, and a notification that no worker can miss
reaches the next stage. -/
theorem caller_keeps_closing {config next : PoolConfig pool T} {stepping : T}
    {choice : Choice pool.numWorkers T} {events : List (Event pool.numWorkers T)}
    (closing : Closing config)
    (permitted : NotifiesOutsideWaits config (.caller stepping, choice))
    (move : CallerMove pool stepping config.shared choice (callerPc config stepping) next.shared
      (callerPc next stepping) events)
    (workers : ∀ index, workerPc next index = workerPc config index)
    (others : ∀ other, other ≠ stepping → callerPc next other = callerPc config other) :
    Closing next := by
  obtain ⟨stopped, tasks, results⟩ := closing
  obtain ⟨missesTask, missesResult⟩ := permitted stepping rfl
  obtain ⟨taskSleepers, resultSleepers⟩ := caller_move_asleep move
  obtain ⟨stops, notifiesTasks, notifiesResults⟩ := caller_move_stages move
  have earlierTasks : ∀ caller, (callerPc config caller).notifiedTasks = true →
      next.shared.taskLock.asleep = ∅ ∧ ∀ index, workerPc next index ≠ .taskSleep := by
    intro caller notified
    obtain ⟨nobody, awake⟩ := tasks caller notified
    refine ⟨Finset.subset_empty.mp (nobody ▸ taskSleepers), ?_⟩
    intro index
    rw [workers index]
    exact awake index
  have earlierResults : ∀ caller, (callerPc config caller).notifiedResults = true →
      next.shared.resultLock.asleep = ∅ ∧
        ∀ index, (workerPc next index).aboutToSleepOnResults = false := by
    intro caller notified
    obtain ⟨nobody, awake⟩ := results caller notified
    refine ⟨Finset.subset_empty.mp (nobody ▸ resultSleepers), ?_⟩
    intro index
    rw [workers index]
    exact awake index
  constructor
  · intro caller stopping
    by_cases same : caller = stepping
    · subst caller
      exact (stops stopping).elim (fun before => caller_move_stop move (stopped stepping before)) id
    · rw [others caller same] at stopping
      exact caller_move_stop move (stopped caller stopping)
  · intro caller notified
    by_cases same : caller = stepping
    · subst caller
      rcases notifiesTasks notified with before | ⟨standing, nobody⟩
      · exact earlierTasks stepping before
      · refine ⟨nobody, ?_⟩
        intro index
        rw [workers index]
        exact missesTask standing index
    · rw [others caller same] at notified
      exact earlierTasks caller notified
  · intro caller notified
    by_cases same : caller = stepping
    · subst caller
      rcases notifiesResults notified with before | ⟨standing, nobody⟩
      · exact earlierResults stepping before
      · refine ⟨nobody, ?_⟩
        intro index
        rw [workers index]
        have awake := missesResult standing index
        cases place : workerPc config index with
        | resultSleep done => exact absurd place (awake done)
        | _ => rfl
    · rw [others caller same] at notified
      exact earlierResults caller notified

/-- Every run that meets the condition keeps the stages of `shutdown`. -/
theorem run_closing {config : PoolConfig pool T} {history : List (Event pool.numWorkers T)}
    (run : Run (poolProgram pool T).system NotifiesOutsideWaits (fresh pool T) config history) :
    Closing config := by
  refine run_invariant (fun config _ => Closing config) ?_ ?_ run
  · constructor <;> intro caller reached <;> cases reached
  · rintro config history ⟨thread, choice⟩ next events _ closing permitted stepped
    rcases pool_step_moves stepped with ⟨_, move, workers, callers⟩ |
      ⟨index, _, move, others, callers, _⟩ | ⟨stepping, rfl, move, workers, others, _⟩
    · obtain ⟨taskLock, resultLock, _, _, stop, _⟩ := constructor_move_frame move
      obtain ⟨stopped, tasks, results⟩ := closing
      constructor
      · intro caller stops
        rw [callers caller] at stops
        rw [stop]
        exact stopped caller stops
      · intro caller notified
        rw [callers caller] at notified
        simp only [taskLock, workers]
        exact tasks caller notified
      · intro caller notified
        rw [callers caller] at notified
        simp only [resultLock, workers]
        exact results caller notified
    · exact worker_keeps_closing closing move others callers
    · exact caller_keeps_closing closing permitted move workers others

/-- A worker that has found its predicate false goes to sleep in its next step. -/
theorem task_sleeper_sleeps {config : PoolConfig pool T} {index : Fin pool.numWorkers}
    (standing : workerPc config index = .taskSleep) :
    ∃ next, (poolProgram pool T).system.step config (.worker index, {}) = some (next, []) ∧
      .worker index ∈ next.shared.taskLock.asleep ∧
      ∀ caller, callerPc next caller = callerPc config caller := by
  obtain ⟨next, stepped, same, _, callers, _⟩ :=
    worker_steps (show workerStep pool index config.shared {} (workerPc config index) =
      some ({ config.shared with
        taskLock := config.shared.taskLock.sleep (.worker index) }, .taskWaiting, []) by
      rw [standing]
      rfl)
  refine ⟨next, stepped, ?_, callers⟩
  rw [same]
  exact Finset.mem_insert_self _ _

/-- The same on the side of the results. -/
theorem result_sleeper_sleeps {config : PoolConfig pool T} {index : Fin pool.numWorkers}
    {done : Ticketed HandlerResult} (standing : workerPc config index = .resultSleep done) :
    ∃ next, (poolProgram pool T).system.step config (.worker index, {}) = some (next, []) ∧
      .worker index ∈ next.shared.resultLock.asleep ∧
      ∀ caller, callerPc next caller = callerPc config caller := by
  obtain ⟨next, stepped, same, _, callers, _⟩ :=
    worker_steps (show workerStep pool index config.shared {} (workerPc config index) =
      some ({ config.shared with
        resultLock := config.shared.resultLock.sleep (.worker index) }, .resultWaiting done, []) by
      rw [standing]
      rfl)
  refine ⟨next, stepped, ?_, callers⟩
  rw [same]
  exact Finset.mem_insert_self _ _

/-- The second notification of `shutdown` reaches no sleeper of `task_cv_`. -/
theorem notify_results_misses {config : PoolConfig pool T} {caller : T}
    (standing : callerPc config caller = .shutdownNotifyResult) :
    ∃ next, (poolProgram pool T).system.step config (.caller caller, {}) = some (next, []) ∧
      next.shared.taskLock = config.shared.taskLock ∧
      callerPc next caller = .shutdownJoin 0 := by
  obtain ⟨next, stepped, same, joining⟩ :=
    caller_steps (show callerStep pool caller config.shared {} (callerPc config caller) =
      some ({ config.shared with resultLock := config.shared.resultLock.notifyAll },
        .shutdownJoin 0, []) by
      rw [standing]
      rfl)
  exact ⟨next, stepped, by rw [same], joining⟩

/-- A notification of `shutdown` that breaks the condition leaves a worker behind:
the worker goes to sleep after it, and `shutdown` waits for that worker. -/
theorem missed_wakeup {config next : PoolConfig pool T}
    {choice : ThreadId pool.numWorkers T × Choice pool.numWorkers T}
    {events : List (Event pool.numWorkers T)}
    (violated : ¬ NotifiesOutsideWaits config choice)
    (stepped : (poolProgram pool T).system.step config choice = some (next, events)) :
    ∃ final more, Reaches (poolProgram pool T).system next final more ∧
      ¬ WakeupsDelivered final := by
  obtain ⟨thread, choice⟩ := choice
  simp only [NotifiesOutsideWaits, not_forall] at violated
  obtain ⟨caller, rfl, missed⟩ := violated
  obtain ⟨move, workers, _⟩ := caller_moves stepped
  obtain ⟨afterTasks, afterResults⟩ := caller_move_next_stage move
  rcases not_and_or.mp missed with task | result
  · simp only [not_forall, Decidable.not_not] at task
    obtain ⟨standing, index, place⟩ := task
    obtain ⟨slept, first, sleeps, kept⟩ := task_sleeper_sleeps ((workers index).trans place)
    obtain ⟨final, second, same, joining⟩ :=
      notify_results_misses ((kept caller).trans (afterTasks standing))
    refine ⟨final, _, reaches_step (reaches_step Run.start first) second, ?_⟩
    intro delivered
    exact (delivered caller 0 joining index).1 (same ▸ sleeps)
  · simp only [not_forall, Decidable.not_not] at result
    obtain ⟨standing, index, done, place⟩ := result
    obtain ⟨final, first, sleeps, kept⟩ := result_sleeper_sleeps ((workers index).trans place)
    refine ⟨final, _, reaches_step Run.start first, ?_⟩
    intro delivered
    exact (delivered caller 0 ((kept caller).trans (afterResults standing)) index).2 sleeps

/-- The exact condition under which no shutdown wake-up is lost.

Sufficiency: in every run in which `shutdown` notifies a condition variable only
while no worker stands between a false wait predicate and its sleep, no worker
is an un-notified sleeper while `shutdown` joins. Necessity: each step that
breaks the condition, in any reached state, can be followed by a run to a state
in which `shutdown` waits for a worker that sleeps un-notified. -/
theorem wakeups_delivered_exact (pool : WorkerPool) (T : Type) [DecidableEq T] :
    (∀ (config : PoolConfig pool T) (history : List (Event pool.numWorkers T)),
      Run (poolProgram pool T).system NotifiesOutsideWaits (fresh pool T) config history →
        WakeupsDelivered config) ∧
    (∀ (config next : PoolConfig pool T) (history events : List (Event pool.numWorkers T))
      (choice : ThreadId pool.numWorkers T × Choice pool.numWorkers T),
      Reached pool config history → ¬ NotifiesOutsideWaits config choice →
        (poolProgram pool T).system.step config choice = some (next, events) →
        ∃ final more, Reaches (poolProgram pool T).system next final more ∧
          ¬ WakeupsDelivered final) := by
  constructor
  · intro config history run caller next joining index
    obtain ⟨_, tasks, results⟩ := run_closing run
    constructor
    · rw [(tasks caller (by rw [joining]; rfl)).1]
      exact Finset.notMem_empty _
    · rw [(results caller (by rw [joining]; rfl)).1]
      exact Finset.notMem_empty _
  · intro config next history events choice _ violated stepped
    exact missed_wakeup violated stepped

/-- The condition for the one worker and the one caller of the runs below, so that
they can be replayed. -/
def notifiesOutsideWaits (config : PoolConfig tightPool Unit) : Bool :=
  match callerPc config () with
  | .shutdownNotifyTask => workerPc config soleWorker != .taskSleep
  | .shutdownNotifyResult => !(workerPc config soleWorker).aboutToSleepOnResults
  | _ => true

/-- The check of the condition is right. -/
theorem notifies_outside_waits_sound (config : PoolConfig tightPool Unit)
    (choice : ThreadId 1 Unit × Choice 1 Unit) (passed : notifiesOutsideWaits config = true) :
    NotifiesOutsideWaits config choice := by
  intro caller _
  constructor
  · intro standing index
    rw [sole_worker index]
    simpa [notifiesOutsideWaits, standing] using passed
  · intro standing index done place
    rw [sole_worker index] at place
    simp [notifiesOutsideWaits, standing, place, WorkerPc.aboutToSleepOnResults] at passed

/-- The worker is asleep when `shutdown` notifies, and is woken. No notification is
lost. -/
def deliveredWakeup : List (ThreadId 1 Unit × Choice 1 Unit) :=
  steps .constructor 2 ++ steps (.worker soleWorker) 4 ++ calls () .shutdown 3

/-- A run that meets the condition, in which the wake-up is delivered. -/
theorem wakeups_delivered_asleep :
    ∃ (config : PoolConfig tightPool Unit) (history : List (Event 1 Unit)),
      Run (poolProgram tightPool Unit).system NotifiesOutsideWaits (fresh tightPool Unit) config
        history ∧
      callerPc config () = .shutdownJoin 0 ∧ workerPc config soleWorker = .taskWaiting ∧
      WakeupsDelivered config := by
  obtain ⟨config, history, run, observed⟩ :=
    replay_exhibits_under (poolProgram tightPool Unit).system (fresh tightPool Unit)
      (fun config _ => notifiesOutsideWaits config)
      (fun config choice passed => notifies_outside_waits_sound config choice passed)
      (fun final => decide (callerPc final.1 () = .shutdownJoin 0 ∧
        workerPc final.1 soleWorker = .taskWaiting)) deliveredWakeup (by decide)
  obtain ⟨joining, waiting⟩ := of_decide_eq_true observed
  exact ⟨config, history, run, joining, waiting,
    (wakeups_delivered_exact tightPool Unit).1 config history run⟩

/-- The worker finds its predicate false; then `shutdown` stores the flag and
notifies both condition variables; then the worker goes to sleep. -/
def lostWakeup : List (ThreadId 1 Unit × Choice 1 Unit) :=
  steps .constructor 2 ++ steps (.worker soleWorker) 3 ++ calls () .shutdown 3 ++
    steps (.worker soleWorker) 1

/-- A shutdown wake-up can be lost with one worker and one caller. -/
theorem wakeups_not_always_delivered :
    ¬ ∀ (config : PoolConfig tightPool Unit) (history : List (Event 1 Unit)),
      Reached tightPool config history → WakeupsDelivered config := by
  intro always
  obtain ⟨config, history, reached, observed⟩ :=
    replay_exhibits (poolProgram tightPool Unit).system (fresh tightPool Unit)
      (fun final => decide (callerPc final.1 () = .shutdownJoin 0 ∧
        .worker soleWorker ∈ final.1.shared.taskLock.asleep)) lostWakeup (by decide)
  obtain ⟨joining, sleeps⟩ := of_decide_eq_true observed
  exact (always config history reached () 0 joining soleWorker).1 sleeps

/-! ## Joining -/

/-- Once a call of `shutdown` has returned, every worker has returned; so no
dispatch begins any more, and results go only to callers. -/
def ShutdownJoined (config : PoolConfig pool T) (history : List (Event pool.numWorkers T)) :
    Prop :=
  (∃ caller, .shutdownReturned caller ∈ history) →
    (∀ index, workerPc config index = .returned) ∧
    ∀ choice next events,
      (poolProgram pool T).system.step config choice = some (next, events) →
      (∀ index ticket, .dispatchBegan index ticket ∉ events) ∧
      (next.shared.results = config.shared.results ∨
        ∃ caller out, events = [.popped caller out] ∧
          config.shared.results = out :: next.shared.results)

/-- The condition on one step: `shutdown` finds the stop flag set only after every
worker has returned. -/
def StopsAgainAfterReturn (config : PoolConfig pool T)
    (choice : ThreadId pool.numWorkers T × Choice pool.numWorkers T) : Prop :=
  ∀ caller, choice.1 = .caller caller → callerPc config caller = .shutdownEnter →
    config.shared.stop = true → ∀ index, workerPc config index = .returned

/-- What joining rests on: the recorded workers have returned, a joining caller
has waited for the workers before its next, and a call that has returned has
waited for all. -/
structure Joining (config : PoolConfig pool T) (history : List (Event pool.numWorkers T)) :
    Prop where
  recorded : ∀ index, index.val ∈ config.shared.returned → workerPc config index = .returned
  waited : ∀ caller next, callerPc config caller = .shutdownJoin next →
    ∀ index : Fin pool.numWorkers, index.val < next → workerPc config index = .returned
  joined : (∃ caller, .shutdownReturned caller ∈ history) →
    ∀ index, workerPc config index = .returned

section Moves

variable {shared after : Shared pool.numWorkers T} {choice : Choice pool.numWorkers T}
  {events : List (Event pool.numWorkers T)}

/-- A returned worker makes no move, and a worker is recorded in the step in which
it returns. -/
theorem worker_move_returned {index : Fin pool.numWorkers} {before own : WorkerPc}
    (move : WorkerMove pool index shared choice before after own events) :
    before ≠ .returned ∧
      ∀ value, value ∈ after.returned → value ∈ shared.returned ∨
        (value = index.val ∧ own = .returned) := by
  cases move with
  | leave | discard =>
    refine ⟨nofun, ?_⟩
    intro value member
    rcases Finset.mem_insert.mp member with same | earlier
    · exact Or.inr ⟨same, rfl⟩
    · exact Or.inl earlier
  | _ => exact ⟨nofun, fun _ member => Or.inl member⟩

/-- How a caller's move takes part in joining: it waits for one more worker, or
returns behind the last one, or finds the stop flag set. -/
theorem caller_move_joins {caller : T} {before own : CallerPc}
    (move : CallerMove pool caller shared choice before after own events) :
    after.returned = shared.returned ∧
    (∀ next, own = .shutdownJoin next → next = 0 ∨
      ∃ waited, next = waited + 1 ∧ before = .shutdownJoin waited ∧ waited ∈ shared.returned) ∧
    (∀ name, .shutdownReturned name ∈ events →
      (before = .shutdownEnter ∧ shared.stop = true) ∨
        ∃ next, before = .shutdownJoin next ∧ pool.numWorkers ≤ next) := by
  cases move with
  | notifyResults =>
    exact ⟨rfl, fun next same => .inl (CallerPc.shutdownJoin.inj same).symm, by simp⟩
  | @join waited more ended =>
    refine ⟨rfl, ?_, by simp⟩
    intro next same
    exact Or.inr ⟨waited, (CallerPc.shutdownJoin.inj same).symm, rfl, ended⟩
  | stopAgain stopped => exact ⟨rfl, nofun, fun _ _ => .inl ⟨rfl, stopped⟩⟩
  | @joined next all => exact ⟨rfl, nofun, fun _ _ => .inr ⟨next, rfl, all⟩⟩
  | @enqueue task evicted => cases evicted <;> exact ⟨rfl, nofun, by simp⟩
  | _ => exact ⟨rfl, nofun, by simp⟩

/-- A caller takes results only for itself. -/
theorem caller_move_pops {caller : T} {before own : CallerPc} (bounded : Bounded shared)
    (move : CallerMove pool caller shared choice before after own events) :
    after.results = shared.results ∨
      ∃ out, events = [.popped caller out] ∧ shared.results = out :: after.results := by
  cases move with
  | @pop out results front room => exact Or.inr ⟨out, rfl, front⟩
  | popAborts front exceeds =>
    have bound := bounded.2
    rw [front, List.length_cons] at bound
    omega
  | _ => exact Or.inl rfl

end Moves

/-- Every run that meets the condition keeps what joining rests on. A worker that has
returned makes no move, and a call returns only behind its last join, or, under the
condition, when all workers have returned. -/
theorem run_joining {config : PoolConfig pool T} {history : List (Event pool.numWorkers T)}
    (run : Run (poolProgram pool T).system StopsAgainAfterReturn (fresh pool T) config history) :
    Joining config history := by
  refine run_invariant Joining ?_ ?_ run
  · constructor
    · intro index recorded
      exact absurd recorded (Finset.notMem_empty _)
    · intro caller next joining
      cases joining
    · rintro ⟨caller, member⟩
      cases member
  · rintro config history ⟨thread, choice⟩ next events _ ⟨recorded, waited, joined⟩ permitted
      stepped
    rcases pool_step_moves stepped with ⟨rfl, move, workers, callers⟩ |
      ⟨index, rfl, move, others, callers, _⟩ | ⟨stepping, rfl, move, workers, others, _⟩
    · obtain ⟨_, _, _, _, _, _, returned⟩ := constructor_move_frame move
      have silent : ∀ caller, .shutdownReturned caller ∉ events := by
        intro caller member
        cases pool_step_emitter stepped member rfl
      constructor
      · intro other member
        rw [workers other]
        exact recorded other (returned ▸ member)
      · intro caller stage joining other before
        rw [workers other]
        exact waited caller stage ((callers caller).symm.trans joining) other before
      · rintro ⟨caller, member⟩ other
        rw [workers other]
        exact joined ⟨caller, (List.mem_append.mp member).resolve_right (silent caller)⟩ other
    · obtain ⟨active, records⟩ := worker_move_returned move
      have silent : ∀ caller, .shutdownReturned caller ∉ events := by
        intro caller member
        cases pool_step_emitter stepped member rfl
      have stays : ∀ other, workerPc config other = .returned →
          workerPc next other = .returned := by
        intro other ended
        have different : other ≠ index := fun same => active (same ▸ ended)
        rw [others other different]
        exact ended
      constructor
      · intro other member
        rcases records other.val member with earlier | ⟨same, ended⟩
        · exact stays other (recorded other earlier)
        · rw [Fin.ext same]
          exact ended
      · intro caller stage joining other before
        exact stays other (waited caller stage ((callers caller).symm.trans joining) other before)
      · rintro ⟨caller, member⟩ other
        exact stays other
          (joined ⟨caller, (List.mem_append.mp member).resolve_right (silent caller)⟩ other)
    · obtain ⟨returned, waits, returns⟩ := caller_move_joins move
      constructor
      · intro other member
        rw [workers other]
        exact recorded other (returned ▸ member)
      · intro caller stage joining other before
        rw [workers other]
        by_cases same : caller = stepping
        · subst caller
          rcases waits stage joining with rfl | ⟨earlier, rfl, standing, ended⟩
          · exact absurd before (Nat.not_lt_zero _)
          · rcases Nat.lt_succ_iff_lt_or_eq.mp before with smaller | last
            · exact waited stepping earlier standing other smaller
            · exact recorded other (last ▸ ended)
        · rw [others caller same] at joining
          exact waited caller stage joining other before
      · rintro ⟨caller, member⟩ other
        rw [workers other]
        rcases List.mem_append.mp member with earlier | now
        · exact joined ⟨caller, earlier⟩ other
        · rcases returns caller now with ⟨entering, stopped⟩ | ⟨stage, standing, all⟩
          · exact permitted stepping rfl entering stopped other
          · exact waited stepping stage standing other (Nat.lt_of_lt_of_le other.isLt all)

/-- When every worker has returned, no step begins a dispatch, and results leave
only to callers. -/
theorem joined_quiet {config next : PoolConfig pool T} {history : List (Event pool.numWorkers T)}
    {choice : ThreadId pool.numWorkers T × Choice pool.numWorkers T}
    {events : List (Event pool.numWorkers T)} (reached : Reached pool config history)
    (ended : ∀ index, workerPc config index = .returned)
    (stepped : (poolProgram pool T).system.step config choice = some (next, events)) :
    (∀ index ticket, .dispatchBegan index ticket ∉ events) ∧
      (next.shared.results = config.shared.results ∨
        ∃ caller out, events = [.popped caller out] ∧
          config.shared.results = out :: next.shared.results) := by
  obtain ⟨thread, choice⟩ := choice
  constructor
  · intro index ticket begins
    obtain rfl := pool_step_emitter stepped begins rfl
    exact absurd (ended index) (worker_move_returned (worker_moves stepped).1).1
  · rcases pool_step_moves stepped with ⟨_, move, _⟩ | ⟨index, _, move, _⟩ |
      ⟨stepping, _, move, _⟩
    · exact Or.inl (constructor_move_frame move).2.2.2.1
    · exact absurd (ended index) (worker_move_returned move).1
    · exact (caller_move_pops (run_assured reached).1 move).imp id (fun taken => ⟨stepping, taken⟩)

/-- The exact condition under which the return of `shutdown` means that the
workers are joined, for every caller.

Sufficiency: in every run in which `shutdown` finds the stop flag set only after
every worker has returned, each return of a call of `shutdown` comes after the
return of all workers. Necessity: a step that breaks the condition is the return
of a call while some worker has not returned. -/
theorem shutdown_joined_exact (pool : WorkerPool) (T : Type) [DecidableEq T] :
    (∀ (config : PoolConfig pool T) (history : List (Event pool.numWorkers T)),
      Run (poolProgram pool T).system StopsAgainAfterReturn (fresh pool T) config history →
        ShutdownJoined config history) ∧
    (∀ (config next : PoolConfig pool T) (history events : List (Event pool.numWorkers T))
      (choice : ThreadId pool.numWorkers T × Choice pool.numWorkers T),
      Reached pool config history → ¬ StopsAgainAfterReturn config choice →
        (poolProgram pool T).system.step config choice = some (next, events) →
        ¬ ShutdownJoined next (history ++ events)) := by
  constructor
  · intro config history run returned
    have ended := (run_joining run).joined returned
    refine ⟨ended, ?_⟩
    intro choice next events stepped
    exact joined_quiet (run_reaches run) ended stepped
  · rintro config next history events ⟨thread, choice⟩ _ violated stepped kept
    simp only [StopsAgainAfterReturn, not_forall] at violated
    obtain ⟨caller, rfl, entering, stopped, index, running⟩ := violated
    obtain ⟨move, workers, _⟩ := caller_moves stepped
    have returns : .shutdownReturned caller ∈ events := by
      generalize callerPc next caller = own at move
      rw [entering] at move
      generalize next.shared = after at move
      cases move with
      | stopAgain again => exact List.mem_singleton.mpr rfl
      | stopFirst first => exact absurd (stopped.symm.trans first) nofun
    have ended := (kept ⟨caller, List.mem_append_right _ returns⟩).1 index
    rw [workers index] at ended
    exact running ended

/-- The condition for the one worker and the one caller of the runs below, so that
they can be replayed. -/
def stopsAgainAfterReturn (config : PoolConfig tightPool Unit) : Bool :=
  callerPc config () != .shutdownEnter || !config.shared.stop ||
    workerPc config soleWorker == .returned

/-- The check of the condition is right. -/
theorem stops_again_after_return_sound (config : PoolConfig tightPool Unit)
    (choice : ThreadId 1 Unit × Choice 1 Unit) (passed : stopsAgainAfterReturn config = true) :
    StopsAgainAfterReturn config choice := by
  intro caller _ entering stopped index
  rw [sole_worker index]
  simpa [stopsAgainAfterReturn, entering, stopped] using passed

/-- The caller shuts the pool down twice, the second time after the first call, which
has joined the worker. -/
def repeatedShutdown : List (ThreadId 1 Unit × Choice 1 Unit) :=
  steps .constructor 2 ++ calls () .shutdown 3 ++ steps (.worker soleWorker) 4 ++
    steps (.caller ()) 2 ++ calls () .shutdown 1

/-- A run that meets the condition, in which both calls return behind the worker. -/
theorem shutdown_joined_repeated :
    ∃ (config : PoolConfig tightPool Unit) (history : List (Event 1 Unit)),
      Run (poolProgram tightPool Unit).system StopsAgainAfterReturn (fresh tightPool Unit) config
        history ∧
      history = [.stopStored (), .shutdownReturned (), .shutdownReturned ()] ∧
      workerPc config soleWorker = .returned := by
  obtain ⟨config, history, run, observed⟩ :=
    replay_exhibits_under (poolProgram tightPool Unit).system (fresh tightPool Unit)
      (fun config _ => stopsAgainAfterReturn config)
      (fun config choice passed => stops_again_after_return_sound config choice passed)
      (fun final => decide (final.2 =
        [.stopStored (), .shutdownReturned (), .shutdownReturned ()]))
      repeatedShutdown (by decide)
  have recorded : history = [.stopStored (), .shutdownReturned (), .shutdownReturned ()] :=
    of_decide_eq_true observed
  have joined := (shutdown_joined_exact tightPool Unit).1 config history run
  refine ⟨config, history, run, recorded, ?_⟩
  exact (joined ⟨(), by rw [recorded]; simp⟩).1 soleWorker

/-- While a worker dispatches, one caller stores the stop flag and a second caller
finds it set. -/
def secondShutdown : List (ThreadId 1 Bool × Choice 1 Bool) :=
  steps .constructor 2 ++ calls false (.trySubmit ⟨1, []⟩) 4 ++ steps (.worker soleWorker) 6 ++
    calls false .shutdown 1 ++ calls true .shutdown 1

/-- The second of two concurrent calls returns while a dispatch is in progress. -/
theorem shutdown_not_always_joined :
    ¬ ∀ (config : PoolConfig tightPool Bool) (history : List (Event 1 Bool)),
      Reached tightPool config history → ShutdownJoined config history := by
  intro always
  obtain ⟨config, history, reached, observed⟩ :=
    replay_exhibits (poolProgram tightPool Bool).system (fresh tightPool Bool)
      (fun final => decide (.shutdownReturned true ∈ final.2 ∧
        workerPc final.1 soleWorker = .dispatching ⟨0, ⟨1, []⟩⟩)) secondShutdown (by decide)
  obtain ⟨returned, dispatching⟩ := of_decide_eq_true observed
  have ended := (always config history reached ⟨true, returned⟩).1 soleWorker
  rw [dispatching] at ended
  cases ended

end TcpServer.Runtime
