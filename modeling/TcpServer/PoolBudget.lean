import TcpServer.PoolWakeups
import TcpServer.Progress

/-!
# The budget of the worker pool

Between two calls of its users a pool works off what it has. Its steps spend a
budget: each queued task pays for its way through a worker, each thread for the way
to the end of its call or to its next wait, and each sleeper has yet to pay for
being woken. Waking without a notification costs nothing and could go on for ever;
the steps here are those without.
-/

namespace TcpServer.Runtime

open Monitors Threads Transition

variable {T : Type} [DecidableEq T] {pool : WorkerPool}

/-- Nobody makes a new call, and nobody wakes without a notification. All else may
happen in any order. -/
def Quiet (_ : PoolConfig pool T)
    (choice : ThreadId pool.numWorkers T × Choice pool.numWorkers T) : Prop :=
  choice.2.call = none ∧ choice.2.spurious = false

/-- What a queued task costs on its way through a worker, with all the threads it may
wake. -/
def taskCost (numWorkers : Nat) : Nat := 18 + 3 * numWorkers

/-- What a worker has to pay before it is done, or sleeps on `task_cv_` again. Waking
one thread costs 3, so a `notify_all` may cost three times the number of workers. -/
def WorkerPc.cost (numWorkers : Nat) : WorkerPc → Nat
  | .returned | .aborted _ => 0
  | .taskSection | .taskSleep => 2
  | .taskTest => 3
  | .taskWaiting | .taskEnter => 4
  | .unstarted => 5
  | .resultNotify => 8
  | .resultPush _ _ => 10
  | .resultStopTest _ _ => 11
  | .resultEvict _ _ => 12
  | .resultSleep _ => 13
  | .resultTest _ => 14
  | .resultWaiting _ => 15
  | .resultEnter _ => 16
  | .dispatching _ => 17
  | .dispatchCall _ => 18
  | .taskNotify _ => 19 + 3 * numWorkers

/-- What a caller has to pay before it returns. A call that may enqueue pays for the
task, too. -/
def CallerPc.cost (numWorkers : Nat) : CallerPc → Nat
  | .idle | .aborted _ => 0
  | .submitNotify => 4
  | .submitSection _ => taskCost numWorkers + 5
  | .submitTest _ => taskCost numWorkers + 6
  | .submitEnter _ => taskCost numWorkers + 7
  | .popNotify => 3 * numWorkers + 1
  | .popSection => 3 * numWorkers + 2
  | .popEnter => 3 * numWorkers + 3
  | .shutdownJoin next => numWorkers - next + 1
  | .shutdownNotifyResult => 4 * numWorkers + 2
  | .shutdownNotifyTask => 7 * numWorkers + 3
  | .shutdownEnter => 7 * numWorkers + 4

/-- What the constructor has to pay: the workers it still starts, or those it still
joins. -/
def ConstructorPc.cost (numWorkers : Nat) : ConstructorPc → Nat
  | .constructed | .threw => 0
  | .constructing next => numWorkers - next + numWorkers + 2
  | .unwinding joined started => started - joined + 1

/-- What shared memory still has to pay: for its queues, and for the workers that
have been woken on a condition variable or never slept there. -/
def Shared.cost {numWorkers : Nat} (shared : Shared numWorkers T) : Nat :=
  taskCost numWorkers * shared.tasks.length + shared.results.length +
    3 * (numWorkers - shared.taskLock.asleep.card) +
    3 * (numWorkers - shared.resultLock.asleep.card)

/-- The whole budget: of the queues and the sleepers, of the workers, of the callers
and of the constructor. -/
def workLeft [Fintype T] (config : PoolConfig pool T) : Nat :=
  config.shared.cost + (∑ index, (workerPc config index).cost pool.numWorkers) +
    (∑ caller, (callerPc config caller).cost pool.numWorkers) +
    (constructorPc config).cost pool.numWorkers

/-- No more threads sleep than there are workers, so a notification of all wakes no
more. -/
def FewSleepers {numWorkers : Nat} (shared : Shared numWorkers T) : Prop :=
  shared.taskLock.asleep.card ≤ numWorkers ∧ shared.resultLock.asleep.card ≤ numWorkers

section Moves

variable {shared after : Shared pool.numWorkers T} {choice : Choice pool.numWorkers T}
  {events : List (Event pool.numWorkers T)}

/-- A quiet wake-up is that of a thread that has been notified; the sleepers stay. -/
theorem quiet_wake {monitor next : Monitor (ThreadId pool.numWorkers T)}
    {thread : ThreadId pool.numWorkers T} {spurious : Bool} (quiet : spurious = false)
    (woken : monitor.wake thread spurious = some next) : next.asleep = monitor.asleep := by
  obtain ⟨_, _, asleep, cause⟩ := Monitor.wake_cases woken
  rw [asleep]
  apply Finset.erase_eq_of_notMem
  intro member
  exact absurd (quiet.symm.trans (cause member)) nofun

/-- A single notification wakes one sleeper at most. -/
theorem notify_one_card {monitor next : Monitor (ThreadId pool.numWorkers T)}
    {pick : ThreadId pool.numWorkers T} (notified : monitor.notifyOne pick = some next) :
    monitor.asleep.card ≤ next.asleep.card + 1 := by
  rcases (Monitor.notify_one_cases notified).2 with ⟨nobody, _⟩ | ⟨_, woken⟩
  · rw [nobody, Finset.card_empty]
    exact Nat.zero_le _
  · rw [woken]
    have left := Finset.pred_card_le_card_erase (s := monitor.asleep) (a := pick)
    omega

/-- Every quiet move of a worker spends. Behind its wait predicate a worker finds a
task or the stop flag, so it does not come to its loop again without either. -/
theorem worker_move_spends {index : Fin pool.numWorkers} {before own : WorkerPc}
    (move : WorkerMove pool index shared choice before after own events)
    (quiet : choice.spurious = false)
    (ready : before = .taskSection → shared.stop = true ∨ shared.tasks ≠ [])
    (awake : before = .taskSleep → .worker index ∉ shared.taskLock.asleep)
    (awakeResults : ∀ done, before = .resultSleep done →
      .worker index ∉ shared.resultLock.asleep)
    (few : FewSleepers shared) (fewAfter : FewSleepers after) :
    after.cost + own.cost pool.numWorkers < shared.cost + before.cost pool.numWorkers := by
  obtain ⟨fewTasks, fewResults⟩ := few
  obtain ⟨fewTasksAfter, fewResultsAfter⟩ := fewAfter
  cases move with
  | lockTasks locked =>
    simp only [Shared.cost, WorkerPc.cost, (Monitor.lock_cases locked).2.2]
    omega
  | lockResultsToEvict locked | lockResultsToWait locked =>
    simp only [Shared.cost, WorkerPc.cost, (Monitor.lock_cases locked).2.2]
    omega
  | taskWake woken | resultWake woken =>
    simp only [Shared.cost, WorkerPc.cost, quiet_wake quiet woken]
    omega
  | taskSleep =>
    have more := Finset.card_insert_of_notMem (awake rfl)
    simp only [Monitor.sleep, more] at fewTasksAfter
    simp only [Shared.cost, WorkerPc.cost, Monitor.sleep, more]
    omega
  | @resultSleep done =>
    have more := Finset.card_insert_of_notMem (awakeResults done rfl)
    simp only [Monitor.sleep, more] at fewResultsAfter
    simp only [Shared.cost, WorkerPc.cost, Monitor.sleep, more]
    omega
  | retry empty running =>
    rcases ready rfl with stopped | pending
    · exact absurd (running.symm.trans stopped) nofun
    · exact absurd empty pending
  | take front within =>
    simp only [Shared.cost, WorkerPc.cost, Monitor.unlock, front, List.length_cons,
      Nat.mul_succ, taskCost]
    omega
  | takeAborts front exceeds =>
    simp only [Shared.cost, WorkerPc.cost, front, List.length_cons, Nat.mul_succ]
    omega
  | notifyTaken =>
    simp only [Shared.cost, WorkerPc.cost, Monitor.notifyAll, Finset.card_empty]
    omega
  | evict front full =>
    simp only [Shared.cost, WorkerPc.cost, front, List.length_cons]
    omega
  | push room =>
    simp only [Shared.cost, WorkerPc.cost, Monitor.unlock, List.length_append,
      List.length_singleton]
    omega
  | notifyPushed notified =>
    have woken := notify_one_card notified
    simp only [Shared.cost, WorkerPc.cost]
    omega
  | _ =>
    simp only [Shared.cost, WorkerPc.cost, Monitor.unlock]
    omega

/-- Every quiet move of a caller spends. The places of a call are ordered by their
cost, and what a submission adds to the shared state was part of the cost of the call.
-/
theorem caller_move_spends {caller : T} {before own : CallerPc}
    (move : CallerMove pool caller shared choice before after own events)
    (called : before ≠ .idle) (bounded : Bounded shared) (few : FewSleepers shared) :
    after.cost + own.cost pool.numWorkers < shared.cost + before.cost pool.numWorkers := by
  obtain ⟨fewTasks, fewResults⟩ := few
  cases move with
  | callSubmit | callPop | callShutdown => exact absurd rfl called
  | lockTasks locked | lockResults locked =>
    simp only [Shared.cost, CallerPc.cost, (Monitor.lock_cases locked).2.2]
    omega
  | @enqueue task evicted kept room within =>
    have longer : kept.length ≤ shared.tasks.length := by
      rcases (make_room_cases bounded.1 room).2 with ⟨_, _, oldest, _, front⟩ | ⟨_, _, rfl⟩
      · rw [front, List.length_cons]
        exact Nat.le_succ _
      · exact Nat.le_refl _
    have paid := Nat.mul_le_mul_left (taskCost pool.numWorkers) longer
    simp only [Shared.cost, CallerPc.cost, Monitor.unlock, List.length_append,
      List.length_singleton, Nat.mul_succ]
    omega
  | enqueueAborts room exceeds =>
    have fits := (make_room_cases bounded.1 room).1
    omega
  | notifyEnqueued notified =>
    have woken := notify_one_card notified
    simp only [Shared.cost, CallerPc.cost]
    omega
  | pop front room =>
    simp only [Shared.cost, CallerPc.cost, Monitor.unlock, front, List.length_cons]
    omega
  | popAborts front exceeds =>
    simp only [Shared.cost, CallerPc.cost, front, List.length_cons]
    omega
  | notifyPopped | notifyTasks =>
    simp only [Shared.cost, CallerPc.cost, Monitor.notifyAll, Finset.card_empty]
    omega
  | notifyResults =>
    simp only [Shared.cost, CallerPc.cost, Monitor.notifyAll, Finset.card_empty]
    omega
  | _ =>
    simp only [Shared.cost, CallerPc.cost, Monitor.unlock]
    omega

omit [DecidableEq T] in
/-- Every move of the constructor spends. -/
theorem constructor_move_spends {before own : ConstructorPc}
    (move : ConstructorMove pool shared choice before after own events) :
    after.cost + own.cost pool.numWorkers < shared.cost + before.cost pool.numWorkers := by
  cases move <;> simp only [Shared.cost, ConstructorPc.cost] <;> omega

/-- A worker comes into its section with a task or the stop flag in sight. -/
theorem worker_move_ready {index : Fin pool.numWorkers} {before own : WorkerPc}
    (move : WorkerMove pool index shared choice before after own events)
    (enters : own = .taskSection) : after.stop = true ∨ after.tasks ≠ [] := by
  cases move with
  | taskReady ready => exact ready
  | _ => cases enters

end Moves

section Runs

variable {config next : PoolConfig pool T} {history : List (Event pool.numWorkers T)}

/-- What a worker has seen before its section is still so inside it: it holds the
mutex of the queue, and the stop flag is never reset. -/
theorem run_ready (reached : Reached pool config history) (index : Fin pool.numWorkers)
    (inside : workerPc config index = .taskSection) :
    config.shared.stop = true ∨ config.shared.tasks ≠ [] := by
  refine run_invariant (fun config _ => ∀ index, workerPc config index = .taskSection →
    config.shared.stop = true ∨ config.shared.tasks ≠ []) ?_ ?_ reached index inside
  · intro index inside
    cases inside
  rintro config history ⟨thread, choice⟩ next events before ready _ stepped index inside
  by_cases same : thread = .worker index
  · subst thread
    exact worker_move_ready (worker_moves stepped).1 inside
  · have kept : workerPc next index = workerPc config index :=
      (system_step_cases stepped).2 (.worker index) (Ne.symm same)
    rw [kept] at inside
    have within : insideTasks (.worker index) (config.locals (.worker index)) = true := by
      change WorkerPc.insideTasks (workerPc config index) = true
      rw [inside]
      rfl
    have outside : insideTasks thread (config.locals thread) = false :=
      exclusive_outside (task_exclusion before) (.worker index) within same
    rcases pool_step_moves stepped with ⟨_, move, _⟩ | ⟨stepping, rfl, move, _⟩ |
      ⟨caller, rfl, move, _⟩
    · obtain ⟨_, _, tasks, _, stop, _⟩ := constructor_move_frame move
      rw [tasks, stop]
      exact ready index inside
    · rw [worker_move_task_queue move outside, worker_move_stop move]
      exact ready index inside
    · rw [caller_move_task_queue move outside]
      exact (ready index inside).imp_left (caller_move_stop move)

omit [DecidableEq T] in
/-- Sleepers are workers. -/
theorem workers_card {threads : Finset (ThreadId pool.numWorkers T)}
    (workers : ∀ thread ∈ threads, ∃ index, thread = .worker index) :
    threads.card ≤ pool.numWorkers := by
  classical
  have covered : threads ⊆ Finset.univ.image ThreadId.worker := by
    intro thread member
    obtain ⟨index, rfl⟩ := workers thread member
    exact Finset.mem_image_of_mem _ (Finset.mem_univ index)
  calc threads.card ≤ (Finset.univ.image
        (ThreadId.worker : Fin pool.numWorkers → ThreadId pool.numWorkers T)).card :=
        Finset.card_le_card covered
    _ ≤ (Finset.univ : Finset (Fin pool.numWorkers)).card := Finset.card_image_le
    _ = pool.numWorkers := by rw [Finset.card_univ, Fintype.card_fin]

omit [DecidableEq T] in
/-- Workers sleep at most once each, so there are no more sleepers than workers. -/
theorem sleepers_few (sleeping : Sleepers config) : FewSleepers config.shared := by
  constructor
  · apply workers_card
    intro thread member
    obtain ⟨index, same, _⟩ := sleeping.tasks thread member
    exact ⟨index, same⟩
  · apply workers_card
    intro thread member
    obtain ⟨index, _, same, _⟩ := sleeping.results thread member
    exact ⟨index, same⟩

/-- Every quiet step of a reached pool spends. The moving thread pays for what it
does to shared memory; all other threads stay where they are. -/
theorem quiet_step_spends [Fintype T]
    {choice : ThreadId pool.numWorkers T × Choice pool.numWorkers T}
    {events : List (Event pool.numWorkers T)} (reached : Reached pool config history)
    (quiet : Quiet config choice)
    (stepped : (poolProgram pool T).system.step config choice = some (next, events)) :
    workLeft next < workLeft config := by
  have sleeping := run_sleepers reached
  have few := sleepers_few sleeping
  have fewAfter := sleepers_few (run_sleepers (reaches_step reached stepped))
  obtain ⟨thread, choice⟩ := choice
  obtain ⟨uncalled, calm⟩ := quiet
  rcases pool_step_moves stepped with ⟨rfl, move, workers, callers⟩ |
    ⟨index, rfl, move, others, callers, same⟩ | ⟨caller, rfl, move, workers, others, same⟩
  · have spent := constructor_move_spends move
    simp only [workLeft, workers, callers]
    omega
  · have awake : ∀ pc, workerPc config index = pc → pc ≠ .taskWaiting →
        .worker index ∉ config.shared.taskLock.asleep := by
      rintro pc standing elsewhere asleep
      obtain ⟨other, named, waits⟩ := sleeping.tasks _ asleep
      obtain rfl := ThreadId.worker.inj named
      exact elsewhere (standing.symm.trans waits)
    have awakeResults : ∀ done, workerPc config index = .resultSleep done →
        .worker index ∉ config.shared.resultLock.asleep := by
      rintro done standing asleep
      obtain ⟨other, _, named, waits⟩ := sleeping.results _ asleep
      obtain rfl := ThreadId.worker.inj named
      exact absurd (standing.symm.trans waits) nofun
    have spent := worker_move_spends move calm (run_ready reached index)
      (fun standing => awake _ standing nofun) awakeResults few fewAfter
    have moved := sum_exchange (fun other => (workerPc config other).cost pool.numWorkers)
      (fun other => (workerPc next other).cost pool.numWorkers) index
      (fun other different => congrArg _ (others other different))
    simp only [workLeft, callers, same]
    omega
  · have called : callerPc config caller ≠ .idle := by
      intro idle
      obtain ⟨taken, _⟩ := system_step_cases stepped
      change callerStep pool caller config.shared choice (callerPc config caller) = _ at taken
      have nothing : choice.call = none := uncalled
      simp [idle, callerStep, nothing] at taken
    have spent := caller_move_spends move called (run_assured reached).1 few
    have moved := sum_exchange (fun other => (callerPc config other).cost pool.numWorkers)
      (fun other => (callerPc next other).cost pool.numWorkers) caller
      (fun other different => congrArg _ (others other different))
    simp only [workLeft, workers, same]
    omega

/-- The budget of a reached pool. That every quiet run settles is then a general fact
about budgets. -/
def quietBudget (pool : WorkerPool) (T : Type) [DecidableEq T] [Fintype T] :
    Budget (poolProgram pool T).system Quiet where
  invariant config := ∃ history, Reached pool config history
  measure := workLeft
  kept := by
    rintro config choice next events ⟨history, reached⟩ _ stepped
    exact ⟨_, reaches_step reached stepped⟩
  spent := by
    rintro config choice next events ⟨history, reached⟩ quiet stepped
    exact quiet_step_spends reached quiet stepped

end Runs

end TcpServer.Runtime
