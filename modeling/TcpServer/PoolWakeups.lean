import TcpServer.PoolConservation
import TcpServer.PoolConstruction
import TcpServer.PoolShutdown

/-!
# Wake-ups while the worker pool runs

`try_submit` notifies one sleeper after it has released the mutex, and a worker
may take a task that another was notified for. No notification is lost all the
same: while workers sleep, each queued task has a thread of its own that is going
to notify for it or to test the queue again. On the side of the results a worker
sleeps only while the queue is full or a popper still has its `notify_all` to do.

The mutex section of a worker that has found a task is not over at its test; the
task is still in the queue until the section ends.
-/

namespace TcpServer.Runtime

open Monitors Threads Transition

variable {T : Type} [DecidableEq T] {pool : WorkerPool}

/-- A worker that has been woken, or has come to its loop again, and not tested
the task predicate since. -/
def Retests (config : PoolConfig pool T) (index : Fin pool.numWorkers) : Prop :=
  workerPc config index = .taskEnter ∨ workerPc config index = .taskTest ∨
    (workerPc config index = .taskWaiting ∧ .worker index ∉ config.shared.taskLock.asleep)

/-- A thread that a queued task can count on without a further notification: a
submitter before its `notify_one`, or a worker that tests the queue again or is
about to take from it. -/
def Attends (config : PoolConfig pool T) : ThreadId pool.numWorkers T → Prop
  | .constructor => False
  | .worker index => Retests config index ∨ workerPc config index = .taskSection
  | .caller caller => callerPc config caller = .submitNotify

/-- A worker at one of the places around its test of the task predicate. It will look
at the queue before it sleeps. -/
def WorkerPc.attentive : WorkerPc → Bool
  | .taskEnter | .taskTest | .taskWaiting | .taskSection => true
  | _ => false

/-- The sleepers of both condition variables are workers that wait there. Nobody else
ever sleeps in the pool. -/
structure Sleepers (config : PoolConfig pool T) : Prop where
  tasks : ∀ thread ∈ config.shared.taskLock.asleep,
    ∃ index, thread = .worker index ∧ workerPc config index = .taskWaiting
  results : ∀ thread ∈ config.shared.resultLock.asleep,
    ∃ index done, thread = .worker index ∧ workerPc config index = .resultWaiting done

/-- Where a worker waits for room, or is about to. It has tested that there is none.
-/
def WorkerPc.awaitsRoom : WorkerPc → Bool
  | .resultTest _ | .resultSleep _ | .resultWaiting _ => true
  | _ => false

section Moves

variable {shared after : Shared pool.numWorkers T} {choice : Choice pool.numWorkers T}
  {events : List (Event pool.numWorkers T)}

/-- After a move of a worker the sleepers on `task_cv_` are the worker itself if
it has just gone to sleep, and earlier sleepers that have not been woken. -/
theorem worker_move_task_sleepers {index : Fin pool.numWorkers} {before own : WorkerPc}
    (move : WorkerMove pool index shared choice before after own events)
    {thread : ThreadId pool.numWorkers T} (asleep : thread ∈ after.taskLock.asleep) :
    (thread = .worker index ∧ own = .taskWaiting) ∨
      (thread ∈ shared.taskLock.asleep ∧ (thread = .worker index → before ≠ .taskWaiting)) := by
  cases move with
  | lockTasks locked => exact Or.inr ⟨(Monitor.lock_cases locked).2.2 ▸ asleep, nofun⟩
  | taskSleep =>
    cases Finset.mem_insert.mp asleep with
    | inl same => exact Or.inl ⟨same, rfl⟩
    | inr earlier => exact Or.inr ⟨earlier, nofun⟩
  | taskWake woken =>
    rw [(Monitor.wake_cases woken).2.2.1] at asleep
    obtain ⟨different, earlier⟩ := Finset.mem_erase.mp asleep
    exact Or.inr ⟨earlier, fun same => absurd same different⟩
  | notifyTaken => exact absurd asleep (Finset.notMem_empty _)
  | _ => exact Or.inr ⟨asleep, nofun⟩

/-- The same on the side of the results. -/
theorem worker_move_result_sleepers {index : Fin pool.numWorkers} {before own : WorkerPc}
    (move : WorkerMove pool index shared choice before after own events)
    {thread : ThreadId pool.numWorkers T} (asleep : thread ∈ after.resultLock.asleep) :
    (thread = .worker index ∧ ∃ done, own = .resultWaiting done) ∨
      (thread ∈ shared.resultLock.asleep ∧
        (thread = .worker index → ∀ done, before ≠ .resultWaiting done)) := by
  cases move with
  | lockResultsToEvict locked | lockResultsToWait locked =>
    exact Or.inr ⟨(Monitor.lock_cases locked).2.2 ▸ asleep, nofun⟩
  | @resultSleep done =>
    cases Finset.mem_insert.mp asleep with
    | inl same => exact Or.inl ⟨same, done, rfl⟩
    | inr earlier => exact Or.inr ⟨earlier, nofun⟩
  | resultWake woken =>
    rw [(Monitor.wake_cases woken).2.2.1] at asleep
    obtain ⟨different, earlier⟩ := Finset.mem_erase.mp asleep
    exact Or.inr ⟨earlier, fun same => absurd same different⟩
  | notifyPushed notified => exact Or.inr ⟨Monitor.notify_one_subset notified asleep, nofun⟩
  | _ => exact Or.inr ⟨asleep, nofun⟩

/-- A worker comes to sleep on `task_cv_` from a test that found the queue empty. -/
theorem worker_move_settles {index : Fin pool.numWorkers} {before own : WorkerPc}
    (move : WorkerMove pool index shared choice before after own events)
    (settles : own = .taskSleep) : after.tasks = [] := by
  cases move with
  | taskWait running empty => exact empty
  | _ => cases settles

/-- A worker touches the task queue only inside `task_mutex_`. -/
theorem worker_move_task_queue {index : Fin pool.numWorkers} {before own : WorkerPc}
    (move : WorkerMove pool index shared choice before after own events)
    (outside : before.insideTasks = false) : after.tasks = shared.tasks := by
  cases move <;> first | rfl | cases outside

/-- A caller touches the task queue only inside `task_mutex_`. -/
theorem caller_move_task_queue {caller : T} {before own : CallerPc}
    (move : CallerMove pool caller shared choice before after own events)
    (outside : before.insideTasks = false) : after.tasks = shared.tasks := by
  cases move <;> first | rfl | cases outside

/-- What a move of a worker means for queued tasks and their attendants: the
queue is empty, or nobody sleeps, or the worker takes one task, or it goes to
sleep, or queue and sleepers stay and it goes on attending. -/
theorem worker_move_attendance {index : Fin pool.numWorkers} {before own : WorkerPc}
    (move : WorkerMove pool index shared choice before after own events) :
    after.tasks = [] ∨ after.taskLock.asleep = ∅ ∨
    (∃ task, shared.tasks = task :: after.tasks ∧
      after.taskLock.asleep = shared.taskLock.asleep) ∨
    (before = .taskSleep ∧ after.tasks = shared.tasks) ∨
    (after.tasks = shared.tasks ∧ after.taskLock.asleep ⊆ shared.taskLock.asleep ∧
      (before.attentive = true → own = .taskTest ∨ own = .taskSection)) := by
  cases move with
  | lockTasks locked =>
    exact Or.inr (Or.inr (Or.inr (Or.inr
      ⟨rfl, (Monitor.lock_cases locked).2.2.le, fun _ => Or.inl rfl⟩)))
  | taskReady ready =>
    exact Or.inr (Or.inr (Or.inr (Or.inr ⟨rfl, Finset.Subset.refl _, fun _ => Or.inr rfl⟩)))
  | taskWait running empty => exact Or.inl empty
  | taskSleep => exact Or.inr (Or.inr (Or.inr (Or.inl ⟨rfl, rfl⟩)))
  | taskWake woken =>
    exact Or.inr (Or.inr (Or.inr (Or.inr
      ⟨rfl, Monitor.wake_subset woken, fun _ => Or.inl rfl⟩)))
  | leave empty stopped | retry empty running => exact Or.inl empty
  | @take task _ front within => exact Or.inr (Or.inr (Or.inl ⟨task, front, rfl⟩))
  | @takeAborts task _ front exceeds => exact Or.inr (Or.inr (Or.inl ⟨task, front, rfl⟩))
  | notifyTaken => exact Or.inr (Or.inl rfl)
  | _ => exact Or.inr (Or.inr (Or.inr (Or.inr ⟨rfl, Finset.Subset.refl _, nofun⟩)))

/-- The same for a caller: nobody sleeps, or it has pushed one task and is going
to notify, or it has woken a sleeper, or nothing changes. -/
theorem caller_move_attendance {caller : T} {before own : CallerPc} (bounded : Bounded shared)
    (move : CallerMove pool caller shared choice before after own events) :
    after.taskLock.asleep = ∅ ∨
    (after.taskLock.asleep = shared.taskLock.asleep ∧
      after.tasks.length ≤ shared.tasks.length + 1 ∧ before ≠ .submitNotify ∧
      own = .submitNotify) ∨
    (before = .submitNotify ∧ after.tasks = shared.tasks ∧ ∃ pick ∈ shared.taskLock.asleep,
      after.taskLock.asleep = shared.taskLock.asleep.erase pick) ∨
    (after.tasks = shared.tasks ∧ after.taskLock.asleep = shared.taskLock.asleep ∧
      before ≠ .submitNotify) := by
  cases move with
  | lockTasks locked =>
    exact Or.inr (Or.inr (Or.inr ⟨rfl, (Monitor.lock_cases locked).2.2, nofun⟩))
  | enqueue room within =>
    right
    left
    refine ⟨rfl, ?_, nofun, rfl⟩
    rcases (make_room_cases bounded.1 room).2 with ⟨_, _, oldest, _, front⟩ | ⟨_, _, rfl⟩
    · simp [front]
    · simp
  | enqueueAborts room exceeds =>
    have fits := (make_room_cases bounded.1 room).1
    omega
  | notifyEnqueued notified =>
    rcases (Monitor.notify_one_cases notified).2 with ⟨_, nobody⟩ | ⟨picked, woken⟩
    · exact Or.inl nobody
    · exact Or.inr (Or.inr (Or.inl ⟨rfl, rfl, _, picked, woken⟩))
  | notifyTasks => exact Or.inl rfl
  | _ => exact Or.inr (Or.inr (Or.inr ⟨rfl, rfl, nofun⟩))

/-- What a move of a worker means for sleepers on `result_cv_`: it makes no room
unless it is evicting; it goes to sleep only on a full queue, and it waits only
under the blocking policy. -/
theorem worker_move_room {index : Fin pool.numWorkers} {before own : WorkerPc}
    (move : WorkerMove pool index shared choice before after own events) :
    (before.evicting = false → shared.results.length ≤ after.results.length) ∧
    (∀ done, own = .resultSleep done → pool.resultCapacity ≤ after.results.length) ∧
    (∀ done, before = .resultSleep done → after.results = shared.results) ∧
    ((∀ done, before ≠ .resultSleep done) →
      after.resultLock.asleep ⊆ shared.resultLock.asleep) ∧
    (own.awaitsRoom = true → before.awaitsRoom = true ∨
      pool.options.resultQueueOverflow = .blockWorkerUntilPopped) := by
  cases move with
  | lockResultsToEvict locked =>
    exact ⟨fun _ => Nat.le_refl _, nofun, nofun, fun _ => (Monitor.lock_cases locked).2.2.le, nofun⟩
  | lockResultsToWait locked policy =>
    exact ⟨fun _ => Nat.le_refl _, nofun, nofun, fun _ => (Monitor.lock_cases locked).2.2.le,
      fun _ => Or.inr policy⟩
  | evict front full => exact ⟨nofun, nofun, nofun, fun _ => Finset.Subset.refl _, nofun⟩
  | resultWait running full =>
    exact ⟨fun _ => Nat.le_refl _, fun _ _ => full, nofun, fun _ => Finset.Subset.refl _,
      fun _ => Or.inl rfl⟩
  | @resultSleep done =>
    exact ⟨fun _ => Nat.le_refl _, nofun, fun _ _ => rfl, fun awake => absurd rfl (awake done),
      fun _ => Or.inl rfl⟩
  | resultWake woken =>
    exact ⟨fun _ => Nat.le_refl _, nofun, nofun, fun _ => Monitor.wake_subset woken,
      fun _ => Or.inl rfl⟩
  | push room =>
    refine ⟨fun _ => ?_, nofun, nofun, fun _ => Finset.Subset.refl _, nofun⟩
    rw [List.length_append]
    exact Nat.le_add_right _ _
  | notifyPushed notified =>
    exact ⟨fun _ => Nat.le_refl _, nofun, nofun, fun _ => Monitor.notify_one_subset notified, nofun⟩
  | _ => exact ⟨fun _ => Nat.le_refl _, nofun, nofun, fun _ => Finset.Subset.refl _, nofun⟩

/-- The same for a caller: it makes no room, or the queue is still full, or its
`notify_all` comes next; and its `notify_all` leaves no sleeper. -/
theorem caller_move_room {caller : T} {before own : CallerPc}
    (move : CallerMove pool caller shared choice before after own events) :
    (shared.results.length ≤ after.results.length ∨
      pool.resultCapacity ≤ after.results.length ∨ own = .popNotify) ∧
    (before = .popNotify → after.resultLock.asleep = ∅) := by
  cases move with
  | pop front room => exact ⟨Or.inr (Or.inr rfl), nofun⟩
  | popAborts front exceeds => exact ⟨Or.inr (Or.inl exceeds), nofun⟩
  | notifyPopped => exact ⟨Or.inl (Nat.le_refl _), fun _ => rfl⟩
  | _ => exact ⟨Or.inl (Nat.le_refl _), nofun⟩

end Moves

section Runs

variable {config next : PoolConfig pool T} {history : List (Event pool.numWorkers T)}

/-- In every run the sleepers are workers that wait: only a worker goes to sleep, and
it leaves its place only after it was woken. -/
theorem run_sleepers (reached : Reached pool config history) : Sleepers config := by
  refine run_invariant (fun config _ => Sleepers config) ?_ ?_ reached
  · constructor <;> intro thread asleep <;> exact absurd asleep (Finset.notMem_empty _)
  rintro config history ⟨thread, choice⟩ next events _ ⟨tasks, results⟩ _ stepped
  rcases pool_step_moves stepped with ⟨_, move, others, _⟩ | ⟨index, _, move, others, _⟩ |
    ⟨caller, _, move, others, _⟩
  · obtain ⟨taskLock, resultLock, _⟩ := constructor_move_frame move
    constructor
    · intro sleeper asleep
      obtain ⟨index, same, waits⟩ := tasks sleeper (taskLock ▸ asleep)
      exact ⟨index, same, (others index).trans waits⟩
    · intro sleeper asleep
      obtain ⟨index, done, same, waits⟩ := results sleeper (resultLock ▸ asleep)
      exact ⟨index, done, same, (others index).trans waits⟩
  · constructor
    · intro sleeper asleep
      rcases worker_move_task_sleepers move asleep with ⟨same, waits⟩ | ⟨earlier, awake⟩
      · exact ⟨index, same, waits⟩
      · obtain ⟨other, same, waits⟩ := tasks sleeper earlier
        refine ⟨other, same, (others other ?_).trans waits⟩
        rintro rfl
        exact awake same waits
    · intro sleeper asleep
      rcases worker_move_result_sleepers move asleep with ⟨same, done, waits⟩ | ⟨earlier, awake⟩
      · exact ⟨index, done, same, waits⟩
      · obtain ⟨other, done, same, waits⟩ := results sleeper earlier
        refine ⟨other, done, same, (others other ?_).trans waits⟩
        rintro rfl
        exact awake same done waits
  · obtain ⟨taskSleepers, resultSleepers⟩ := caller_move_asleep move
    constructor
    · intro sleeper asleep
      obtain ⟨index, same, waits⟩ := tasks sleeper (taskSleepers asleep)
      exact ⟨index, same, (others index).trans waits⟩
    · intro sleeper asleep
      obtain ⟨index, done, same, waits⟩ := results sleeper (resultSleepers asleep)
      exact ⟨index, done, same, (others index).trans waits⟩

/-- A worker that goes to sleep on `task_cv_` has seen an empty queue, and holds
the mutex since. -/
theorem run_settled (reached : Reached pool config history) (index : Fin pool.numWorkers)
    (settles : workerPc config index = .taskSleep) : config.shared.tasks = [] := by
  refine run_invariant (fun config _ => ∀ index, workerPc config index = .taskSleep →
    config.shared.tasks = []) ?_ ?_ reached index settles
  · intro index settles
    cases settles
  rintro config history ⟨thread, choice⟩ next events before empty _ stepped index settles
  by_cases same : thread = .worker index
  · subst thread
    exact worker_move_settles (worker_moves stepped).1 settles
  · have kept : workerPc next index = workerPc config index :=
      (system_step_cases stepped).2 (.worker index) (Ne.symm same)
    rw [kept] at settles
    have within : insideTasks (.worker index) (config.locals (.worker index)) = true := by
      change WorkerPc.insideTasks (workerPc config index) = true
      rw [settles]
      rfl
    have outside : insideTasks thread (config.locals thread) = false :=
      exclusive_outside (task_exclusion before) (.worker index) within same
    rcases pool_step_moves stepped with ⟨_, move, _⟩ | ⟨stepping, rfl, move, _⟩ |
      ⟨caller, rfl, move, _⟩
    · rw [(constructor_move_frame move).2.2.1]
      exact empty index settles
    · rw [worker_move_task_queue move outside]
      exact empty index settles
    · rw [caller_move_task_queue move outside]
      exact empty index settles

omit [DecidableEq T] in
/-- A thread whose place is kept goes on attending, unless it has fallen asleep. -/
theorem attends_kept {thread : ThreadId pool.numWorkers T}
    (kept : next.locals thread = config.locals thread)
    (awake : thread ∈ next.shared.taskLock.asleep → thread ∈ config.shared.taskLock.asleep)
    (attends : Attends config thread) : Attends next thread := by
  cases thread with
  | constructor => exact attends
  | caller caller => exact kept.trans attends
  | worker index =>
    have same : workerPc next index = workerPc config index := kept
    rcases attends with (enters | tests | ⟨waits, woken⟩) | takes
    · exact Or.inl (Or.inl (same.trans enters))
    · exact Or.inl (Or.inr (Or.inl (same.trans tests)))
    · exact Or.inl (Or.inr (Or.inr ⟨same.trans waits, fun asleep => woken (awake asleep)⟩))
    · exact Or.inr (same.trans takes)

omit [DecidableEq T] in
/-- Attending workers are at the places around the test. -/
theorem attends_attentive {index : Fin pool.numWorkers} (attends : Attends config (.worker index)) :
    (workerPc config index).attentive = true := by
  rcases attends with (standing | standing | ⟨standing, _⟩) | standing <;> rw [standing] <;> rfl

/-- While workers sleep, each queued task has an attendant of its own: somebody who
takes it, or who is going to notify. -/
def TasksAttended (config : PoolConfig pool T) : Prop :=
  config.shared.taskLock.asleep.Nonempty → Covered config.shared.tasks.length (Attends config)

/-- A worker's move keeps the tasks attended. It takes a task and leaves the others to
whoever was notified for them, or it goes to sleep on an empty queue. -/
theorem worker_keeps_attended {index : Fin pool.numWorkers} {choice : Choice pool.numWorkers T}
    {events : List (Event pool.numWorkers T)} (attended : TasksAttended config)
    (settled : workerPc config index = .taskSleep → config.shared.tasks = [])
    (move : WorkerMove pool index config.shared choice (workerPc config index) next.shared
      (workerPc next index) events)
    (others : ∀ thread, thread ≠ .worker index → next.locals thread = config.locals thread) :
    TasksAttended next := by
  intro sleepers
  rcases worker_move_attendance move with empty | nobody | ⟨task, front, same⟩ | ⟨settles, same⟩ |
    ⟨same, fewer, attentive⟩
  · rw [empty]
    exact covered_zero _
  · exact absurd nobody sleepers.ne_empty
  · have covered := attended (same ▸ sleepers)
    rw [front, List.length_cons] at covered
    apply covered_lose covered
    intro other different
    exact attends_kept (others other different) (fun asleep => same ▸ asleep)
  · rw [same, settled settles]
    exact covered_zero _
  · have covered := attended (sleepers.mono fewer)
    rw [same]
    apply covered_mono covered
    intro thread attends
    by_cases stepping : thread = .worker index
    · subst thread
      rcases attentive (attends_attentive attends) with tests | takes
      · exact Or.inl (Or.inr (Or.inl tests))
      · exact Or.inr takes
    · exact attends_kept (others thread stepping) (fun asleep => fewer asleep) attends

/-- A caller's move keeps the tasks attended: a pushed task is attended by its
submitter, who hands that on to the worker it wakes. -/
theorem caller_keeps_attended {caller : T} {choice : Choice pool.numWorkers T}
    {events : List (Event pool.numWorkers T)} (attended : TasksAttended config)
    (bounded : Bounded config.shared) (sleeping : Sleepers config)
    (move : CallerMove pool caller config.shared choice (callerPc config caller) next.shared
      (callerPc next caller) events)
    (others : ∀ thread, thread ≠ .caller caller → next.locals thread = config.locals thread) :
    TasksAttended next := by
  intro sleepers
  rcases caller_move_attendance bounded move with nobody | ⟨same, longer, before, submits⟩ |
    ⟨submits, same, pick, picked, woken⟩ | ⟨same, awake, before⟩
  · exact absurd nobody sleepers.ne_empty
  · have absent : ¬ Attends config (.caller caller) := before
    have joins : Attends next (.caller caller) := submits
    have remain : ∀ other, Attends config other → Attends next other := by
      intro other attends
      by_cases stepping : other = .caller caller
      · subst other
        exact submits
      · exact attends_kept (others other stepping) (fun asleep => same ▸ asleep) attends
    obtain ⟨servers, enough, serve⟩ :=
      covered_gain (attended (same ▸ sleepers)) absent joins remain
    exact ⟨servers, longer.trans enough, serve⟩
  · have covered := attended ⟨pick, picked⟩
    obtain ⟨index, rfl, waits⟩ := sleeping.tasks pick picked
    have stays : workerPc next index = .taskWaiting := (others (.worker index) nofun).trans waits
    rw [same]
    have absent : ¬ Attends config (.worker index) := by
      rintro ((standing | standing | ⟨_, awake⟩) | standing)
      · exact absurd (waits.symm.trans standing) nofun
      · exact absurd (waits.symm.trans standing) nofun
      · exact awake picked
      · exact absurd (waits.symm.trans standing) nofun
    have joins : Attends next (.worker index) := by
      refine Or.inl (Or.inr (Or.inr ⟨stays, ?_⟩))
      rw [woken]
      exact Finset.notMem_erase _ _
    apply covered_exchange covered absent joins
    intro other different
    apply attends_kept (others other different)
    intro asleep
    rw [woken] at asleep
    exact Finset.mem_of_mem_erase asleep
  · rw [same]
    apply covered_mono (attended (awake ▸ sleepers))
    intro other attends
    by_cases stepping : other = .caller caller
    · subst other
      exact absurd attends before
    · exact attends_kept (others other stepping) (fun asleep => awake ▸ asleep) attends

/-- In every run queued tasks are attended while workers sleep. -/
theorem run_attended (reached : Reached pool config history) : TasksAttended config := by
  refine run_invariant (fun config _ => TasksAttended config) ?_ ?_ reached
  · rintro ⟨thread, asleep⟩
    exact absurd asleep (Finset.notMem_empty _)
  rintro config history ⟨thread, choice⟩ next events before attended _ stepped
  have others := (system_step_cases stepped).2
  rcases pool_step_moves stepped with ⟨rfl, move, _⟩ | ⟨index, rfl, move, _⟩ |
    ⟨caller, rfl, move, _⟩
  · obtain ⟨taskLock, _, tasks, _⟩ := constructor_move_frame move
    intro sleepers
    rw [tasks]
    apply covered_mono (attended (taskLock ▸ sleepers))
    intro other attends
    by_cases stepping : other = .constructor
    · subst other
      exact attends
    · exact attends_kept (others other stepping) (fun asleep => taskLock ▸ asleep) attends
  · exact worker_keeps_attended attended (run_settled before index) move others
  · exact caller_keeps_attended attended (run_assured before).1 (run_sleepers before) move others

/-- What sleepers on `result_cv_` rest on. A worker waits for room only under the
blocking policy; one that goes to sleep has seen the queue full; and while one
sleeps the queue is full, or a popper has its `notify_all` still to do. -/
structure RoomAwaited (config : PoolConfig pool T) : Prop where
  blocking : ∀ index, (workerPc config index).awaitsRoom = true →
    pool.options.resultQueueOverflow = .blockWorkerUntilPopped
  full : ∀ index done, workerPc config index = .resultSleep done →
    pool.resultCapacity ≤ config.shared.results.length
  awaited : config.shared.resultLock.asleep.Nonempty →
    pool.resultCapacity ≤ config.shared.results.length ∨
      ∃ caller, callerPc config caller = .popNotify

/-- A worker that has seen the result queue full holds its mutex, so a step of
another thread leaves the queue alone. -/
theorem full_queue_kept {thread : ThreadId pool.numWorkers T} {choice : Choice pool.numWorkers T}
    {events : List (Event pool.numWorkers T)} (reached : Reached pool config history)
    (stepped : (poolProgram pool T).system.step config (thread, choice) = some (next, events))
    {index : Fin pool.numWorkers} (different : thread ≠ .worker index)
    {done : Ticketed HandlerResult} (standing : workerPc config index = .resultSleep done) :
    next.shared.results = config.shared.results := by
  have within : insideResults (.worker index) (config.locals (.worker index)) = true := by
    change WorkerPc.insideResults (workerPc config index) = true
    rw [standing]
    rfl
  have outside : insideResults thread (config.locals thread) = false :=
    exclusive_outside (result_exclusion reached) (.worker index) within different
  rcases pool_step_moves stepped with ⟨_, move, _⟩ | ⟨stepping, rfl, move, _⟩ |
    ⟨caller, rfl, move, _⟩
  · exact (constructor_move_frame move).2.2.2.1
  · exact worker_move_results move outside
  · exact caller_move_results move outside

/-- A worker's move keeps sleepers on `result_cv_` behind a full queue. Evicting
makes room too, but never while a worker sleeps: the policies exclude each other. -/
theorem worker_keeps_awaited {index : Fin pool.numWorkers} {choice : Choice pool.numWorkers T}
    {events : List (Event pool.numWorkers T)} (rests : RoomAwaited config)
    (sleeping : Sleepers config) (losses : Losses config history)
    (move : WorkerMove pool index config.shared choice (workerPc config index) next.shared
      (workerPc next index) events)
    (callers : ∀ caller, callerPc next caller = callerPc config caller)
    (sleepers : next.shared.resultLock.asleep.Nonempty) :
    pool.resultCapacity ≤ next.shared.results.length ∨
      ∃ caller, callerPc next caller = .popNotify := by
  obtain ⟨grows, _, settles, fewer, _⟩ := worker_move_room move
  by_cases going : ∃ done, workerPc config index = .resultSleep done
  · obtain ⟨done, standing⟩ := going
    left
    rw [settles done standing]
    exact rests.full index done standing
  · have earlier : config.shared.resultLock.asleep.Nonempty :=
      sleepers.mono (fewer (fun done standing => going ⟨done, standing⟩))
    cases rests.awaited earlier with
    | inr popping =>
      obtain ⟨caller, notifies⟩ := popping
      exact Or.inr ⟨caller, (callers caller).trans notifies⟩
    | inl full =>
      left
      apply full.trans
      apply grows
      by_contra evicts
      obtain ⟨sleeper, asleep⟩ := earlier
      obtain ⟨other, done, _, waits⟩ := sleeping.results sleeper asleep
      have blocks := rests.blocking other (by rw [waits]; rfl)
      have drops := losses.evicting index (Bool.not_eq_false _ ▸ evicts)
      exact absurd (drops.symm.trans blocks) nofun

/-- In every run sleepers on `result_cv_` rest on a full queue or a popper. A worker
sleeps after it has found the queue full, and every pop that makes room is followed by
a notification. -/
theorem run_room_awaited (reached : Reached pool config history) : RoomAwaited config := by
  refine run_invariant (fun config _ => RoomAwaited config) ?_ ?_ reached
  · refine ⟨nofun, nofun, ?_⟩
    rintro ⟨thread, asleep⟩
    exact absurd asleep (Finset.notMem_empty _)
  rintro config history ⟨thread, choice⟩ next events before rests _ stepped
  rcases pool_step_moves stepped with ⟨rfl, move, workers, callers⟩ |
    ⟨index, rfl, move, others, callers, _⟩ | ⟨caller, rfl, move, workers, others, _⟩
  · obtain ⟨_, resultLock, _, results, _⟩ := constructor_move_frame move
    constructor
    · intro index awaits
      exact rests.blocking index (workers index ▸ awaits)
    · intro index done standing
      rw [results]
      exact rests.full index done (workers index ▸ standing)
    · intro sleepers
      rw [results]
      apply (rests.awaited (resultLock ▸ sleepers)).imp_right
      rintro ⟨caller, notifies⟩
      exact ⟨caller, (callers caller).trans notifies⟩
  · obtain ⟨_, settles, _, _, waits⟩ := worker_move_room move
    constructor
    · intro other awaits
      by_cases same : other = index
      · subst other
        exact (waits awaits).elim (rests.blocking index) id
      · exact rests.blocking other (others other same ▸ awaits)
    · intro other done standing
      by_cases same : other = index
      · subst other
        exact settles done standing
      · have stood := (others other same).symm.trans standing
        have different : (ThreadId.worker index : ThreadId pool.numWorkers T) ≠ .worker other := by
          intro equal
          exact same (ThreadId.worker.inj equal).symm
        rw [full_queue_kept before stepped different stood]
        exact rests.full other done stood
    · exact worker_keeps_awaited rests (run_sleepers before) (run_losses before) move callers
  · obtain ⟨grows, notifies⟩ := caller_move_room move
    constructor
    · intro index awaits
      exact rests.blocking index (workers index ▸ awaits)
    · intro index done standing
      have stood := (workers index).symm.trans standing
      rw [full_queue_kept before stepped nofun stood]
      exact rests.full index done stood
    · intro sleepers
      cases rests.awaited (sleepers.mono (caller_move_asleep move).2) with
      | inl full =>
        rcases grows with longer | stillFull | popped
        · exact Or.inl (full.trans longer)
        · exact Or.inl stillFull
        · exact Or.inr ⟨caller, popped⟩
      | inr popping =>
        obtain ⟨popper, standing⟩ := popping
        by_cases same : popper = caller
        · subst popper
          exact absurd (notifies standing) sleepers.ne_empty
        · exact Or.inr ⟨popper, (others popper same).trans standing⟩

/-- Attendants that neither notify nor test the queue again are in the middle of
one mutex section, so there is one of them at most. -/
theorem attendants_inside (reached : Reached pool config history)
    (notified : ∀ caller, callerPc config caller ≠ .submitNotify)
    (tested : ∀ index, ¬ Retests config index) {thread : ThreadId pool.numWorkers T}
    (attends : Attends config thread) :
    ∃ index, thread = .worker index ∧ workerPc config index = .taskSection ∧
      config.shared.taskLock.holder = some (.worker index) := by
  cases thread with
  | constructor => exact False.elim attends
  | caller caller => exact absurd attends (notified caller)
  | worker index =>
    cases attends with
    | inl retests => exact absurd retests (tested index)
    | inr takes =>
      refine ⟨index, rfl, takes, (task_exclusion reached (.worker index)).mp ?_⟩
      change WorkerPc.insideTasks (workerPc config index) = true
      rw [takes]
      rfl

/-- No lost wake-up while running, for every pool and every interleaving.

Take a reached state in which no submitter is between its push and its
`notify_one`, and no worker is between being woken, or coming to its loop again,
and its next test of the task predicate. If some worker sleeps on `task_cv_`, the
task queue is empty whenever `task_mutex_` is free; inside a section, it is empty
or holds the one task that the worker there has found and is about to take.

In every reached state in which no popper is between its pop and its `notify_all`,
a worker sleeps on `result_cv_` only if the result queue is full. -/
theorem wakeups_not_lost (pool : WorkerPool) (T : Type) [DecidableEq T]
    (config : PoolConfig pool T) (history : List (Event pool.numWorkers T))
    (reached : Reached pool config history) :
    ((∀ caller, callerPc config caller ≠ .submitNotify) → (∀ index, ¬ Retests config index) →
      ∀ sleeper, .worker sleeper ∈ config.shared.taskLock.asleep →
        (config.shared.taskLock.holder = none → config.shared.tasks = []) ∧
        (config.shared.tasks = [] ∨ ∃ index task, workerPc config index = .taskSection ∧
          config.shared.taskLock.holder = some (.worker index) ∧ config.shared.tasks = [task])) ∧
    ((∀ caller, callerPc config caller ≠ .popNotify) →
      ∀ sleeper, .worker sleeper ∈ config.shared.resultLock.asleep →
        pool.resultCapacity ≤ config.shared.results.length) := by
  constructor
  · intro notified tested sleeper asleep
    obtain ⟨servers, enough, serve⟩ := run_attended reached ⟨_, asleep⟩
    by_cases nobody : servers = ∅
    · have empty : config.shared.tasks = [] := by
        rw [nobody, Finset.card_empty] at enough
        exact List.eq_nil_of_length_eq_zero (Nat.le_zero.mp enough)
      exact ⟨fun _ => empty, Or.inl empty⟩
    · obtain ⟨thread, member⟩ := Finset.nonempty_iff_ne_empty.mpr nobody
      obtain ⟨index, rfl, takes, holds⟩ :=
        attendants_inside reached notified tested (serve thread member)
      have only : servers ⊆ {.worker index} := by
        intro other also
        obtain ⟨second, rfl, _, alsoHolds⟩ :=
          attendants_inside reached notified tested (serve other also)
        exact Finset.mem_singleton.mpr (Option.some.inj (alsoHolds.symm.trans holds))
      have short : config.shared.tasks.length ≤ 1 :=
        enough.trans ((Finset.card_le_card only).trans_eq (Finset.card_singleton _))
      refine ⟨fun free => absurd (free.symm.trans holds) nofun, ?_⟩
      match tasks : config.shared.tasks, short with
      | [], _ => exact Or.inl rfl
      | [task], _ => exact Or.inr ⟨index, task, takes, holds, rfl⟩
  · intro notified sleeper asleep
    cases (run_room_awaited reached).awaited ⟨_, asleep⟩ with
    | inl full => exact full
    | inr popping =>
      obtain ⟨caller, standing⟩ := popping
      exact absurd standing (notified caller)

end Runs

/-- Both workers go to sleep on `task_cv_`; one task is submitted, and the worker
that its `notify_one` wakes takes the mutex and tests the predicate. -/
def foundInSection : List (ThreadId 2 Unit × Choice 2 Unit) :=
  steps .constructor 3 ++ steps (.worker 0) 4 ++ steps (.worker 1) 4 ++
    calls () (.trySubmit ⟨1, []⟩) 3 ++ [(.caller (), { pick := .worker 0 })] ++
    steps (.worker 0) 2

/-- Without its exception the law fails. The pool runs, nobody is about to notify
and nobody is about to test, one worker sleeps on `task_cv_`, and the queue is not
empty: the other worker has found the task and still holds the mutex. -/
theorem wakeup_found_in_section :
    ∃ (config : PoolConfig pairPool Unit) (history : List (Event 2 Unit)),
      Reached pairPool config history ∧ config.shared.stop = false ∧
      (∀ caller, callerPc config caller ≠ .submitNotify) ∧
      (∀ index, ¬ Retests config index) ∧
      (∃ sleeper, .worker sleeper ∈ config.shared.taskLock.asleep) ∧
      config.shared.tasks ≠ [] := by
  obtain ⟨config, history, reached, observed⟩ :=
    replay_exhibits (poolProgram pairPool Unit).system (fresh pairPool Unit)
      (fun final => decide (final.1.shared.stop = false ∧ callerPc final.1 () = .idle ∧
        workerPc final.1 ⟨0, Nat.zero_lt_two⟩ = .taskSection ∧
        workerPc final.1 ⟨1, Nat.one_lt_two⟩ = .taskWaiting ∧
        .worker ⟨1, Nat.one_lt_two⟩ ∈ final.1.shared.taskLock.asleep ∧
        final.1.shared.tasks ≠ [])) foundInSection (by decide)
  obtain ⟨running, idle, first, second, onTasks, queued⟩ := of_decide_eq_true observed
  refine ⟨config, history, reached, running, fun caller => by simp [idle], ?_, ⟨_, onTasks⟩,
    queued⟩
  intro index
  match index with
  | ⟨0, _⟩ => simp [Retests, first]
  | ⟨1, _⟩ => simp [Retests, second, onTasks]

/-- Two tasks go to the second worker, which finds no room for its second result;
the first worker then finds no task. -/
def bothAsleep : List (ThreadId 2 Unit × Choice 2 Unit) :=
  steps .constructor 3 ++ calls () (.trySubmit ⟨1, []⟩) 4 ++ steps (.worker 1) 12 ++
    calls () (.trySubmit ⟨2, []⟩) 4 ++ steps (.worker 1) 9 ++ steps (.worker 0) 4

/-- A reached state in which one worker sleeps on each condition variable. -/
theorem wakeups_not_lost_both_asleep :
    ∃ (config : PoolConfig pairPool Unit) (history : List (Event 2 Unit)),
      Reached pairPool config history ∧
      (∃ sleeper, .worker sleeper ∈ config.shared.taskLock.asleep) ∧
      (∃ sleeper, .worker sleeper ∈ config.shared.resultLock.asleep) ∧
      config.shared.tasks = [] ∧ pairPool.resultCapacity ≤ config.shared.results.length := by
  obtain ⟨config, history, reached, observed⟩ :=
    replay_exhibits (poolProgram pairPool Unit).system (fresh pairPool Unit)
      (fun final => decide (callerPc final.1 () = .idle ∧
        workerPc final.1 ⟨0, Nat.zero_lt_two⟩ = .taskWaiting ∧
        workerPc final.1 ⟨1, Nat.one_lt_two⟩ = .resultWaiting ⟨1, ⟨2, .ok []⟩⟩ ∧
        .worker ⟨0, Nat.zero_lt_two⟩ ∈ final.1.shared.taskLock.asleep ∧
        .worker ⟨1, Nat.one_lt_two⟩ ∈ final.1.shared.resultLock.asleep ∧
        final.1.shared.taskLock.holder = none)) bothAsleep (by decide)
  obtain ⟨idle, first, second, onTasks, onResults, free⟩ := of_decide_eq_true observed
  obtain ⟨tasks, results⟩ := wakeups_not_lost pairPool Unit config history reached
  have tested : ∀ index, ¬ Retests config index := by
    intro index
    match index with
    | ⟨0, _⟩ => simp [Retests, first, onTasks]
    | ⟨1, _⟩ => simp [Retests, second]
  refine ⟨config, history, reached, ⟨_, onTasks⟩, ⟨_, onResults⟩, ?_, ?_⟩
  · exact (tasks (fun caller => by simp [idle]) tested _ onTasks).1 free
  · exact results (fun caller => by simp [idle]) _ onResults

end TcpServer.Runtime
