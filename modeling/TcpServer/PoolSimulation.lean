import TcpServer.AtomicPool

/-!
# The worker pool refines the atomic pool

While a thread is inside a mutex, the queue behind it is what that thread makes of it,
and every other thread leaves it alone. So each step is the operation of the atomic pool
that it is marked with, or none.
-/

namespace TcpServer.Runtime

open AtomicObjects Monitors Threads Transition

variable {T : Type} [DecidableEq T] {pool : WorkerPool}

section Queues

variable {config next : PoolConfig pool T} {thread : ThreadId pool.numWorkers T}

omit [DecidableEq T] in
/-- The task that is being admitted, as an elimination of the holder. The lemmas on
locks are stated in this form. -/
theorem admitted_elim (config : PoolConfig pool T) :
    admitted config = config.shared.taskLock.holder.elim none fun thread =>
      admitting pool config.shared thread (config.locals thread) := by
  unfold admitted
  cases config.shared.taskLock.holder <;> rfl

omit [DecidableEq T] in
/-- The result that is being stored, as an elimination of the holder of the other
lock. -/
theorem stored_elim (config : PoolConfig pool T) :
    stored config = config.shared.resultLock.holder.elim none fun thread =>
      storing thread (config.locals thread) := by
  unfold stored
  cases config.shared.resultLock.holder <;> rfl

omit [DecidableEq T] in
/-- Nothing is admitted outside of the mutex. -/
theorem admitting_outside (shared : Shared pool.numWorkers T)
    (own : Local pool.numWorkers T thread) (outside : insideTasks thread own = false) :
    admitting pool shared thread own = none := by
  cases thread with
  | constructor | worker _ => rfl
  | caller _ =>
    cases own with
    | submitSection task => cases outside
    | _ => rfl

omit [DecidableEq T] in
/-- What a thread admits depends on the queue and on the next ticket only. -/
theorem admitting_same {shared after : Shared pool.numWorkers T}
    (own : Local pool.numWorkers T thread) (tasks : after.tasks = shared.tasks)
    (accepted : after.accepted = shared.accepted) :
    admitting pool after thread own = admitting pool shared thread own := by
  cases thread with
  | constructor | worker _ => rfl
  | caller _ =>
    cases own with
    | submitSection task => simp only [admitting, CallerPc.admitting, tasks, accepted]
    | _ => rfl

omit [DecidableEq T] in
/-- Nothing is stored outside of the mutex. -/
theorem storing_outside (own : Local pool.numWorkers T thread)
    (outside : insideResults thread own = false) : storing thread own = none := by
  cases thread with
  | constructor | caller _ => rfl
  | worker _ =>
    cases own with
    | resultPush done madeRoom => cases outside
    | _ => rfl

omit [DecidableEq T] in
/-- What is admitted, behind a step of `thread`: inside the mutex it is what this thread
admits; otherwise nothing has changed. -/
theorem admitted_step
    (exclusive : insideTasks thread (config.locals thread) = true ↔
      config.shared.taskLock.holder = some thread)
    (disciplined : Disciplined config.shared.taskLock.holder next.shared.taskLock.holder thread
      (insideTasks thread (config.locals thread)) (insideTasks thread (next.locals thread)))
    (kept : ∀ other, other ≠ thread → next.locals other = config.locals other)
    (frame : insideTasks thread (config.locals thread) = false →
      next.shared.tasks = config.shared.tasks ∧ next.shared.accepted = config.shared.accepted ∧
        admitting pool next.shared thread (next.locals thread) = none) :
    (insideTasks thread (config.locals thread) = true →
      admitted config = admitting pool config.shared thread (config.locals thread) ∧
      admitted next = admitting pool next.shared thread (next.locals thread)) ∧
    (insideTasks thread (config.locals thread) = false → admitted next = admitted config) := by
  have held := held_step none
    (fun other => admitting pool config.shared other (config.locals other))
    (fun other => admitting pool next.shared other (next.locals other)) exclusive disciplined
    fun outside _ other different => by
      obtain ⟨tasks, accepted, _⟩ := frame outside
      rw [kept other different, admitting_same _ tasks accepted]
  rw [← admitted_elim, ← admitted_elim] at held
  constructor
  · intro inside
    simp only [inside, Bool.true_or, ↓reduceIte] at held
    refine ⟨held.1, held.2.trans ?_⟩
    split
    · rfl
    · rename_i outside
      exact (admitting_outside _ _ (Bool.eq_false_iff.mpr outside)).symm
  · intro outside
    obtain ⟨_, _, nothing⟩ := frame outside
    cases enters : insideTasks thread (next.locals thread) with
    | true =>
      simp only [outside, enters, Bool.false_or, Bool.false_eq_true, ↓reduceIte] at held
      rw [held.1, held.2, nothing]
    | false =>
      simp only [outside, enters, Bool.or_self, Bool.false_eq_true, ↓reduceIte] at held
      exact held

omit [DecidableEq T] in
/-- The same for what is stored. Only the thread inside of the lock of the results can
change it, and it is that thread that steps. -/
theorem stored_step
    (exclusive : insideResults thread (config.locals thread) = true ↔
      config.shared.resultLock.holder = some thread)
    (disciplined : Disciplined config.shared.resultLock.holder next.shared.resultLock.holder thread
      (insideResults thread (config.locals thread)) (insideResults thread (next.locals thread)))
    (kept : ∀ other, other ≠ thread → next.locals other = config.locals other)
    (frame : insideResults thread (config.locals thread) = false →
      storing thread (next.locals thread) = none) :
    (insideResults thread (config.locals thread) = true →
      stored config = storing thread (config.locals thread) ∧
      stored next = storing thread (next.locals thread)) ∧
    (insideResults thread (config.locals thread) = false → stored next = stored config) := by
  have held := held_step none (fun other => storing other (config.locals other))
    (fun other => storing other (next.locals other)) exclusive disciplined
    fun _ _ other different => by rw [kept other different]
  rw [← stored_elim, ← stored_elim] at held
  constructor
  · intro inside
    simp only [inside, Bool.true_or, ↓reduceIte] at held
    refine ⟨held.1, held.2.trans ?_⟩
    split
    · rfl
    · rename_i outside
      exact (storing_outside _ (Bool.eq_false_iff.mpr outside)).symm
  · intro outside
    cases enters : insideResults thread (next.locals thread) with
    | true =>
      simp only [outside, enters, Bool.false_or, Bool.false_eq_true, ↓reduceIte] at held
      rw [held.1, held.2, frame outside]
    | false =>
      simp only [outside, enters, Bool.or_self, Bool.false_eq_true, ↓reduceIte] at held
      exact held

end Queues

section Moves

variable {shared after : Shared pool.numWorkers T} {choice : Choice pool.numWorkers T}
  {events : List (Event pool.numWorkers T)}

/-- A worker touches the task queue only inside `task_mutex_`. -/
theorem worker_move_task_frame {index : Fin pool.numWorkers} {before own : WorkerPc}
    (move : WorkerMove pool index shared choice before after own events) :
    (before.insideTasks = false → after.tasks = shared.tasks) ∧
      after.accepted = shared.accepted := by
  cases move <;> simp [WorkerPc.insideTasks]

/-- What a worker has in hand when it enters `result_mutex_` is not stored yet. -/
theorem worker_move_storing {index : Fin pool.numWorkers} {before own : WorkerPc}
    (move : WorkerMove pool index shared choice before after own events)
    (outside : before.insideResults = false) :
    own.storing = none := by
  cases move <;> first | rfl | cases outside

/-- What the atomic pool knows of a worker: its hand, and the queue behind each mutex
that the worker is in. -/
structure WorkerStands (state : AtomicPool pool.numWorkers) (shared : Shared pool.numWorkers T)
    (index : Fin pool.numWorkers) (own : WorkerPc) : Prop where
  stopped : state.stopped = shared.stop
  hand : state.hands index = own.hand
  tasks : own.insideTasks = true → state.pending = shared.tasks
  results : own.insideResults = true →
    state.completed = shared.results ++
      own.storing.toList

/-- The atomic pool behind a move of a worker, told from the place that it leaves and
the one that it reaches. -/
def workerBehind (state : AtomicPool pool.numWorkers) (after : Shared pool.numWorkers T)
    (index : Fin pool.numWorkers) (before own : WorkerPc) : AtomicPool pool.numWorkers where
  stopped := state.stopped
  pending := if before.insideTasks then after.tasks else state.pending
  issued := state.issued
  hands := Function.update state.hands index own.hand
  completed := if before.insideResults then
      after.results ++ own.storing.toList
    else state.completed

omit [DecidableEq T] in
/-- A worker that keeps its hand changes none. -/
theorem worker_stands_kept {state : AtomicPool pool.numWorkers} {index : Fin pool.numWorkers}
    {own : WorkerPc} (stands : WorkerStands state shared index own) :
    Function.update state.hands index own.hand = state.hands := by
  rw [← stands.hand]
  exact Function.update_eq_self index state.hands

omit [DecidableEq T] in
/-- A worker that changes nothing of this has done nothing to the atomic pool. -/
theorem worker_behind_same {state : AtomicPool pool.numWorkers} {index : Fin pool.numWorkers}
    {before own : WorkerPc} (stands : WorkerStands state shared index before)
    (hand : own.hand = before.hand)
    (tasks : before.insideTasks = true → after.tasks = shared.tasks)
    (results : before.insideResults = true →
      after.results ++ own.storing.toList =
        shared.results ++ before.storing.toList) :
    workerBehind state after index before own = state := by
  obtain ⟨stopped, pending, issued, hands, completed⟩ := state
  have pendingSame : (if before.insideTasks then after.tasks else pending) = pending := by
    split
    · rename_i inside
      rw [tasks inside, ← stands.tasks inside]
    · rfl
  have completedSame : (if before.insideResults then
      after.results ++ own.storing.toList
      else completed) = completed := by
    split
    · rename_i inside
      rw [results inside, ← stands.results inside]
    · rfl
  have handSame : Function.update hands index own.hand = hands := by
    rw [hand]
    exact worker_stands_kept stands
  simp only [workerBehind, pendingSame, completedSame, handSame]

/-- Results are evicted only under the policy that says so. The place of a worker
would allow it under either. -/
def WorkerPc.licensed (pool : WorkerPool) : WorkerPc → Prop
  | .resultEvict _ _ => pool.options.resultQueueOverflow = .dropOldestCompletedResult
  | _ => True

/-- A move of a worker keeps to the policy. -/
theorem worker_move_licensed {index : Fin pool.numWorkers} {before own : WorkerPc}
    (move : WorkerMove pool index shared choice before after own events)
    (licensed : before.licensed pool) : own.licensed pool := by
  cases move with
  | lockResultsToEvict locked policy => exact policy
  | evict => exact licensed
  | _ => trivial

/-- A move of a worker is the operation that it is marked with, or none. Most moves
only touch locks and places, and change nothing of what the pool stands for. -/
theorem worker_move_simulates {index : Fin pool.numWorkers} {before own : WorkerPc}
    {state : AtomicPool pool.numWorkers} (stands : WorkerStands state shared index before)
    (licensed : before.licensed pool) (assured : before.assured shared)
    (move : WorkerMove pool index shared choice before after own events)
    (never : ∀ inside, own ≠ .aborted inside) :
    (atomicPool pool T).run state
        ((workerMarks pool index shared before).filterMap Mark.operation) =
      some (workerBehind state after index before own) := by
  have silent (marks : workerMarks pool index shared before = [])
      (same : workerBehind state after index before own = state) :
      (atomicPool pool T).run state
          ((workerMarks pool index shared before).filterMap Mark.operation) =
        some (workerBehind state after index before own) := by
    rw [marks, same]
    rfl
  have marked (operation : Operation pool.numWorkers T)
      (marks : workerMarks pool index shared before = [.effect operation])
      (applied : (atomicPool pool T).apply state operation =
        some (workerBehind state after index before own)) :
      (atomicPool pool T).run state
          ((workerMarks pool index shared before).filterMap Mark.operation) =
        some (workerBehind state after index before own) := by
    rw [marks]
    exact (run_single _ state operation).trans applied
  have hand := stands.hand
  have stopped := stands.stopped
  have tasksSame := stands.tasks
  have resultsSame := stands.results
  cases move with
  | leave empty | retry empty =>
    refine silent (by simp [workerMarks, empty]) ?_
    exact worker_behind_same stands rfl (fun _ => rfl) (fun _ => rfl)
  | take front =>
    refine marked (.take index) (by simp [workerMarks, front]) ?_
    have pending := (tasksSame rfl).trans front
    simp only [atomicPool, hand, pending]
    rfl
  | dispatched =>
    refine marked (.dispatch index) rfl ?_
    simp only [atomicPool, hand]
    rfl
  | @evict done madeRoom oldest results front full =>
    have policy : pool.options.resultQueueOverflow = .dropOldestCompletedResult := licensed
    have completed : state.completed = oldest :: results := by
      simpa [WorkerPc.storing, front] using resultsSame rfl
    rw [front] at full
    refine marked (.evict index) (by simpa [workerMarks, front] using full) ?_
    simp only [atomicPool, hand, WorkerPc.hand, completed, policy, full, and_self, ↓reduceIte]
    have kept := worker_stands_kept stands
    simp only [WorkerPc.hand] at kept
    simp [workerBehind, WorkerPc.insideTasks, WorkerPc.insideResults, WorkerPc.hand,
      WorkerPc.storing, kept]
  | evicted room =>
    refine silent (by simp [workerMarks, room]) ?_
    exact worker_behind_same stands rfl (fun _ => rfl) (fun _ => rfl)
  | discard stop =>
    refine marked (.discard index) (by simp [workerMarks, stop]) ?_
    simp only [atomicPool, hand, WorkerPc.hand, stopped, stop, ↓reduceIte]
    have completed := resultsSame rfl
    simp only [WorkerPc.storing, Option.toList_none, List.append_nil] at completed
    simp [workerBehind, AtomicPool.give, WorkerPc.insideTasks, WorkerPc.insideResults,
      WorkerPc.hand, WorkerPc.storing, completed]
  | goOn running =>
    have completed : state.completed = shared.results := by
      simpa [WorkerPc.storing] using resultsSame rfl
    have room : shared.results.length < pool.resultCapacity :=
      assured.resolve_left (by simp [running])
    refine marked (.store index) (by simp [workerMarks, running]) ?_
    simp only [atomicPool, hand, WorkerPc.hand, stopped, running, completed, room, and_self,
      ↓reduceIte]
    simp [workerBehind, AtomicPool.give, WorkerPc.insideTasks, WorkerPc.insideResults,
      WorkerPc.hand, WorkerPc.storing, stopped, running]
  | push room =>
    refine silent rfl ?_
    exact worker_behind_same stands rfl (fun _ => rfl) (fun _ => by simp [WorkerPc.storing])
  | takeAborts | evictAborts | pushAborts => exact absurd rfl (never _)
  | _ =>
    exact silent rfl (worker_behind_same stands rfl (fun _ => rfl) (fun _ => rfl))

omit [DecidableEq T] in
/-- The number of tickets behind a caller that may be admitting a task. The ticket
counts from the admission on. -/
def CallerPc.issued (pool : WorkerPool) (shared : Shared pool.numWorkers T)
    (own : CallerPc) : Nat :=
  shared.accepted + if (own.admitting pool shared).isSome then 1 else 0

/-- What the atomic pool knows of a caller. Inside of the lock it knows the queue that
the caller is bound to leave. -/
structure CallerStands (state : AtomicPool pool.numWorkers) (shared : Shared pool.numWorkers T)
    (own : CallerPc) : Prop where
  stopped : state.stopped = shared.stop
  tasks : own.insideTasks = true → state.pending = (own.admitting pool shared).getD shared.tasks
  issued : own.insideTasks = true → state.issued = own.issued pool shared
  results : own.insideResults = true → state.completed = shared.results

/-- The atomic pool behind a move of a caller, told from the place that it leaves and
the one that it reaches. -/
def callerBehind (state : AtomicPool pool.numWorkers) (after : Shared pool.numWorkers T)
    (before own : CallerPc) : AtomicPool pool.numWorkers where
  stopped := after.stop
  pending := if before.insideTasks then (own.admitting pool after).getD after.tasks
    else state.pending
  issued := if before.insideTasks then own.issued pool after else state.issued
  hands := state.hands
  completed := if before.insideResults then after.results else state.completed

omit [DecidableEq T] in
/-- A caller that changes nothing of this has done nothing to the atomic pool. -/
theorem caller_behind_same {state : AtomicPool pool.numWorkers} {before own : CallerPc}
    (stands : CallerStands state shared before) (stop : after.stop = shared.stop)
    (tasks : before.insideTasks = true →
      (own.admitting pool after).getD after.tasks =
        (before.admitting pool shared).getD shared.tasks)
    (issued : before.insideTasks = true → own.issued pool after = before.issued pool shared)
    (results : before.insideResults = true → after.results = shared.results) :
    callerBehind state after before own = state := by
  obtain ⟨stopped, pending, given, hands, completed⟩ := state
  have pendingSame : (if before.insideTasks then (own.admitting pool after).getD after.tasks
      else pending) = pending := by
    split
    · rename_i inside
      rw [tasks inside, ← stands.tasks inside]
    · rfl
  have issuedSame : (if before.insideTasks then own.issued pool after else given) = given := by
    split
    · rename_i inside
      rw [issued inside, ← stands.issued inside]
    · rfl
  have completedSame : (if before.insideResults then after.results else completed) =
      completed := by
    split
    · rename_i inside
      rw [results inside, ← stands.results inside]
    · rfl
  have stoppedSame : after.stop = stopped := stop.trans stands.stopped.symm
  simp only [callerBehind, pendingSame, issuedSame, completedSame, stoppedSame]

/-- A move of a caller is the operation that it is marked with, or none. A submission
takes effect when it is admitted, so the enqueueing itself is a silent move that makes
the queue catch up. -/
theorem caller_move_simulates {caller : T} {before own : CallerPc}
    {state : AtomicPool pool.numWorkers} (stands : CallerStands state shared before)
    (move : CallerMove pool caller shared choice before after own events)
    (never : ∀ inside, own ≠ .aborted inside) :
    (atomicPool pool T).run state
        ((callerMarks pool caller shared choice before).filterMap Mark.operation) =
      some (callerBehind state after before own) := by
  have silent (marks : (callerMarks pool caller shared choice before).filterMap Mark.operation = [])
      (same : callerBehind state after before own = state) :
      (atomicPool pool T).run state
          ((callerMarks pool caller shared choice before).filterMap Mark.operation) =
        some (callerBehind state after before own) := by
    rw [marks, same]
    rfl
  have marked (operation : Operation pool.numWorkers T)
      (marks : (callerMarks pool caller shared choice before).filterMap Mark.operation =
        [operation])
      (applied : (atomicPool pool T).apply state operation =
        some (callerBehind state after before own)) :
      (atomicPool pool T).run state
          ((callerMarks pool caller shared choice before).filterMap Mark.operation) =
        some (callerBehind state after before own) := by
    rw [marks]
    exact (run_single _ state operation).trans applied
  have unchanged (operation : Operation pool.numWorkers T)
      (marks : (callerMarks pool caller shared choice before).filterMap Mark.operation =
        [operation])
      (applied : (atomicPool pool T).apply state operation = some state)
      (same : callerBehind state after before own = state) :
      (atomicPool pool T).run state
          ((callerMarks pool caller shared choice before).filterMap Mark.operation) =
        some (callerBehind state after before own) :=
    marked operation marks (applied.trans (congrArg some same.symm))
  have stopped := stands.stopped
  have tasksSame := stands.tasks
  have issuedSame := stands.issued
  have resultsSame := stands.results
  cases move with
  | @refuseStopped task stop =>
    have refused : state.enqueue pool task = none := by
      simp only [AtomicPool.enqueue, stopped, stop, ↓reduceIte]
    refine unchanged (.submit caller task false) (by simp [callerMarks, stop, Mark.operation]) ?_
      (caller_behind_same stands rfl (fun _ => rfl) (fun _ => rfl) (fun _ => rfl))
    simp only [atomicPool, refused, Bool.false_eq_true, ↓reduceIte]
  | @goOn task running =>
    have marks : (callerMarks pool caller shared choice (.submitTest task)).filterMap
        Mark.operation = [.submit caller task (makeRoom pool shared.tasks).isSome] := by
      simp [callerMarks, running, Mark.operation]
    have pending : state.pending = shared.tasks := tasksSame rfl
    have issued : state.issued = shared.accepted := issuedSame rfl
    cases room : makeRoom pool shared.tasks with
    | none =>
      have refused : state.enqueue pool task = none := by
        simp only [AtomicPool.enqueue, stopped, running, pending, room, Bool.false_eq_true,
          ↓reduceIte, Option.map_none]
      refine unchanged _ marks ?_
        (caller_behind_same stands rfl (fun _ => ?_) (fun _ => ?_) (fun _ => rfl))
      · simp only [atomicPool, refused, room, Option.isSome_none, Bool.false_eq_true, ↓reduceIte]
      · simp only [CallerPc.admitting, room, Option.map_none]
      · simp only [CallerPc.issued, CallerPc.admitting, room, Option.map_none, Option.isSome_none,
          Bool.false_eq_true, ↓reduceIte]
    | some kept =>
      have enqueued : state.enqueue pool task = some { state with
          pending := kept.2 ++ [⟨state.issued, task⟩], issued := state.issued + 1 } := by
        simp only [AtomicPool.enqueue, stopped, running, pending, room, Bool.false_eq_true,
          ↓reduceIte, Option.map_some]
      refine marked _ marks ?_
      simp only [atomicPool, enqueued, room, Option.isSome_some, ↓reduceIte]
      simp [callerBehind, CallerPc.insideTasks, CallerPc.insideResults, CallerPc.admitting,
        CallerPc.issued, room, issued, stopped]
  | refuseFull full =>
    refine silent (by simp [callerMarks, full, Mark.operation]) ?_
    refine caller_behind_same stands rfl (fun _ => ?_) (fun _ => ?_) (fun _ => rfl)
    · simp [CallerPc.admitting, full]
    · simp [CallerPc.issued, CallerPc.admitting, full]
  | enqueue room =>
    refine silent (by simp [callerMarks, room, Mark.operation]) ?_
    refine caller_behind_same stands rfl (fun _ => ?_) (fun _ => ?_) (fun _ => rfl)
    · simp [CallerPc.admitting, room]
    · simp [CallerPc.issued, CallerPc.admitting, room]
  | popNothing empty =>
    refine marked (.pop caller none) (by simp [callerMarks, empty, Mark.operation]) ?_
    have completed := (resultsSame rfl).trans empty
    simp only [atomicPool, completed, List.head?_nil, ↓reduceIte, List.tail_nil]
    simp [callerBehind, CallerPc.insideTasks, CallerPc.insideResults, empty, stopped]
  | @pop out results front =>
    refine marked (.pop caller (some out))
      (by simp [callerMarks, front, Mark.operation]) ?_
    have completed := (resultsSame rfl).trans front
    simp only [atomicPool, completed, List.head?_cons, ↓reduceIte, List.tail_cons]
    simp [callerBehind, CallerPc.insideTasks, CallerPc.insideResults, stopped]
  | stopAgain stop =>
    refine marked (.stop caller) (by simp [callerMarks, stop, Mark.operation]) ?_
    simp [atomicPool, callerBehind, stop, CallerPc.insideTasks, CallerPc.insideResults]
  | stopFirst running =>
    refine marked (.stop caller) (by simp [callerMarks, running, Mark.operation]) ?_
    simp [atomicPool, callerBehind, CallerPc.insideTasks, CallerPc.insideResults]
  | enqueueAborts | popAborts => exact absurd rfl (never _)
  | callSubmit | callPop | callShutdown =>
    refine silent ?_
      (caller_behind_same stands rfl (fun _ => rfl) (fun _ => rfl) (fun _ => rfl))
    cases called : choice.call <;> simp [callerMarks, called, Mark.operation]
  | join more =>
    exact silent (by simp [callerMarks, more])
      (caller_behind_same stands rfl (fun _ => rfl) (fun _ => rfl) (fun _ => rfl))
  | joined all =>
    refine silent ?_
      (caller_behind_same stands rfl (fun _ => rfl) (fun _ => rfl) (fun _ => rfl))
    simp [callerMarks, Nat.not_lt_of_le all, Mark.operation]
  | _ =>
    exact silent rfl (caller_behind_same stands rfl (fun _ => rfl) (fun _ => rfl) (fun _ => rfl))

/-- A caller touches the task queue only inside `task_mutex_`, and has admitted nothing
when it enters. -/
theorem caller_move_task_frame {caller : T} {before own : CallerPc}
    (move : CallerMove pool caller shared choice before after own events)
    (outside : before.insideTasks = false) :
    after.tasks = shared.tasks ∧ after.accepted = shared.accepted ∧
      own.admitting pool after = none := by
  cases move <;> first | exact ⟨rfl, rfl, rfl⟩ | cases outside

end Moves

section Steps

variable {config next : PoolConfig pool T} {history events : List (Event pool.numWorkers T)}
  {thread : ThreadId pool.numWorkers T} {choice : Choice pool.numWorkers T}

/-- The task queue in a step of `thread`: what it makes of it inside the mutex, and the
same queue otherwise. -/
theorem pool_step_admitted (reached : Reached pool config history)
    (stepped : (poolProgram pool T).system.step config (thread, choice) = some (next, events)) :
    (insideTasks thread (config.locals thread) = true →
      admitted config = admitting pool config.shared thread (config.locals thread) ∧
      admitted next = admitting pool next.shared thread (next.locals thread)) ∧
    (insideTasks thread (config.locals thread) = false →
      next.shared.tasks = config.shared.tasks ∧ next.shared.accepted = config.shared.accepted ∧
      admitted next = admitted config) := by
  obtain ⟨taken, kept⟩ := system_step_cases stepped
  have exclusive := task_exclusion reached thread
  cases thread with
  | constructor =>
    obtain ⟨lock, _, tasks, _, _, accepted, _⟩ :=
      constructor_move_frame (constructor_step_move taken)
    have behind := admitted_step exclusive (Or.inl ⟨congrArg Monitor.holder lock, rfl⟩) kept
      (fun _ => ⟨tasks, accepted, rfl⟩)
    exact ⟨behind.1, fun outside => ⟨tasks, accepted, behind.2 outside⟩⟩
  | worker index =>
    have move := worker_step_move taken
    obtain ⟨tasks, accepted⟩ := worker_move_task_frame move
    have behind := admitted_step exclusive (worker_move_task_lock move) kept
      (fun outside => ⟨tasks outside, accepted, rfl⟩)
    exact ⟨behind.1, fun outside => ⟨tasks outside, accepted, behind.2 outside⟩⟩
  | caller caller =>
    have move := caller_step_move taken
    have frame := caller_move_task_frame move
    have behind := admitted_step exclusive (caller_move_task_lock move) kept frame
    exact ⟨behind.1, fun outside =>
      ⟨(frame outside).1, (frame outside).2.1, behind.2 outside⟩⟩

/-- The same for the result queue. -/
theorem pool_step_stored (reached : Reached pool config history)
    (stepped : (poolProgram pool T).system.step config (thread, choice) = some (next, events)) :
    (insideResults thread (config.locals thread) = true →
      stored config = storing thread (config.locals thread) ∧
      stored next = storing thread (next.locals thread)) ∧
    (insideResults thread (config.locals thread) = false →
      next.shared.results = config.shared.results ∧ stored next = stored config) := by
  obtain ⟨taken, kept⟩ := system_step_cases stepped
  have exclusive := result_exclusion reached thread
  cases thread with
  | constructor =>
    obtain ⟨_, lock, _, results, _⟩ := constructor_move_frame (constructor_step_move taken)
    have behind := stored_step exclusive (Or.inl ⟨congrArg Monitor.holder lock, rfl⟩) kept
      (fun _ => rfl)
    exact ⟨behind.1, fun outside => ⟨results, behind.2 outside⟩⟩
  | worker index =>
    have move := worker_step_move taken
    have behind := stored_step exclusive (worker_move_result_lock move) kept
      (worker_move_storing move)
    exact ⟨behind.1, fun outside => ⟨worker_move_results move outside, behind.2 outside⟩⟩
  | caller caller =>
    have move := caller_step_move taken
    have behind := stored_step exclusive (caller_move_result_lock move) kept (fun _ => rfl)
    exact ⟨behind.1, fun outside => ⟨caller_move_results move outside, behind.2 outside⟩⟩

/-- Results are evicted only under the policy, in every run. -/
theorem run_licensed (reached : Reached pool config history) (index : Fin pool.numWorkers) :
    (workerPc config index).licensed pool := by
  refine run_invariant (fun config _ => ∀ index, (workerPc config index).licensed pool)
    ?_ ?_ reached index
  · intro index
    trivial
  rintro config history ⟨thread, choice⟩ next events _ licensed _ stepped index
  rcases pool_step_moves stepped with ⟨_, _, kept, _⟩ | ⟨stepping, _, move, kept, _⟩ |
    ⟨_, _, _, kept, _⟩
  · exact kept index ▸ licensed index
  · by_cases same : index = stepping
    · subst index
      exact worker_move_licensed move (licensed stepping)
    · exact kept index same ▸ licensed index
  · exact kept index ▸ licensed index

/-- The constructor does nothing to the atomic pool. -/
theorem constructor_stands (reached : Reached pool config history)
    (stepped : (poolProgram pool T).system.step config (.constructor, choice) =
      some (next, events)) : standsFor next = standsFor config := by
  obtain ⟨move, workers, _⟩ := constructor_moves stepped
  obtain ⟨_, _, _, _, stop, _⟩ := constructor_move_frame move
  obtain ⟨tasks, accepted, admittedSame⟩ := (pool_step_admitted reached stepped).2 rfl
  obtain ⟨results, storedSame⟩ := (pool_step_stored reached stepped).2 rfl
  simp only [standsFor, stop, tasks, accepted, admittedSame, results, storedSame, workers]

/-- What the atomic pool knows of a worker. -/
theorem worker_stands (reached : Reached pool config history) {index : Fin pool.numWorkers}
    (stepped : (poolProgram pool T).system.step config (.worker index, choice) =
      some (next, events)) :
    WorkerStands (standsFor config) config.shared index (workerPc config index) where
  stopped := rfl
  hand := rfl
  tasks inside := by
    have nothing := ((pool_step_admitted reached stepped).1 inside).1
    simp only [standsFor, nothing, admitting, Option.getD_none]
  results inside := by
    have own := ((pool_step_stored reached stepped).1 inside).1
    simp only [standsFor, own]
    rfl

/-- The configuration behind a step of a worker stands for the atomic pool behind it.
The five fields are checked one by one; what is admitted or stored by others is theirs
and stays. -/
theorem worker_behind_stands (reached : Reached pool config history)
    {index : Fin pool.numWorkers}
    (stepped : (poolProgram pool T).system.step config (.worker index, choice) =
      some (next, events)) :
    standsFor next = workerBehind (standsFor config) next.shared index (workerPc config index)
      (workerPc next index) := by
  obtain ⟨move, others, _⟩ := worker_moves stepped
  have tasks := pool_step_admitted reached stepped
  have results := pool_step_stored reached stepped
  simp only [standsFor, workerBehind, AtomicPool.mk.injEq]
  refine ⟨worker_move_stop move, ?_, ?_, ?_, ?_⟩
  · cases inside : (workerPc config index).insideTasks with
    | true =>
      have nothing := (tasks.1 inside).2
      simp only [nothing, admitting, Option.getD_none, ↓reduceIte]
    | false =>
      obtain ⟨same, _, admittedSame⟩ := tasks.2 inside
      simp only [same, admittedSame, Bool.false_eq_true, ↓reduceIte]
  · cases inside : (workerPc config index).insideTasks with
    | true =>
      obtain ⟨before, behind⟩ := tasks.1 inside
      simp only [before, behind, admitting, (worker_move_task_frame move).2]
    | false =>
      obtain ⟨_, accepted, admittedSame⟩ := tasks.2 inside
      simp only [accepted, admittedSame]
  · funext other
    by_cases same : other = index
    · subst other
      rw [Function.update_self]
    · rw [Function.update_of_ne same, others other same]
  · cases inside : (workerPc config index).insideResults with
    | true =>
      have own := (results.1 inside).2
      simp only [own, ↓reduceIte]
      rfl
    | false =>
      obtain ⟨same, storedSame⟩ := results.2 inside
      simp only [same, storedSame, Bool.false_eq_true, ↓reduceIte]

/-- What the atomic pool knows of a caller. -/
theorem caller_stands (reached : Reached pool config history) {caller : T}
    (stepped : (poolProgram pool T).system.step config (.caller caller, choice) =
      some (next, events)) :
    CallerStands (standsFor config) config.shared (callerPc config caller) where
  stopped := rfl
  tasks inside := by
    have own := ((pool_step_admitted reached stepped).1 inside).1
    simp only [standsFor, own]
    rfl
  issued inside := by
    have own := ((pool_step_admitted reached stepped).1 inside).1
    simp only [standsFor, own]
    rfl
  results inside := by
    have nothing := ((pool_step_stored reached stepped).1 inside).1
    simp only [standsFor, nothing, storing, Option.toList_none, List.append_nil]

/-- The configuration behind a step of a caller stands for the atomic pool behind it.
The hands are those of the workers, which do not move. -/
theorem caller_behind_stands (reached : Reached pool config history) {caller : T}
    (stepped : (poolProgram pool T).system.step config (.caller caller, choice) =
      some (next, events)) :
    standsFor next = callerBehind (standsFor config) next.shared (callerPc config caller)
      (callerPc next caller) := by
  obtain ⟨_, workers, _⟩ := caller_moves stepped
  have tasks := pool_step_admitted reached stepped
  have results := pool_step_stored reached stepped
  simp only [standsFor, callerBehind, AtomicPool.mk.injEq, workers, true_and]
  refine ⟨?_, ?_, ?_⟩
  · cases inside : (callerPc config caller).insideTasks with
    | true =>
      have own := (tasks.1 inside).2
      simp only [own, ↓reduceIte]
      rfl
    | false =>
      obtain ⟨same, _, admittedSame⟩ := tasks.2 inside
      simp only [same, admittedSame, Bool.false_eq_true, ↓reduceIte]
  · cases inside : (callerPc config caller).insideTasks with
    | true =>
      have own := (tasks.1 inside).2
      simp only [own, ↓reduceIte]
      rfl
    | false =>
      obtain ⟨_, accepted, admittedSame⟩ := tasks.2 inside
      simp only [accepted, admittedSame, Bool.false_eq_true, ↓reduceIte]
  · cases inside : (callerPc config caller).insideResults with
    | true =>
      have nothing := (results.1 inside).2
      simp only [nothing, storing, Option.toList_none, List.append_nil, ↓reduceIte]
    | false =>
      obtain ⟨same, storedSame⟩ := results.2 inside
      simp only [same, storedSame, Bool.false_eq_true, ↓reduceIte]

/-- Every step of the pool is the operation that it is marked with, or none. -/
theorem pool_step_simulates (reached : Reached pool config history)
    (stepped : (poolProgram pool T).system.step config (thread, choice) = some (next, events)) :
    (atomicPool pool T).run (standsFor config)
        ((poolMarks pool config (thread, choice)).filterMap Mark.operation) =
      some (standsFor next) := by
  obtain ⟨workersNever, callersNever⟩ := run_never_aborts (reaches_step reached stepped)
  cases thread with
  | constructor =>
    rw [constructor_stands reached stepped]
    rfl
  | worker index =>
    rw [worker_behind_stands reached stepped]
    exact worker_move_simulates (worker_stands reached stepped) (run_licensed reached index)
      ((run_assured reached).2 (.worker index)) (worker_moves stepped).1 (workersNever index)
  | caller caller =>
    rw [caller_behind_stands reached stepped]
    exact caller_move_simulates (caller_stands reached stepped) (caller_moves stepped).1
      (callersNever caller)

end Steps

end TcpServer.Runtime
