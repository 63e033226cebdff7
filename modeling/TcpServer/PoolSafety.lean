import TcpServer.PoolMoves

/-!
# Mutual exclusion, bounds and asserts of the worker pool

The two mutexes protect the two queues: a step changes a queue only inside its
mutex. The bounds of the queues and the conditions of all asserts follow. A
worker that has seen room in the result queue keeps it until it pushes, since
every other thread is outside of the mutex meanwhile.
-/

namespace TcpServer.Runtime

open Monitors Threads Transition

variable {T : Type} [DecidableEq T] {pool : WorkerPool}

/-- Whether a worker holds `task_mutex_`. It does from its test on until it has taken
a task or sleeps. -/
def WorkerPc.insideTasks : WorkerPc → Bool
  | .taskTest | .taskSleep | .taskSection | .aborted .tasks => true
  | _ => false

/-- Whether a worker holds `result_mutex_`. It does from its first look at the results
on until it has pushed or given up. -/
def WorkerPc.insideResults : WorkerPc → Bool
  | .resultEvict _ _ | .resultTest _ | .resultSleep _ | .resultStopTest _ _ | .resultPush _ _
  | .aborted .results => true
  | _ => false

/-- The caller holds the lock of the tasks: it tests in front of waiting, or works on
the queue, or has failed an assert there. -/
def CallerPc.insideTasks : CallerPc → Bool
  | .submitTest _ | .submitSection _ | .aborted .tasks => true
  | _ => false

/-- The caller holds the lock of the results: it pops, or has failed an assert there.
-/
def CallerPc.insideResults : CallerPc → Bool
  | .popSection | .aborted .results => true
  | _ => false

/-- A thread holds the lock of the tasks, as its place tells. The constructor takes
neither lock. -/
def insideTasks {numWorkers : Nat} :
    (thread : ThreadId numWorkers T) → Local numWorkers T thread → Bool
  | .constructor, _ => false
  | .worker _, own => WorkerPc.insideTasks own
  | .caller _, own => CallerPc.insideTasks own

/-- A thread holds the lock of the results, as its place tells. No thread takes both
locks at a time. -/
def insideResults {numWorkers : Nat} :
    (thread : ThreadId numWorkers T) → Local numWorkers T thread → Bool
  | .constructor, _ => false
  | .worker _, own => WorkerPc.insideResults own
  | .caller _, own => CallerPc.insideResults own

/-- The thread that an event names. In a run it is the one that has taken the step. -/
def Event.emitter {numWorkers : Nat} : Event numWorkers T → Option (ThreadId numWorkers T)
  | .submitCalled caller _ | .accepted caller _ | .submitAccepted caller
  | .submitRejected caller _ | .popped caller _ | .popEmpty caller | .stopStored caller
  | .shutdownReturned caller => some (.caller caller)
  | .taken worker _ | .dispatchBegan worker _ | .dispatchEnded worker _ | .resultEvicted worker _
  | .pushed worker _ | .discarded worker _ | .resultSectionLeft worker => some (.worker worker)
  | .constructorThrew => some .constructor
  | .taskEvicted _ => none

section Moves

variable {shared after : Shared pool.numWorkers T} {choice : Choice pool.numWorkers T}
  {events : List (Event pool.numWorkers T)}

omit [DecidableEq T] in
/-- The constructor changes neither a mutex nor a queue nor the stop flag. -/
theorem constructor_move_frame {before own : ConstructorPc}
    (move : ConstructorMove pool shared choice before after own events) :
    after.taskLock = shared.taskLock ∧ after.resultLock = shared.resultLock ∧
      after.tasks = shared.tasks ∧ after.results = shared.results ∧ after.stop = shared.stop ∧
      after.accepted = shared.accepted ∧ after.returned = shared.returned := by
  cases move <;> simp

/-- A worker keeps the discipline of `task_mutex_`. -/
theorem worker_move_task_lock {index : Fin pool.numWorkers} {before own : WorkerPc}
    (move : WorkerMove pool index shared choice before after own events) :
    Disciplined shared.taskLock.holder after.taskLock.holder (.worker index)
      before.insideTasks own.insideTasks := by
  cases move with
  | lockTasks locked =>
    obtain ⟨free, taken, _⟩ := Monitor.lock_cases locked
    exact Or.inr (Or.inl ⟨free, taken, rfl, rfl⟩)
  | taskWake woken =>
    obtain ⟨free, taken, _⟩ := Monitor.wake_cases woken
    exact Or.inr (Or.inl ⟨free, taken, rfl, rfl⟩)
  | taskSleep | leave | retry | take => exact Or.inr (Or.inr ⟨rfl, rfl, rfl⟩)
  | _ => exact Or.inl ⟨rfl, rfl⟩

/-- A worker keeps the discipline of `result_mutex_`. -/
theorem worker_move_result_lock {index : Fin pool.numWorkers} {before own : WorkerPc}
    (move : WorkerMove pool index shared choice before after own events) :
    Disciplined shared.resultLock.holder after.resultLock.holder (.worker index)
      before.insideResults own.insideResults := by
  cases move with
  | lockResultsToEvict locked | lockResultsToWait locked =>
    obtain ⟨free, taken, _⟩ := Monitor.lock_cases locked
    exact Or.inr (Or.inl ⟨free, taken, rfl, rfl⟩)
  | resultWake woken =>
    obtain ⟨free, taken, _⟩ := Monitor.wake_cases woken
    exact Or.inr (Or.inl ⟨free, taken, rfl, rfl⟩)
  | resultSleep | discard | push => exact Or.inr (Or.inr ⟨rfl, rfl, rfl⟩)
  | notifyPushed notified => exact Or.inl ⟨(Monitor.notify_one_cases notified).1, rfl⟩
  | _ => exact Or.inl ⟨rfl, rfl⟩

/-- A caller keeps the discipline of `task_mutex_`. -/
theorem caller_move_task_lock {caller : T} {before own : CallerPc}
    (move : CallerMove pool caller shared choice before after own events) :
    Disciplined shared.taskLock.holder after.taskLock.holder (.caller caller)
      before.insideTasks own.insideTasks := by
  cases move with
  | lockTasks locked =>
    obtain ⟨free, taken, _⟩ := Monitor.lock_cases locked
    exact Or.inr (Or.inl ⟨free, taken, rfl, rfl⟩)
  | refuseStopped | refuseFull | enqueue => exact Or.inr (Or.inr ⟨rfl, rfl, rfl⟩)
  | notifyEnqueued notified => exact Or.inl ⟨(Monitor.notify_one_cases notified).1, rfl⟩
  | _ => exact Or.inl ⟨rfl, rfl⟩

/-- A caller keeps the discipline of `result_mutex_`. -/
theorem caller_move_result_lock {caller : T} {before own : CallerPc}
    (move : CallerMove pool caller shared choice before after own events) :
    Disciplined shared.resultLock.holder after.resultLock.holder (.caller caller)
      before.insideResults own.insideResults := by
  cases move with
  | lockResults locked =>
    obtain ⟨free, taken, _⟩ := Monitor.lock_cases locked
    exact Or.inr (Or.inl ⟨free, taken, rfl, rfl⟩)
  | popNothing | pop => exact Or.inr (Or.inr ⟨rfl, rfl, rfl⟩)
  | _ => exact Or.inl ⟨rfl, rfl⟩

/-- A worker touches the result queue only inside `result_mutex_`. -/
theorem worker_move_results {index : Fin pool.numWorkers} {before own : WorkerPc}
    (move : WorkerMove pool index shared choice before after own events)
    (outside : before.insideResults = false) : after.results = shared.results := by
  cases move <;> first | rfl | cases outside

/-- A caller touches the result queue only inside `result_mutex_`. -/
theorem caller_move_results {caller : T} {before own : CallerPc}
    (move : CallerMove pool caller shared choice before after own events)
    (outside : before.insideResults = false) : after.results = shared.results := by
  cases move <;> first | rfl | cases outside

/-- No worker writes the stop flag. -/
theorem worker_move_stop {index : Fin pool.numWorkers} {before own : WorkerPc}
    (move : WorkerMove pool index shared choice before after own events) :
    after.stop = shared.stop := by
  cases move <;> rfl

/-- The stop flag is never reset: once it is stored it stays so. -/
theorem caller_move_stop {caller : T} {before own : CallerPc}
    (move : CallerMove pool caller shared choice before after own events)
    (stopped : shared.stop = true) : after.stop = true := by
  cases move <;> first | exact stopped | rfl

omit [DecidableEq T] in
/-- The constructor emits events in its own name only, or in none. -/
theorem constructor_move_emitter {before own : ConstructorPc}
    (move : ConstructorMove pool shared choice before after own events) :
    ∀ event ∈ events, event.emitter = none ∨ event.emitter = some .constructor := by
  cases move <;> simp [Event.emitter]

/-- A worker emits events in its own name only, or in none. -/
theorem worker_move_emitter {index : Fin pool.numWorkers} {before own : WorkerPc}
    (move : WorkerMove pool index shared choice before after own events) :
    ∀ event ∈ events, event.emitter = none ∨ event.emitter = some (.worker index) := by
  cases move <;> simp [Event.emitter]

/-- A caller emits events in its own name, except for the task it evicts, which is
nobody's. -/
theorem caller_move_emitter {caller : T} {before own : CallerPc}
    (move : CallerMove pool caller shared choice before after own events) :
    ∀ event ∈ events, event.emitter = none ∨ event.emitter = some (.caller caller) := by
  cases move with
  | @enqueue task evicted => cases evicted <;> simp [Event.emitter]
  | _ => simp [Event.emitter]

end Moves

section Steps

variable {config next : PoolConfig pool T} {events : List (Event pool.numWorkers T)}

/-- A step of the constructor is one of its moves, and all other threads stay where
they are. -/
theorem constructor_moves {choice : Choice pool.numWorkers T}
    (stepped : (poolProgram pool T).system.step config (.constructor, choice) =
      some (next, events)) :
    ConstructorMove pool config.shared choice (constructorPc config) next.shared
        (constructorPc next) events ∧
      (∀ index, workerPc next index = workerPc config index) ∧
      ∀ caller, callerPc next caller = callerPc config caller := by
  obtain ⟨taken, kept⟩ := system_step_cases stepped
  refine ⟨constructor_step_move taken, ?_, ?_⟩
  · intro index
    exact kept (.worker index) nofun
  · intro caller
    exact kept (.caller caller) nofun

/-- A step of a worker is one of its moves, and all other threads stay where they are.
-/
theorem worker_moves {index : Fin pool.numWorkers} {choice : Choice pool.numWorkers T}
    (stepped : (poolProgram pool T).system.step config (.worker index, choice) =
      some (next, events)) :
    WorkerMove pool index config.shared choice (workerPc config index) next.shared
        (workerPc next index) events ∧
      (∀ other, other ≠ index → workerPc next other = workerPc config other) ∧
      (∀ caller, callerPc next caller = callerPc config caller) ∧
      constructorPc next = constructorPc config := by
  obtain ⟨taken, kept⟩ := system_step_cases stepped
  refine ⟨worker_step_move taken, ?_, ?_, ?_⟩
  · intro other different
    exact kept (.worker other) (fun same => different (ThreadId.worker.inj same))
  · intro caller
    exact kept (.caller caller) nofun
  · exact kept .constructor nofun

/-- A step of a caller is one of its moves, and all other threads stay where they are.
-/
theorem caller_moves {caller : T} {choice : Choice pool.numWorkers T}
    (stepped : (poolProgram pool T).system.step config (.caller caller, choice) =
      some (next, events)) :
    CallerMove pool caller config.shared choice (callerPc config caller) next.shared
        (callerPc next caller) events ∧
      (∀ index, workerPc next index = workerPc config index) ∧
      (∀ other, other ≠ caller → callerPc next other = callerPc config other) ∧
      constructorPc next = constructorPc config := by
  obtain ⟨taken, kept⟩ := system_step_cases stepped
  refine ⟨caller_step_move taken, ?_, ?_, ?_⟩
  · intro index
    exact kept (.worker index) nofun
  · intro other different
    exact kept (.caller other) (fun same => different (ThreadId.caller.inj same))
  · exact kept .constructor nofun

/-- What a step of the pool is: a move of one thread, while the program counters
of all others stay. -/
theorem pool_step_moves {thread : ThreadId pool.numWorkers T}
    {choice : Choice pool.numWorkers T}
    (stepped : (poolProgram pool T).system.step config (thread, choice) = some (next, events)) :
    (thread = .constructor ∧
      ConstructorMove pool config.shared choice (constructorPc config) next.shared
        (constructorPc next) events ∧
      (∀ index, workerPc next index = workerPc config index) ∧
      ∀ caller, callerPc next caller = callerPc config caller) ∨
    (∃ index, thread = .worker index ∧
      WorkerMove pool index config.shared choice (workerPc config index) next.shared
        (workerPc next index) events ∧
      (∀ other, other ≠ index → workerPc next other = workerPc config other) ∧
      (∀ caller, callerPc next caller = callerPc config caller) ∧
      constructorPc next = constructorPc config) ∨
    (∃ caller, thread = .caller caller ∧
      CallerMove pool caller config.shared choice (callerPc config caller) next.shared
        (callerPc next caller) events ∧
      (∀ index, workerPc next index = workerPc config index) ∧
      (∀ other, other ≠ caller → callerPc next other = callerPc config other) ∧
      constructorPc next = constructorPc config) := by
  cases thread with
  | constructor => exact Or.inl ⟨rfl, constructor_moves stepped⟩
  | worker index => exact Or.inr (Or.inl ⟨index, rfl, worker_moves stepped⟩)
  | caller caller => exact Or.inr (Or.inr ⟨caller, rfl, caller_moves stepped⟩)

/-- An event that names a thread is emitted by that thread, so a history tells who did
what. -/
theorem pool_step_emitter {thread named : ThreadId pool.numWorkers T}
    {choice : Choice pool.numWorkers T} {event : Event pool.numWorkers T}
    (stepped : (poolProgram pool T).system.step config (thread, choice) = some (next, events))
    (member : event ∈ events) (emitter : event.emitter = some named) : thread = named := by
  have sources : event.emitter = none ∨ event.emitter = some thread := by
    rcases pool_step_moves stepped with ⟨rfl, move, _⟩ | ⟨index, rfl, move, _⟩ |
      ⟨caller, rfl, move, _⟩
    · exact constructor_move_emitter move event member
    · exact worker_move_emitter move event member
    · exact caller_move_emitter move event member
  rcases sources with nobody | source
  · exact absurd (nobody.symm.trans emitter) nofun
  · exact Option.some.inj (source.symm.trans emitter)

end Steps

/-- A step of `worker_loop` is a step of the pool. With the moves this is the other
direction. -/
theorem worker_steps {config : PoolConfig pool T} {index : Fin pool.numWorkers}
    {choice : Choice pool.numWorkers T} {after : Shared pool.numWorkers T} {own : WorkerPc}
    {events : List (Event pool.numWorkers T)}
    (taken : workerStep pool index config.shared choice (workerPc config index) =
      some (after, own, events)) :
    ∃ next, (poolProgram pool T).system.step config (.worker index, choice) =
        some (next, events) ∧
      next.shared = after ∧ workerPc next index = own ∧
      (∀ caller, callerPc next caller = callerPc config caller) ∧
      constructorPc next = constructorPc config := by
  have stepped := system_step_of (show (poolProgram pool T).step (.worker index) config.shared
    (config.locals (.worker index)) choice = some (after, own, events) from taken)
  have kept := (system_step_cases stepped).2
  refine ⟨_, stepped, rfl, ?_, ?_, ?_⟩
  · exact Function.update_self _ _ _
  · intro caller
    exact kept (.caller caller) nofun
  · exact kept .constructor nofun

/-- A step of a public function is a step of the pool. -/
theorem caller_steps {config : PoolConfig pool T} {caller : T}
    {choice : Choice pool.numWorkers T} {after : Shared pool.numWorkers T} {own : CallerPc}
    {events : List (Event pool.numWorkers T)}
    (taken : callerStep pool caller config.shared choice (callerPc config caller) =
      some (after, own, events)) :
    ∃ next, (poolProgram pool T).system.step config (.caller caller, choice) =
        some (next, events) ∧ next.shared = after ∧ callerPc next caller = own := by
  have stepped := system_step_of (show (poolProgram pool T).step (.caller caller) config.shared
    (config.locals (.caller caller)) choice = some (after, own, events) from taken)
  exact ⟨_, stepped, rfl, Function.update_self _ _ _⟩

/-- A step of the constructor is a step of the pool. -/
theorem constructor_steps {config : PoolConfig pool T} {choice : Choice pool.numWorkers T}
    {after : Shared pool.numWorkers T} {own : ConstructorPc}
    {events : List (Event pool.numWorkers T)}
    (taken : constructorStep pool config.shared choice (constructorPc config) =
      some (after, own, events)) :
    ∃ next, (poolProgram pool T).system.step config (.constructor, choice) =
        some (next, events) ∧
      next.shared = after ∧ constructorPc next = own ∧
      ∀ index, workerPc next index = workerPc config index := by
  have stepped := system_step_of (show (poolProgram pool T).step .constructor config.shared
    (config.locals .constructor) choice = some (after, own, events) from taken)
  have kept := (system_step_cases stepped).2
  refine ⟨_, stepped, rfl, ?_, ?_⟩
  · exact Function.update_self ThreadId.constructor _ config.locals
  · intro index
    exact kept (.worker index) nofun

section Runs

variable
  {allowed : PoolConfig pool T → ThreadId pool.numWorkers T × Choice pool.numWorkers T → Prop}
  {config : PoolConfig pool T} {history : List (Event pool.numWorkers T)}

/-- The threads inside `task_mutex_` are exactly its holder, so there is at most one.
Proof: by the general rule, from what each move does to the mutex. -/
theorem task_exclusion
    (run : Run (poolProgram pool T).system allowed (fresh pool T) config history)
    (thread : ThreadId pool.numWorkers T) :
    insideTasks thread (config.locals thread) = true ↔
      config.shared.taskLock.holder = some thread := by
  refine mutual_exclusion (fun shared => shared.taskLock.holder) insideTasks ?_ ?_ run thread
  · intro thread
    cases thread <;> simp [fresh, insideTasks, WorkerPc.insideTasks, CallerPc.insideTasks]
  · intro thread shared own choice after next events stepped
    cases thread with
    | constructor =>
      have same := (constructor_move_frame (constructor_step_move stepped)).1
      exact Or.inl ⟨congrArg Monitor.holder same, rfl⟩
    | worker index => exact worker_move_task_lock (worker_step_move stepped)
    | caller caller => exact caller_move_task_lock (caller_step_move stepped)

/-- The threads inside `result_mutex_` are exactly its holder, so there is at most
one. -/
theorem result_exclusion
    (run : Run (poolProgram pool T).system allowed (fresh pool T) config history)
    (thread : ThreadId pool.numWorkers T) :
    insideResults thread (config.locals thread) = true ↔
      config.shared.resultLock.holder = some thread := by
  refine mutual_exclusion (fun shared => shared.resultLock.holder) insideResults ?_ ?_ run thread
  · intro thread
    cases thread <;> simp [fresh, insideResults, WorkerPc.insideResults, CallerPc.insideResults]
  · intro thread shared own choice after next events stepped
    cases thread with
    | constructor =>
      have same := (constructor_move_frame (constructor_step_move stepped)).2.1
      exact Or.inl ⟨congrArg Monitor.holder same, rfl⟩
    | worker index => exact worker_move_result_lock (worker_step_move stepped)
    | caller caller => exact caller_move_result_lock (caller_step_move stepped)

end Runs

/-- The bounds of both queues. Every assert about their sizes rests on them. -/
def Bounded (shared : Shared pool.numWorkers T) : Prop :=
  shared.tasks.length ≤ pool.taskCapacity ∧ shared.results.length ≤ pool.resultCapacity

/-- What a worker may rely on where it stands: behind the eviction loop or the
wait predicate there is room unless the pool has been stopped; where it pushes
there is room; and no assert has failed. -/
def WorkerPc.assured (shared : Shared pool.numWorkers T) : WorkerPc → Prop
  | .resultStopTest _ _ => shared.stop = true ∨ shared.results.length < pool.resultCapacity
  | .resultPush _ _ => shared.results.length < pool.resultCapacity
  | .aborted _ => False
  | _ => True

/-- No assert of the caller has failed. A thread whose assert has failed goes nowhere.
-/
def CallerPc.assured : CallerPc → Prop
  | .aborted _ => False
  | _ => True

/-- What each thread can rely on where it stands. The constructor makes no assertion
about the queues. -/
def assured (thread : ThreadId pool.numWorkers T) (shared : Shared pool.numWorkers T)
    (own : Local pool.numWorkers T thread) : Prop :=
  match thread, own with
  | .constructor, _ => True
  | .worker _, own => WorkerPc.assured shared own
  | .caller _, own => CallerPc.assured own

/-- Making room in a bounded queue leaves room for one task. On a full queue it
evicts exactly the oldest task, otherwise none. -/
theorem make_room_cases {tasks kept : List (Ticketed HandlerTask)}
    {evicted : Option (Ticketed HandlerTask)} (bounded : tasks.length ≤ pool.taskCapacity)
    (room : makeRoom pool tasks = some (evicted, kept)) :
    kept.length < pool.taskCapacity ∧
      ((tasks.length = pool.taskCapacity ∧
          pool.options.taskQueueOverflow = .dropOldestPendingTask ∧
          ∃ oldest, evicted = some oldest ∧ tasks = oldest :: kept) ∨
        (tasks.length < pool.taskCapacity ∧ evicted = none ∧ kept = tasks)) := by
  have positive : pool.taskCapacity ≠ 0 := pool.queueCapacityPositive
  unfold makeRoom at room
  split at room
  · rename_i full
    split at room
    · rename_i policy
      cases tasks with
      | nil =>
        simp only [List.length_nil] at full
        omega
      | cons oldest others =>
        simp only [Option.some.injEq, Prod.mk.injEq] at room
        obtain ⟨rfl, rfl⟩ := room
        simp only [List.length_cons] at full bounded ⊢
        exact ⟨by omega, Or.inl ⟨by omega, policy, oldest, rfl, rfl⟩⟩
    · cases room
  · rename_i fits
    cases room
    exact ⟨by omega, Or.inr ⟨by omega, rfl, rfl⟩⟩

section Moves

variable {shared after : Shared pool.numWorkers T} {choice : Choice pool.numWorkers T}
  {events : List (Event pool.numWorkers T)}

/-- A worker keeps the bounds and arrives only where it is assured of what it
needs there. Its asserts never fail. -/
theorem worker_move_assured {index : Fin pool.numWorkers} {before own : WorkerPc}
    (bounded : Bounded shared) (assured : before.assured shared)
    (move : WorkerMove pool index shared choice before after own events) :
    Bounded after ∧ own.assured after := by
  obtain ⟨taskBound, resultBound⟩ := bounded
  have positive : pool.resultCapacity ≠ 0 := pool.resultCapacityPositive
  cases move with
  | take front within =>
    rw [front, List.length_cons] at taskBound
    exact ⟨⟨within, resultBound⟩, trivial⟩
  | takeAborts front exceeds =>
    rw [front, List.length_cons] at taskBound
    omega
  | evict front full =>
    rw [front, List.length_cons] at resultBound
    exact ⟨⟨taskBound, Nat.le_of_succ_le resultBound⟩, trivial⟩
  | evicted room => exact ⟨⟨taskBound, resultBound⟩, Or.inr room⟩
  | evictAborts empty exceeds =>
    rw [empty, List.length_nil] at exceeds
    omega
  | resultReady ready => exact ⟨⟨taskBound, resultBound⟩, ready⟩
  | goOn running =>
    have room := assured.resolve_left (by simp [running])
    exact ⟨⟨taskBound, resultBound⟩, room⟩
  | push room =>
    refine ⟨⟨taskBound, ?_⟩, trivial⟩
    rw [List.length_append, List.length_singleton]
    exact room
  | pushAborts exceeds =>
    have room : shared.results.length < pool.resultCapacity := assured
    omega
  | _ => exact ⟨⟨taskBound, resultBound⟩, trivial⟩

/-- A caller keeps the bounds, and its asserts never fail. Proof: by cases on the
moves, with the bound on the queue that it works on. -/
theorem caller_move_assured {caller : T} {before own : CallerPc} (bounded : Bounded shared)
    (move : CallerMove pool caller shared choice before after own events) :
    Bounded after ∧ own.assured := by
  obtain ⟨taskBound, resultBound⟩ := bounded
  cases move with
  | enqueue room within =>
    refine ⟨⟨?_, resultBound⟩, trivial⟩
    rw [List.length_append, List.length_singleton]
    exact within
  | enqueueAborts room exceeds =>
    have fits := (make_room_cases taskBound room).1
    omega
  | pop front room => exact ⟨⟨taskBound, Nat.le_of_lt room⟩, trivial⟩
  | popAborts front exceeds =>
    rw [front, List.length_cons] at resultBound
    omega
  | _ => exact ⟨⟨taskBound, resultBound⟩, trivial⟩

omit [DecidableEq T] in
/-- Outside of `result_mutex_` a worker relies on nothing that others write. -/
theorem assured_outside {pc : WorkerPc} (assured : pc.assured shared)
    (outside : pc.insideResults = false) : pc.assured after := by
  cases pc with
  | resultStopTest | resultPush => cases outside
  | aborted => exact assured
  | _ => trivial

omit [DecidableEq T] in
/-- What a worker relies on is kept while the queue stays and the stop flag is
not reset. -/
theorem assured_stable {pc : WorkerPc} (assured : pc.assured shared)
    (same : after.results = shared.results) (stops : shared.stop = true → after.stop = true) :
    pc.assured after := by
  cases pc with
  | resultStopTest => exact assured.imp stops (fun room => same ▸ room)
  | resultPush =>
    change after.results.length < pool.resultCapacity
    rw [same]
    exact assured
  | aborted => exact assured
  | _ => trivial

end Moves

section Runs

variable
  {allowed : PoolConfig pool T → ThreadId pool.numWorkers T × Choice pool.numWorkers T → Prop}
  {config : PoolConfig pool T} {history : List (Event pool.numWorkers T)}

/-- A step of one thread keeps what another is assured of. Only a worker inside
`result_mutex_` relies on shared memory, and then the stepping thread is outside. -/
theorem step_keeps_assured {thread other : ThreadId pool.numWorkers T}
    {choice : Choice pool.numWorkers T} {after : Shared pool.numWorkers T}
    {own : Local pool.numWorkers T thread} {events : List (Event pool.numWorkers T)}
    (run : Run (poolProgram pool T).system allowed (fresh pool T) config history)
    (different : other ≠ thread) (relies : assured other config.shared (config.locals other))
    (stepped : (poolProgram pool T).step thread config.shared (config.locals thread) choice =
      some (after, own, events)) :
    assured other after (config.locals other) := by
  cases other with
  | constructor => trivial
  | caller caller => exact relies
  | worker index =>
    cases inside : WorkerPc.insideResults (config.locals (.worker index)) with
    | false => exact assured_outside relies inside
    | true =>
      have outside : insideResults thread (config.locals thread) = false :=
        exclusive_outside (result_exclusion run) (.worker index) inside different.symm
      cases thread with
      | constructor =>
        obtain ⟨_, _, _, results, stop, _⟩ :=
          constructor_move_frame (constructor_step_move stepped)
        exact assured_stable relies results (fun stopped => stop ▸ stopped)
      | worker stepping =>
        have move := worker_step_move stepped
        exact assured_stable relies (worker_move_results move outside)
          (fun stopped => (worker_move_stop move).symm ▸ stopped)
      | caller caller =>
        have move := caller_step_move stepped
        exact assured_stable relies (caller_move_results move outside) (caller_move_stop move)

/-- The bounds hold and every thread is assured of what it needs, in every run. Proof:
by the general rule, thread by thread. -/
theorem run_assured
    (run : Run (poolProgram pool T).system allowed (fresh pool T) config history) :
    Bounded config.shared ∧ ∀ thread, assured thread config.shared (config.locals thread) := by
  refine annotations_hold (fun shared _ => Bounded shared)
    (fun thread shared _ own => assured thread shared own) ?_ ?_ ?_ ?_ run
  · exact ⟨Nat.zero_le _, Nat.zero_le _⟩
  · intro thread
    cases thread <;> trivial
  · intro config history thread choice after own events _ bounded relies _ stepped
    cases thread with
    | constructor =>
      obtain ⟨_, _, tasks, results, _⟩ := constructor_move_frame (constructor_step_move stepped)
      refine ⟨⟨?_, ?_⟩, trivial⟩
      · rw [tasks]
        exact bounded.1
      · rw [results]
        exact bounded.2
    | worker index =>
      exact worker_move_assured bounded (relies (.worker index)) (worker_step_move stepped)
    | caller caller => exact caller_move_assured bounded (caller_step_move stepped)
  · intro config history thread choice after own events other before different _ relies _ stepped
    exact step_keeps_assured before different (relies other) stepped

/-- No assert of the pool has failed, in any run, under any condition on the steps. -/
theorem run_never_aborts
    (run : Run (poolProgram pool T).system allowed (fresh pool T) config history) :
    (∀ index inside, workerPc config index ≠ .aborted inside) ∧
      ∀ caller inside, callerPc config caller ≠ .aborted inside := by
  have relies := (run_assured run).2
  constructor
  · intro index inside failed
    have stands : WorkerPc.assured config.shared (workerPc config index) :=
      relies (.worker index)
    rw [failed] at stands
    exact stands
  · intro caller inside failed
    have stands : CallerPc.assured (callerPc config caller) := relies (.caller caller)
    rw [failed] at stands
    exact stands

end Runs

/-- What enqueueing a task does to the queue, as the policy has it: on a full
queue exactly the oldest task goes, otherwise none. -/
def Enqueues (pool : WorkerPool) (caller : T) (task : Ticketed HandlerTask)
    (shared after : Shared pool.numWorkers T) (events : List (Event pool.numWorkers T)) : Prop :=
  (shared.tasks.length = pool.taskCapacity ∧
    pool.options.taskQueueOverflow = .dropOldestPendingTask ∧
    ∃ oldest kept, shared.tasks = oldest :: kept ∧ after.tasks = kept ++ [task] ∧
      events = [.taskEvicted oldest, .accepted caller task]) ∨
  (shared.tasks.length < pool.taskCapacity ∧ after.tasks = shared.tasks ++ [task] ∧
    events = [.accepted caller task])

/-- A caller that accepts a task enqueues it, in the same step, behind all that is in
the queue. -/
theorem caller_move_accepts {shared after : Shared pool.numWorkers T}
    {choice : Choice pool.numWorkers T} {caller : T} {before own : CallerPc}
    {events : List (Event pool.numWorkers T)} (bounded : Bounded shared)
    (move : CallerMove pool caller shared choice before after own events)
    {task : Ticketed HandlerTask} (accepts : .accepted caller task ∈ events) :
    Enqueues pool caller task shared after events := by
  cases move with
  | @enqueue submitted evicted kept room within =>
    obtain rfl : task = ⟨shared.accepted, submitted⟩ := by simpa using accepts
    rcases (make_room_cases bounded.1 room).2 with
      ⟨full, policy, oldest, rfl, front⟩ | ⟨fits, rfl, rfl⟩
    · exact Or.inl ⟨full, policy, oldest, kept, front, rfl, rfl⟩
    · exact Or.inr ⟨fits, rfl, rfl⟩
  | _ => simp at accepts

/-- A caller in front of a full queue accepts its task, where the policy is to drop the
oldest pending one. -/
theorem caller_move_full {shared after : Shared pool.numWorkers T}
    {choice : Choice pool.numWorkers T} {caller : T} {own : CallerPc}
    {events : List (Event pool.numWorkers T)} {task : HandlerTask} (bounded : Bounded shared)
    (full : shared.tasks.length = pool.taskCapacity)
    (policy : pool.options.taskQueueOverflow = .dropOldestPendingTask)
    (move : CallerMove pool caller shared choice (.submitSection task) after own events) :
    .accepted caller ⟨shared.accepted, task⟩ ∈ events := by
  cases move with
  | refuseFull refused =>
    simp only [makeRoom, full, ge_iff_le, le_refl, ↓reduceIte, policy] at refused
    split at refused <;> cases refused
  | enqueue room within => simp
  | enqueueAborts room exceeds =>
    have fits := (make_room_cases bounded.1 room).1
    omega

/-- Bounds and assertion safety of the worker pool. In every reached state both
queues are within their capacities and no assert has evaluated to false. Each accepted
task evicts exactly one pending task when the queue is full, under
`DropOldestPendingTask`, and none when it is not; and under that policy a full queue
does accept the task of a submitter that has found the pool running. -/
theorem bounds_and_assertions (pool : WorkerPool) (T : Type) [DecidableEq T]
    (config : PoolConfig pool T) (history : List (Event pool.numWorkers T))
    (reached : Reached pool config history) :
    config.shared.tasks.length ≤ pool.taskCapacity ∧
    config.shared.results.length ≤ pool.resultCapacity ∧
    (∀ index inside, workerPc config index ≠ .aborted inside) ∧
    (∀ caller inside, callerPc config caller ≠ .aborted inside) ∧
    (∀ thread choice next events caller task,
      (poolProgram pool T).system.step config (thread, choice) = some (next, events) →
      .accepted caller task ∈ events →
      Enqueues pool caller task config.shared next.shared events) ∧
    (∀ caller task choice next events,
      (poolProgram pool T).system.step config (.caller caller, choice) = some (next, events) →
      callerPc config caller = .submitSection task →
      config.shared.tasks.length = pool.taskCapacity →
      pool.options.taskQueueOverflow = .dropOldestPendingTask →
      .accepted caller ⟨config.shared.accepted, task⟩ ∈ events) := by
  have bounded := (run_assured reached).1
  obtain ⟨workers, callers⟩ := run_never_aborts reached
  refine ⟨bounded.1, bounded.2, workers, callers, ?_, ?_⟩
  · intro thread choice next events caller task stepped accepts
    obtain rfl := pool_step_emitter stepped accepts rfl
    exact caller_move_accepts bounded (caller_moves stepped).1 accepts
  · intro caller task choice next events stepped standing full policy
    have move := (caller_moves stepped).1
    rw [standing] at move
    exact caller_move_full bounded full policy move

/-- A pool with one worker and queues of one element that drops the oldest
element of either. -/
def tightPool : WorkerPool where
  numWorkers := 1
  queueCapacity := 1
  dispatcher payload := .returned (.ok payload)
  options := ⟨.dropOldestPendingTask, .dropOldestCompletedResult, 0⟩
  numWorkersPositive := Nat.one_ne_zero
  queueCapacityPositive := Nat.one_ne_zero
  resultCapacityPositive := Nat.one_ne_zero

/-- The only worker of the tight pool. -/
def soleWorker : Fin tightPool.numWorkers := ⟨0, by decide⟩

/-- The tight pool has no other worker, so a statement about its workers is one about
this one. -/
theorem sole_worker (index : Fin tightPool.numWorkers) : index = soleWorker :=
  Fin.ext (Nat.lt_one_iff.mp index.isLt)

/-- One caller submits two tasks before the worker takes any, so the second finds a
full queue. -/
def twoSubmissions : List (ThreadId 1 Unit × Choice 1 Unit) :=
  steps .constructor 2 ++ calls () (.trySubmit ⟨1, []⟩) 4 ++ calls () (.trySubmit ⟨2, []⟩) 2

/-- A second task meets a full queue, and the next step evicts the first task and
accepts the second. -/
theorem bounds_and_assertions_tight :
    ∃ (config next : PoolConfig tightPool Unit) (history events : List (Event 1 Unit)),
      Reached tightPool config history ∧ callerPc config () = .submitSection ⟨2, []⟩ ∧
      config.shared.tasks = [⟨0, 1, []⟩] ∧
      (poolProgram tightPool Unit).system.step config (.caller (), {}) = some (next, events) ∧
      events = [.taskEvicted ⟨0, 1, []⟩, .accepted () ⟨1, 2, []⟩] ∧
      next.shared.tasks = [⟨1, 2, []⟩] ∧
      next.shared.tasks.length ≤ tightPool.taskCapacity ∧
      ∀ caller inside, callerPc next caller ≠ .aborted inside := by
  obtain ⟨config, history, reached, observed⟩ :=
    replay_exhibits (poolProgram tightPool Unit).system (fresh tightPool Unit)
      (fun final => decide (callerPc final.1 () = .submitSection ⟨2, []⟩ ∧
        final.1.shared.tasks = [⟨0, 1, []⟩] ∧ final.1.shared.accepted = 1 ∧
        ((poolProgram tightPool Unit).system.step final.1 (.caller (), {})).isSome))
      twoSubmissions (by decide)
  obtain ⟨standing, front, count, enabled⟩ := of_decide_eq_true observed
  obtain ⟨⟨next, events⟩, stepped⟩ := Option.isSome_iff_exists.mp enabled
  obtain ⟨_, _, _, _, evicts, accepts⟩ :=
    bounds_and_assertions tightPool Unit config history reached
  have full : config.shared.tasks.length = tightPool.taskCapacity := by rw [front]; rfl
  have accepted := accepts () ⟨2, []⟩ {} next events stepped standing full rfl
  rw [count] at accepted
  obtain ⟨bound, _, _, callers, _⟩ :=
    bounds_and_assertions tightPool Unit next _ (reached.step trivial stepped)
  rcases evicts _ {} next events () ⟨1, 2, []⟩ stepped accepted with
    ⟨_, _, oldest, kept, split, after, events_eq⟩ | ⟨space, _⟩
  · obtain ⟨rfl, rfl⟩ := List.cons.inj (front.symm.trans split)
    exact ⟨config, next, history, events, reached, standing, front, stepped, events_eq, after,
      bound, callers⟩
  · omega

end TcpServer.Runtime
