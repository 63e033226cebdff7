import TcpServer.Dispatcher
import TcpServer.Monitors

/-!
# The worker pool

`WorkerPool` as a program of threads: the constructing thread, the workers and
any number of callers of its public functions. One step is one operation on a
mutex, one evaluation of a wait predicate, one access of `stop_`, one
notification, or the rest of a critical section between these. The dispatcher is
an arbitrary function of the request.

A task gets a ticket when it is enqueued, and its result keeps it. No step tests
a ticket; they name the tasks in the results about the pool. The flag of a
result section that has evicted is auxiliary in the same way.
-/

namespace TcpServer.Runtime

open Dispatcher Monitors Threads Transition

/-- What `try_submit` does with a full queue of tasks. The policy is chosen when the
pool is made. -/
inductive TaskQueueOverflowPolicy where
  | rejectNewTask
  | dropOldestPendingTask
deriving DecidableEq, Repr

/-- What a worker does with a full queue of results. The policy is chosen when the
pool is made. -/
inductive ResultQueueOverflowPolicy where
  | blockWorkerUntilPopped
  | dropOldestCompletedResult
deriving DecidableEq, Repr

/-- The options of a pool. An override of zero means the capacity of the task queue.
-/
structure WorkerPoolOptions where
  taskQueueOverflow : TaskQueueOverflowPolicy := .rejectNewTask
  resultQueueOverflow : ResultQueueOverflowPolicy := .blockWorkerUntilPopped
  resultQueueCapacityOverride : Nat := 0
deriving DecidableEq, Repr

/-- A task: a number by which its result is found again, and the payload of a request.
-/
structure HandlerTask where
  correlationId : UInt64
  payload : List Byte
deriving DecidableEq, Repr

/-- The result of a task, under the same number: what the dispatcher returned, or what
its exception said. -/
structure HandlerResult where
  correlationId : UInt64
  outcome : Except DispatchError (List Byte)
deriving DecidableEq, Repr

/-- An element of a queue with the ticket of its task. The tickets are no part of the
program: they tell equal tasks apart. -/
structure Ticketed (α : Type) where
  ticket : Nat
  item : α
deriving DecidableEq, Repr

/-- How a call of the dispatcher ends: it returns, throws a `std::exception`, or
throws something else. -/
inductive DispatchReturn where
  | returned (outcome : Except DispatchError (List Byte))
  | threw (what : String)
  | threwUnknown
deriving DecidableEq, Repr

/-- The outcome that `worker_loop` stores for a call of the dispatcher. An exception
becomes an error with its text. -/
def DispatchReturn.outcome : DispatchReturn → Except DispatchError (List Byte)
  | .returned outcome => outcome
  | .threw what => .error { message := what }
  | .threwUnknown => .error { message := "unknown exception in dispatcher" }

/-- `result_capacity_`, from the constructor's arguments: the override, where it is
given. -/
def effectiveResultCapacity (queueCapacity : Nat) (options : WorkerPoolOptions) : Nat :=
  if options.resultQueueCapacityOverride ≠ 0 then options.resultQueueCapacityOverride
  else queueCapacity

/-- The arguments of a constructor call that passed its checks. A pool that fails one
of them cannot be built. -/
structure WorkerPool where
  numWorkers : Nat
  queueCapacity : Nat
  dispatcher : List Byte → DispatchReturn
  options : WorkerPoolOptions := {}
  numWorkersPositive : numWorkers ≠ 0
  queueCapacityPositive : queueCapacity ≠ 0
  resultCapacityPositive : effectiveResultCapacity queueCapacity options ≠ 0

namespace WorkerPool

/-- `task_capacity_`: how many tasks the queue may hold, as the constructor was given
it. -/
def taskCapacity (pool : WorkerPool) : Nat := pool.queueCapacity

/-- `result_capacity_`: how many results the queue may hold. Where the caller gives
none, the capacity of the tasks is taken. -/
def resultCapacity (pool : WorkerPool) : Nat :=
  effectiveResultCapacity pool.queueCapacity pool.options

/-- The checks of the constructor, with the texts of its exceptions, in the order of
the source. -/
def construct (numWorkers queueCapacity : Nat) (dispatcher : List Byte → DispatchReturn)
    (options : WorkerPoolOptions) : Except String WorkerPool :=
  if workers : numWorkers = 0 then .error "WorkerPool: num_workers must be >= 1"
  else if queue : queueCapacity = 0 then .error "WorkerPool: queue_capacity must be >= 1"
  else if results : effectiveResultCapacity queueCapacity options = 0 then
    .error "WorkerPool: effective result queue capacity must be >= 1"
  else .ok ⟨numWorkers, queueCapacity, dispatcher, options, workers, queue, results⟩

end WorkerPool

/-- The result that a worker makes of a task. It depends on the payload only. -/
def handlerResult (pool : WorkerPool) (task : HandlerTask) : HandlerResult where
  correlationId := task.correlationId
  outcome := (pool.dispatcher task.payload).outcome

/-- The threads of a pool: the one that constructs it, its workers, and the
callers of its public functions, its destructor included. -/
inductive ThreadId (numWorkers : Nat) (T : Type) where
  | constructor
  | worker (index : Fin numWorkers)
  | caller (name : T)
deriving DecidableEq

/-- The shared members of the pool. `taskLock` and `resultLock` are the mutexes
with their condition variables. The last four fields stand for `workers_`, for
the return of the constructor and for the tickets. -/
structure Shared (numWorkers : Nat) (T : Type) where
  stop : Bool := false
  taskLock : Monitor (ThreadId numWorkers T) := {}
  tasks : List (Ticketed HandlerTask) := []
  resultLock : Monitor (ThreadId numWorkers T) := {}
  results : List (Ticketed HandlerResult) := []
  started : Nat := 0
  constructed : Bool := false
  returned : Finset Nat := ∅
  accepted : Nat := 0

/-- The mutex a thread holds when an assert of its critical section fails. The thread
never returns it. -/
inductive Section where
  | tasks
  | results
deriving DecidableEq, Repr

/-- Where a worker stands in `worker_loop`. Every access of something shared is a
step, so others may come in between. -/
inductive WorkerPc where
  | unstarted
  | taskEnter
  | taskTest
  | taskSleep
  | taskWaiting
  | taskSection
  | taskNotify (task : Ticketed HandlerTask)
  | dispatchCall (task : Ticketed HandlerTask)
  | dispatching (task : Ticketed HandlerTask)
  | resultEnter (done : Ticketed HandlerResult)
  | resultEvict (done : Ticketed HandlerResult) (madeRoom : Bool)
  | resultTest (done : Ticketed HandlerResult)
  | resultSleep (done : Ticketed HandlerResult)
  | resultWaiting (done : Ticketed HandlerResult)
  | resultStopTest (done : Ticketed HandlerResult) (madeRoom : Bool)
  | resultPush (done : Ticketed HandlerResult) (madeRoom : Bool)
  | resultNotify
  | returned
  | aborted (inside : Section)
deriving DecidableEq

/-- Where a caller stands in `try_submit`, `try_pop_result` or `shutdown`, or that it
is in none of them. -/
inductive CallerPc where
  | idle
  | submitEnter (task : HandlerTask)
  | submitTest (task : HandlerTask)
  | submitSection (task : HandlerTask)
  | submitNotify
  | popEnter
  | popSection
  | popNotify
  | shutdownEnter
  | shutdownNotifyTask
  | shutdownNotifyResult
  | shutdownJoin (next : Nat)
  | aborted (inside : Section)
deriving DecidableEq

/-- Where the constructing thread stands: before starting the next worker, done,
or unwinding after a failed start with the number of workers already joined. -/
inductive ConstructorPc where
  | constructing (next : Nat)
  | constructed
  | unwinding (joined started : Nat)
  | threw
deriving DecidableEq

/-- What each thread has for itself: its place in the function it is in, with what it
holds there. -/
def Local (numWorkers : Nat) (T : Type) : ThreadId numWorkers T → Type
  | .constructor => ConstructorPc
  | .worker _ => WorkerPc
  | .caller _ => CallerPc

/-- The public functions. Any caller may make any of them at any time once the
constructor is done. -/
inductive Call where
  | trySubmit (task : HandlerTask)
  | tryPopResult
  | shutdown
deriving DecidableEq, Repr

/-- What the code leaves open: the call an idle caller makes, the sleeper that
`notify_one` wakes, spurious wake-ups, and failures to start a thread. -/
structure Choice (numWorkers : Nat) (T : Type) where
  call : Option Call := none
  pick : ThreadId numWorkers T := .constructor
  spurious : Bool := false
  startFails : Bool := false

/-- What the threads tell, in the order in which it happens. Tasks and results carry
the number under which the task was accepted. -/
inductive Event (numWorkers : Nat) (T : Type) where
  | submitCalled (caller : T) (task : HandlerTask)
  | accepted (caller : T) (task : Ticketed HandlerTask)
  | taskEvicted (task : Ticketed HandlerTask)
  | submitAccepted (caller : T)
  | submitRejected (caller : T) (task : HandlerTask)
  | taken (worker : Fin numWorkers) (task : Ticketed HandlerTask)
  | dispatchBegan (worker : Fin numWorkers) (ticket : Nat)
  | dispatchEnded (worker : Fin numWorkers) (ticket : Nat)
  | resultEvicted (worker : Fin numWorkers) (result : Ticketed HandlerResult)
  | pushed (worker : Fin numWorkers) (result : Ticketed HandlerResult)
  | discarded (worker : Fin numWorkers) (result : Ticketed HandlerResult)
  | resultSectionLeft (worker : Fin numWorkers)
  | popped (caller : T) (result : Ticketed HandlerResult)
  | popEmpty (caller : T)
  | stopStored (caller : T)
  | shutdownReturned (caller : T)
  | constructorThrew
deriving DecidableEq

variable {T : Type} [DecidableEq T]

/-- A step of the constructor: start the workers one by one; when a start fails,
unwind the members, which joins the started workers. -/
def constructorStep (pool : WorkerPool) (shared : Shared pool.numWorkers T)
    (choice : Choice pool.numWorkers T) :
    ConstructorPc → Option (Shared pool.numWorkers T × ConstructorPc ×
      List (Event pool.numWorkers T))
  | .constructing next =>
      if next < pool.numWorkers then
        if choice.startFails then some (shared, .unwinding 0 next, [])
        else some ({ shared with started := next + 1 }, .constructing (next + 1), [])
      else some ({ shared with constructed := true }, .constructed, [])
  | .constructed => none
  | .unwinding joined started =>
      if joined < started then
        if joined ∈ shared.returned then some (shared, .unwinding (joined + 1) started, [])
        else none
      else some (shared, .threw, [.constructorThrew])
  | .threw => none

/-- The end of the eviction loop: its assert, and the test of `stop_` next. The
eviction is not undone there. -/
def evictionDone (pool : WorkerPool) (shared : Shared pool.numWorkers T)
    (done : Ticketed HandlerResult) (madeRoom : Bool) :
    Shared pool.numWorkers T × WorkerPc × List (Event pool.numWorkers T) :=
  if shared.results.length < pool.resultCapacity then (shared, .resultStopTest done madeRoom, [])
  else (shared, .aborted .results, [])

/-- A step of `worker_loop`. Its branches are listed by the statements of the source,
with the events they tell. -/
def workerStep (pool : WorkerPool) (index : Fin pool.numWorkers)
    (shared : Shared pool.numWorkers T) (choice : Choice pool.numWorkers T) :
    WorkerPc → Option (Shared pool.numWorkers T × WorkerPc × List (Event pool.numWorkers T))
  | .unstarted => if index.val < shared.started then some (shared, .taskEnter, []) else none
  | .taskEnter =>
      match shared.taskLock.lock (.worker index) with
      | none => none
      | some taskLock => some ({ shared with taskLock }, .taskTest, [])
  | .taskTest =>
      if shared.stop || !shared.tasks.isEmpty then some (shared, .taskSection, [])
      else some (shared, .taskSleep, [])
  | .taskSleep =>
      some ({ shared with taskLock := shared.taskLock.sleep (.worker index) }, .taskWaiting, [])
  | .taskWaiting =>
      match shared.taskLock.wake (.worker index) choice.spurious with
      | none => none
      | some taskLock => some ({ shared with taskLock }, .taskTest, [])
  | .taskSection =>
      match shared.tasks with
      | [] =>
          if shared.stop then
            some ({ shared with
              taskLock := shared.taskLock.unlock
              returned := insert index.val shared.returned }, .returned, [])
          else some ({ shared with taskLock := shared.taskLock.unlock }, .taskEnter, [])
      | task :: tasks =>
          if tasks.length ≤ pool.taskCapacity then
            some ({ shared with tasks, taskLock := shared.taskLock.unlock }, .taskNotify task,
              [.taken index task])
          else some ({ shared with tasks }, .aborted .tasks, [])
  | .taskNotify task =>
      some ({ shared with taskLock := shared.taskLock.notifyAll }, .dispatchCall task, [])
  | .dispatchCall task => some (shared, .dispatching task, [.dispatchBegan index task.ticket])
  | .dispatching task =>
      some (shared, .resultEnter ⟨task.ticket, handlerResult pool task.item⟩,
        [.dispatchEnded index task.ticket])
  | .resultEnter done =>
      match shared.resultLock.lock (.worker index) with
      | none => none
      | some resultLock =>
          match pool.options.resultQueueOverflow with
          | .dropOldestCompletedResult =>
              some ({ shared with resultLock }, .resultEvict done false, [])
          | .blockWorkerUntilPopped => some ({ shared with resultLock }, .resultTest done, [])
  | .resultEvict done madeRoom =>
      match shared.results with
      | [] => some (evictionDone pool shared done madeRoom)
      | oldest :: results =>
          if (oldest :: results).length ≥ pool.resultCapacity then
            some ({ shared with results }, .resultEvict done true, [.resultEvicted index oldest])
          else some (evictionDone pool shared done madeRoom)
  | .resultTest done =>
      if shared.stop || decide (shared.results.length < pool.resultCapacity) then
        some (shared, .resultStopTest done false, [])
      else some (shared, .resultSleep done, [])
  | .resultSleep done =>
      some ({ shared with resultLock := shared.resultLock.sleep (.worker index) },
        .resultWaiting done, [])
  | .resultWaiting done =>
      match shared.resultLock.wake (.worker index) choice.spurious with
      | none => none
      | some resultLock => some ({ shared with resultLock }, .resultTest done, [])
  | .resultStopTest done madeRoom =>
      if shared.stop then
        some ({ shared with
          resultLock := shared.resultLock.unlock
          returned := insert index.val shared.returned }, .returned,
          [.discarded index done, .resultSectionLeft index])
      else some (shared, .resultPush done madeRoom, [])
  | .resultPush done _ =>
      if shared.results.length < pool.resultCapacity then
        if (shared.results ++ [done]).length ≤ pool.resultCapacity then
          some ({ shared with
            results := shared.results ++ [done]
            resultLock := shared.resultLock.unlock }, .resultNotify,
            [.pushed index done, .resultSectionLeft index])
        else some ({ shared with results := shared.results ++ [done] }, .aborted .results, [])
      else some (shared, .aborted .results, [])
  | .resultNotify =>
      match shared.resultLock.notifyOne choice.pick with
      | none => none
      | some resultLock => some ({ shared with resultLock }, .taskEnter, [])
  | .returned => none
  | .aborted _ => none

/-- What `try_submit` does to the queue before it enqueues: the evicted task, if
any, and the tasks that stay; `none` when it rejects the new task. -/
def makeRoom (pool : WorkerPool) (tasks : List (Ticketed HandlerTask)) :
    Option (Option (Ticketed HandlerTask) × List (Ticketed HandlerTask)) :=
  if tasks.length ≥ pool.taskCapacity then
    match pool.options.taskQueueOverflow with
    | .dropOldestPendingTask =>
        match tasks with
        | [] => some (none, [])
        | oldest :: kept => some (some oldest, kept)
    | .rejectNewTask => none
  else some (none, tasks)

/-- A step of a caller of the public functions. An idle one makes the call that was
chosen. -/
def callerStep (pool : WorkerPool) (caller : T) (shared : Shared pool.numWorkers T)
    (choice : Choice pool.numWorkers T) :
    CallerPc → Option (Shared pool.numWorkers T × CallerPc × List (Event pool.numWorkers T))
  | .idle =>
      if shared.constructed then
        match choice.call with
        | none => none
        | some (.trySubmit task) => some (shared, .submitEnter task, [.submitCalled caller task])
        | some .tryPopResult => some (shared, .popEnter, [])
        | some .shutdown => some (shared, .shutdownEnter, [])
      else none
  | .submitEnter task =>
      match shared.taskLock.lock (.caller caller) with
      | none => none
      | some taskLock => some ({ shared with taskLock }, .submitTest task, [])
  | .submitTest task =>
      if shared.stop then
        some ({ shared with taskLock := shared.taskLock.unlock }, .idle,
          [.submitRejected caller task])
      else some (shared, .submitSection task, [])
  | .submitSection task =>
      match makeRoom pool shared.tasks with
      | none =>
          some ({ shared with taskLock := shared.taskLock.unlock }, .idle,
            [.submitRejected caller task])
      | some (evicted, kept) =>
          let tasks := kept ++ [⟨shared.accepted, task⟩]
          if tasks.length ≤ pool.taskCapacity then
            some ({ shared with
              tasks
              accepted := shared.accepted + 1
              taskLock := shared.taskLock.unlock }, .submitNotify,
              (evicted.map .taskEvicted).toList ++ [.accepted caller ⟨shared.accepted, task⟩])
          else some ({ shared with tasks }, .aborted .tasks, [])
  | .submitNotify =>
      match shared.taskLock.notifyOne choice.pick with
      | none => none
      | some taskLock => some ({ shared with taskLock }, .idle, [.submitAccepted caller])
  | .popEnter =>
      match shared.resultLock.lock (.caller caller) with
      | none => none
      | some resultLock => some ({ shared with resultLock }, .popSection, [])
  | .popSection =>
      match shared.results with
      | [] =>
          some ({ shared with resultLock := shared.resultLock.unlock }, .idle, [.popEmpty caller])
      | out :: results =>
          if results.length < pool.resultCapacity then
            some ({ shared with results, resultLock := shared.resultLock.unlock }, .popNotify,
              [.popped caller out])
          else some ({ shared with results }, .aborted .results, [])
  | .popNotify => some ({ shared with resultLock := shared.resultLock.notifyAll }, .idle, [])
  | .shutdownEnter =>
      if shared.stop then some (shared, .idle, [.shutdownReturned caller])
      else some ({ shared with stop := true }, .shutdownNotifyTask, [.stopStored caller])
  | .shutdownNotifyTask =>
      some ({ shared with taskLock := shared.taskLock.notifyAll }, .shutdownNotifyResult, [])
  | .shutdownNotifyResult =>
      some ({ shared with resultLock := shared.resultLock.notifyAll }, .shutdownJoin 0, [])
  | .shutdownJoin next =>
      if next < pool.numWorkers then
        if next ∈ shared.returned then some (shared, .shutdownJoin (next + 1), []) else none
      else some (shared, .idle, [.shutdownReturned caller])
  | .aborted _ => none

/-- The pool as a program of threads: the constructor's, the workers, and any number
of callers. -/
def poolProgram (pool : WorkerPool) (T : Type) [DecidableEq T] :
    Program (ThreadId pool.numWorkers T) (Local pool.numWorkers T) (Shared pool.numWorkers T)
      (Choice pool.numWorkers T) (Event pool.numWorkers T) where
  step thread shared own choice :=
    match thread, own with
    | .constructor, own => constructorStep pool shared choice own
    | .worker index, own => workerStep pool index shared choice own
    | .caller caller, own => callerStep pool caller shared choice own

/-- The configurations of the pool: what the threads share, and the place of each. -/
abbrev PoolConfig (pool : WorkerPool) (T : Type) :=
  Config (Local pool.numWorkers T) (Shared pool.numWorkers T)

/-- The constructor is about to start the first worker. Every run of the pool starts
here. -/
def fresh (pool : WorkerPool) (T : Type) : PoolConfig pool T where
  shared := {}
  locals
    | .constructor => ConstructorPc.constructing 0
    | .worker _ => WorkerPc.unstarted
    | .caller _ => CallerPc.idle

/-- The place of the constructor, which goes from worker to worker and is then done.
-/
def constructorPc {pool : WorkerPool} (config : PoolConfig pool T) : ConstructorPc :=
  config.locals .constructor

/-- The place of a worker in its loop. The index is one of the workers the pool was
made with. -/
def workerPc {pool : WorkerPool} (config : PoolConfig pool T) (index : Fin pool.numWorkers) :
    WorkerPc :=
  config.locals (.worker index)

/-- The place of a caller in the operation it has called, or that it has called none.
-/
def callerPc {pool : WorkerPool} (config : PoolConfig pool T) (caller : T) : CallerPc :=
  config.locals (.caller caller)

/-- Part of a schedule: some steps of one thread, without any special choice. -/
def steps {numWorkers : Nat} (thread : ThreadId numWorkers T) (count : Nat) :
    List (ThreadId numWorkers T × Choice numWorkers T) :=
  List.replicate count (thread, {})

/-- Part of a schedule: a caller makes a call and takes some steps in it. The first
one is the call. -/
def calls {numWorkers : Nat} (caller : T) (call : Call) (count : Nat) :
    List (ThreadId numWorkers T × Choice numWorkers T) :=
  (.caller caller, { call := some call }) :: steps (.caller caller) count

/-- Every interleaving, from the start of the constructor, with its history. -/
abbrev Reached (pool : WorkerPool) (config : PoolConfig pool T)
    (history : List (Event pool.numWorkers T)) : Prop :=
  Reaches (poolProgram pool T).system (fresh pool T) config history

end TcpServer.Runtime
