import TcpServer.AtomicObjects
import TcpServer.PoolSafety

/-!
# The worker pool as an atomic object

What the pool is for, without mutexes, condition variables and interleaving: two bounded
queues, a stop flag, and what each worker has in hand between the queues. Each operation
is one indivisible change with its answer.

The marks say where in the code a call takes effect. `try_submit` does so where it reads
the stop flag under the lock of the tasks, which is before it enqueues, and a worker's
result where the worker reads the flag, which is before it pushes: a flag that is set in
between is set behind them.
-/

namespace TcpServer.Runtime

open AtomicObjects Monitors Threads Transition

/-- What a worker has between the two queues: a task it has taken, or the result it
has made of it. -/
inductive Hand where
  | task (task : Ticketed HandlerTask)
  | result (done : Ticketed HandlerResult)
deriving DecidableEq

/-- The abstract pool: whether it was stopped, the pending tasks, how many were
issued, what each worker has in its hands, and the completed results. It has no locks
and no threads. -/
structure AtomicPool (numWorkers : Nat) where
  stopped : Bool := false
  pending : List (Ticketed HandlerTask) := []
  issued : Nat := 0
  hands : Fin numWorkers → Option Hand := fun _ => none
  completed : List (Ticketed HandlerResult) := []

/-- The public operations with their answers, and the operations of the workers. Each
is indivisible here. -/
inductive Operation (numWorkers : Nat) (T : Type) where
  | submit (caller : T) (task : HandlerTask) (accepted : Bool)
  | pop (caller : T) (out : Option (Ticketed HandlerResult))
  | stop (caller : T)
  | take (worker : Fin numWorkers)
  | dispatch (worker : Fin numWorkers)
  | evict (worker : Fin numWorkers)
  | store (worker : Fin numWorkers)
  | discard (worker : Fin numWorkers)
deriving DecidableEq

namespace AtomicPool

variable {pool : WorkerPool}

/-- Put something into the hands of a worker, or take it away. The other workers are
not concerned. -/
def give (state : AtomicPool pool.numWorkers) (worker : Fin pool.numWorkers)
    (hand : Option Hand) : AtomicPool pool.numWorkers :=
  { state with hands := Function.update state.hands worker hand }

/-- The pool with one more task, unless it is stopped or has no room. Under one policy
room is made by dropping the oldest. -/
def enqueue (pool : WorkerPool) (state : AtomicPool pool.numWorkers) (task : HandlerTask) :
    Option (AtomicPool pool.numWorkers) :=
  if state.stopped then none
  else (makeRoom pool state.pending).map fun room =>
    { state with pending := room.2 ++ [⟨state.issued, task⟩], issued := state.issued + 1 }

end AtomicPool

variable {T : Type} [DecidableEq T]

/-- One operation on the whole pool. It is possible only with the answer that the
state of the pool gives. -/
def atomicPool (pool : WorkerPool) (T : Type) :
    AtomicObject (AtomicPool pool.numWorkers) (Operation pool.numWorkers T) where
  apply state
    | .submit _ task accepted =>
        match state.enqueue pool task with
        | some next => if accepted then some next else none
        | none => if accepted then none else some state
    | .pop _ out =>
        if out = state.completed.head? then some { state with completed := state.completed.tail }
        else none
    | .stop _ => some { state with stopped := true }
    | .take worker =>
        match state.hands worker, state.pending with
        | none, task :: pending => some ({ state with pending }.give worker (some (.task task)))
        | _, _ => none
    | .dispatch worker =>
        match state.hands worker with
        | some (.task task) =>
            some (state.give worker (some (.result ⟨task.ticket, handlerResult pool task.item⟩)))
        | _ => none
    | .evict worker =>
        match state.hands worker, state.completed with
        | some (.result _), _ :: completed =>
            if pool.options.resultQueueOverflow = .dropOldestCompletedResult ∧
                pool.resultCapacity ≤ state.completed.length then some { state with completed }
            else none
        | _, _ => none
    | .store worker =>
        match state.hands worker with
        | some (.result done) =>
            if state.stopped = false ∧ state.completed.length < pool.resultCapacity then
              some ({ state with completed := state.completed ++ [done] }.give worker none)
            else none
        | _ => none
    | .discard worker =>
        match state.hands worker with
        | some (.result _) => if state.stopped then some (state.give worker none) else none
        | _ => none

/-- What a public function returns; `try_pop_result` moves the result out besides. -/
inductive Answer where
  | submitted (accepted : Bool)
  | popped (found : Bool)
  | shutDown
deriving DecidableEq

/-- A public function is called, something takes effect, a public function returns. A
step of the pool has at most two marks. -/
inductive Mark (numWorkers : Nat) (T : Type) where
  | called (caller : T) (call : Call)
  | effect (operation : Operation numWorkers T)
  | returned (caller : T) (answer : Answer)
deriving DecidableEq

/-- The operation of the abstract pool that a mark stands for, if it is one. Calls and
returns change nothing. -/
def Mark.operation {numWorkers : Nat} : Mark numWorkers T → Option (Operation numWorkers T)
  | .effect operation => some operation
  | _ => none

/-- The caller whose call it belongs to. What a worker does belongs to none. -/
def Mark.caller {numWorkers : Nat} : Mark numWorkers T → Option T
  | .called caller _ | .returned caller _ | .effect (.submit caller _ _) | .effect (.pop caller _)
  | .effect (.stop caller) => some caller
  | .effect _ => none

/-- An answer that a caller is told, with the result that a pop has moved out. -/
inductive Told (T : Type) where
  | submitted (caller : T) (accepted : Bool)
  | popped (caller : T) (out : Option (Ticketed HandlerResult))
  | shutDown (caller : T)
deriving DecidableEq

/-- What a mark says that the caller is told. The result of a pop is known when it
takes effect. -/
def Mark.told {numWorkers : Nat} : Mark numWorkers T → Option (Told T)
  | .returned caller (.submitted accepted) => some (.submitted caller accepted)
  | .effect (.pop caller out) => some (.popped caller out)
  | .returned caller .shutDown => some (.shutDown caller)
  | _ => none

/-- What the code tells the caller. Both lists are the same in a run, which is what
makes the marks honest. -/
def Event.told {numWorkers : Nat} : Event numWorkers T → Option (Told T)
  | .submitAccepted caller => some (.submitted caller true)
  | .submitRejected caller _ => some (.submitted caller false)
  | .popped caller result => some (.popped caller (some result))
  | .popEmpty caller => some (.popped caller none)
  | .shutdownReturned caller => some (.shutDown caller)
  | _ => none

/-- Where a caller is in its call: it has not taken effect yet, or its answer is
settled. -/
inductive Session where
  | ready
  | called (call : Call)
  | settled (answer : Answer)
deriving DecidableEq

/-- The marks of one caller: call, effect of that call, return of its answer. So every
call takes effect once, between the two. -/
def session (numWorkers : Nat) (T : Type) : AtomicObject Session (Mark numWorkers T) where
  apply
    | .ready, .called _ call => some (.called call)
    | .called (.trySubmit task), .effect (.submit _ submitted accepted) =>
        if submitted = task then some (.settled (.submitted accepted)) else none
    | .called .tryPopResult, .effect (.pop _ out) => some (.settled (.popped out.isSome))
    | .called .shutdown, .effect (.stop _) => some (.settled .shutDown)
    | .settled answer, .returned _ returned => if returned = answer then some .ready else none
    | _, _ => none

section Marks

variable (pool : WorkerPool)

/-- The marks of a step of a caller. A submission takes effect where the caller has
tested the stop flag under the lock of the tasks, since from there on its outcome is
settled. -/
def callerMarks (caller : T) (shared : Shared pool.numWorkers T)
    (choice : Choice pool.numWorkers T) : CallerPc → List (Mark pool.numWorkers T)
  | .idle =>
      match choice.call with
      | none => []
      | some call => [.called caller call]
  | .submitTest task =>
      if shared.stop then
        [.effect (.submit caller task false), .returned caller (.submitted false)]
      else [.effect (.submit caller task (makeRoom pool shared.tasks).isSome)]
  | .submitSection _ =>
      if (makeRoom pool shared.tasks).isSome then [] else [.returned caller (.submitted false)]
  | .submitNotify => [.returned caller (.submitted true)]
  | .popSection =>
      if shared.results.isEmpty then [.effect (.pop caller none), .returned caller (.popped false)]
      else [.effect (.pop caller shared.results.head?)]
  | .popNotify => [.returned caller (.popped true)]
  | .shutdownEnter =>
      if shared.stop then [.effect (.stop caller), .returned caller .shutDown]
      else [.effect (.stop caller)]
  | .shutdownJoin next => if next < pool.numWorkers then [] else [.returned caller .shutDown]
  | _ => []

/-- The marks of a step of a worker: each of its effects is at the step that carries
it out. -/
def workerMarks (worker : Fin pool.numWorkers) (shared : Shared pool.numWorkers T) :
    WorkerPc → List (Mark pool.numWorkers T)
  | .taskSection => if shared.tasks.isEmpty then [] else [.effect (.take worker)]
  | .dispatching _ => [.effect (.dispatch worker)]
  | .resultEvict _ _ =>
      if !shared.results.isEmpty && decide (pool.resultCapacity ≤ shared.results.length) then
        [.effect (.evict worker)]
      else []
  | .resultStopTest _ _ =>
      if shared.stop then [.effect (.discard worker)] else [.effect (.store worker)]
  | _ => []

/-- The marks of a step of the pool. The constructor has none, and a worker only
effects. -/
def poolMarks (config : PoolConfig pool T)
    (choice : ThreadId pool.numWorkers T × Choice pool.numWorkers T) :
    List (Mark pool.numWorkers T) :=
  match choice.1 with
  | .constructor => []
  | .worker worker => workerMarks pool worker config.shared (workerPc config worker)
  | .caller caller => callerMarks pool caller config.shared choice.2 (callerPc config caller)

end Marks

section Standing

variable {pool : WorkerPool}

/-- What a worker has in hand. A result is no longer its own once it is stored, which
is before it is pushed. -/
def WorkerPc.hand : WorkerPc → Option Hand
  | .taskNotify task | .dispatchCall task | .dispatching task => some (.task task)
  | .resultEnter done | .resultEvict done _ | .resultTest done | .resultSleep done
  | .resultWaiting done | .resultStopTest done _ => some (.result done)
  | _ => none

/-- The result that a worker has stored and is about to push. Nobody else can look at
the queue in between. -/
def WorkerPc.storing : WorkerPc → Option (Ticketed HandlerResult)
  | .resultPush done _ => some done
  | _ => none

/-- The queue with the task that a caller has admitted and is about to enqueue. The
test of `stop_` is behind it. -/
def CallerPc.admitting (pool : WorkerPool) (shared : Shared pool.numWorkers T) :
    CallerPc → Option (List (Ticketed HandlerTask))
  | .submitSection task => (makeRoom pool shared.tasks).map fun room =>
      room.2 ++ [⟨shared.accepted, task⟩]
  | _ => none

/-- The queue that a thread inside of the lock of the tasks is about to leave behind.
-/
def admitting (pool : WorkerPool) (shared : Shared pool.numWorkers T) :
    (thread : ThreadId pool.numWorkers T) → Local pool.numWorkers T thread →
      Option (List (Ticketed HandlerTask))
  | .constructor, _ | .worker _, _ => none
  | .caller _, own => CallerPc.admitting pool shared own

/-- The result that a thread inside of the lock of the results is about to push. Only
workers push. -/
def storing {numWorkers : Nat} :
    (thread : ThreadId numWorkers T) → Local numWorkers T thread → Option (Ticketed HandlerResult)
  | .constructor, _ | .caller _, _ => none
  | .worker _, own => WorkerPc.storing own

/-- The queue that the thread inside of the lock of the tasks is about to leave, if it
is about to enqueue. -/
def admitted (config : PoolConfig pool T) : Option (List (Ticketed HandlerTask)) :=
  match config.shared.taskLock.holder with
  | none => none
  | some thread => admitting pool config.shared thread (config.locals thread)

/-- The result that the thread inside of the lock of the results is about to push, if
there is one. -/
def stored (config : PoolConfig pool T) : Option (Ticketed HandlerResult) :=
  match config.shared.resultLock.holder with
  | none => none
  | some thread => storing thread (config.locals thread)

/-- The atomic pool that a configuration stands for. What a thread inside of a lock is
bound to do counts as done. -/
def standsFor (config : PoolConfig pool T) : AtomicPool pool.numWorkers where
  stopped := config.shared.stop
  pending := (admitted config).getD config.shared.tasks
  issued := config.shared.accepted + (if (admitted config).isSome then 1 else 0)
  hands worker := (workerPc config worker).hand
  completed := config.shared.results ++ (stored config).toList

/-- Where a caller is in its call, as its place tells. An answer is settled as soon as
nothing can change it. -/
def sessionOf (pool : WorkerPool) (shared : Shared pool.numWorkers T) : CallerPc → Session
  | .idle | .aborted _ => .ready
  | .submitEnter task | .submitTest task => .called (.trySubmit task)
  | .submitSection _ => .settled (.submitted (makeRoom pool shared.tasks).isSome)
  | .submitNotify => .settled (.submitted true)
  | .popEnter | .popSection => .called .tryPopResult
  | .popNotify => .settled (.popped true)
  | .shutdownEnter => .called .shutdown
  | .shutdownNotifyTask | .shutdownNotifyResult | .shutdownJoin _ => .settled .shutDown

end Standing

end TcpServer.Runtime
