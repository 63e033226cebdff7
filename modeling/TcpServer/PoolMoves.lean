import TcpServer.WorkerPool

/-!
# The moves of the worker pool

All that a step of each kind of thread can do, one constructor for each branch
of the step functions with its guards and its effect. Results about the pool go
by cases on moves and never unfold the step functions.
-/

namespace TcpServer.Runtime

open Monitors Threads Transition

variable {T : Type} [DecidableEq T] (pool : WorkerPool)

/-- The branches of `constructorStep`, one rule for each, with what it does to the
shared part. -/
inductive ConstructorMove (shared : Shared pool.numWorkers T)
    (choice : Choice pool.numWorkers T) :
    ConstructorPc → Shared pool.numWorkers T → ConstructorPc →
      List (Event pool.numWorkers T) → Prop
  | startFailed {next : Nat} (more : next < pool.numWorkers) (fails : choice.startFails = true) :
      ConstructorMove shared choice (.constructing next) shared (.unwinding 0 next) []
  | startWorker {next : Nat} (more : next < pool.numWorkers) (starts : choice.startFails = false) :
      ConstructorMove shared choice (.constructing next) { shared with started := next + 1 }
        (.constructing (next + 1)) []
  | finish {next : Nat} (all : pool.numWorkers ≤ next) :
      ConstructorMove shared choice (.constructing next) { shared with constructed := true }
        .constructed []
  | join {joined started : Nat} (more : joined < started) (ended : joined ∈ shared.returned) :
      ConstructorMove shared choice (.unwinding joined started) shared
        (.unwinding (joined + 1) started) []
  | rethrow {joined started : Nat} (all : started ≤ joined) :
      ConstructorMove shared choice (.unwinding joined started) shared .threw [.constructorThrew]

/-- The branches of `workerStep`, one rule for each. Every invariant of the pool is
proved over these rules. -/
inductive WorkerMove (index : Fin pool.numWorkers) (shared : Shared pool.numWorkers T)
    (choice : Choice pool.numWorkers T) :
    WorkerPc → Shared pool.numWorkers T → WorkerPc → List (Event pool.numWorkers T) → Prop
  | start (launched : index.val < shared.started) :
      WorkerMove index shared choice .unstarted shared .taskEnter []
  | lockTasks {taskLock} (locked : shared.taskLock.lock (.worker index) = some taskLock) :
      WorkerMove index shared choice .taskEnter { shared with taskLock } .taskTest []
  | taskReady (ready : shared.stop = true ∨ shared.tasks ≠ []) :
      WorkerMove index shared choice .taskTest shared .taskSection []
  | taskWait (running : shared.stop = false) (empty : shared.tasks = []) :
      WorkerMove index shared choice .taskTest shared .taskSleep []
  | taskSleep :
      WorkerMove index shared choice .taskSleep
        { shared with taskLock := shared.taskLock.sleep (.worker index) } .taskWaiting []
  | taskWake {taskLock}
      (woken : shared.taskLock.wake (.worker index) choice.spurious = some taskLock) :
      WorkerMove index shared choice .taskWaiting { shared with taskLock } .taskTest []
  | leave (empty : shared.tasks = []) (stopped : shared.stop = true) :
      WorkerMove index shared choice .taskSection
        { shared with
          taskLock := shared.taskLock.unlock
          returned := insert index.val shared.returned } .returned []
  | retry (empty : shared.tasks = []) (running : shared.stop = false) :
      WorkerMove index shared choice .taskSection
        { shared with taskLock := shared.taskLock.unlock } .taskEnter []
  | take {task tasks} (front : shared.tasks = task :: tasks)
      (within : tasks.length ≤ pool.taskCapacity) :
      WorkerMove index shared choice .taskSection
        { shared with tasks, taskLock := shared.taskLock.unlock } (.taskNotify task)
        [.taken index task]
  | takeAborts {task tasks} (front : shared.tasks = task :: tasks)
      (exceeds : pool.taskCapacity < tasks.length) :
      WorkerMove index shared choice .taskSection { shared with tasks } (.aborted .tasks) []
  | notifyTaken {task} :
      WorkerMove index shared choice (.taskNotify task)
        { shared with taskLock := shared.taskLock.notifyAll } (.dispatchCall task) []
  | dispatch {task} :
      WorkerMove index shared choice (.dispatchCall task) shared (.dispatching task)
        [.dispatchBegan index task.ticket]
  | dispatched {task} :
      WorkerMove index shared choice (.dispatching task) shared
        (.resultEnter ⟨task.ticket, handlerResult pool task.item⟩)
        [.dispatchEnded index task.ticket]
  | lockResultsToEvict {done resultLock}
      (locked : shared.resultLock.lock (.worker index) = some resultLock)
      (policy : pool.options.resultQueueOverflow = .dropOldestCompletedResult) :
      WorkerMove index shared choice (.resultEnter done) { shared with resultLock }
        (.resultEvict done false) []
  | lockResultsToWait {done resultLock}
      (locked : shared.resultLock.lock (.worker index) = some resultLock)
      (policy : pool.options.resultQueueOverflow = .blockWorkerUntilPopped) :
      WorkerMove index shared choice (.resultEnter done) { shared with resultLock }
        (.resultTest done) []
  | evict {done madeRoom oldest results} (front : shared.results = oldest :: results)
      (full : pool.resultCapacity ≤ shared.results.length) :
      WorkerMove index shared choice (.resultEvict done madeRoom) { shared with results }
        (.resultEvict done true) [.resultEvicted index oldest]
  | evicted {done madeRoom} (room : shared.results.length < pool.resultCapacity) :
      WorkerMove index shared choice (.resultEvict done madeRoom) shared
        (.resultStopTest done madeRoom) []
  | evictAborts {done madeRoom} (empty : shared.results = [])
      (exceeds : pool.resultCapacity ≤ shared.results.length) :
      WorkerMove index shared choice (.resultEvict done madeRoom) shared (.aborted .results) []
  | resultReady {done}
      (ready : shared.stop = true ∨ shared.results.length < pool.resultCapacity) :
      WorkerMove index shared choice (.resultTest done) shared (.resultStopTest done false) []
  | resultWait {done} (running : shared.stop = false)
      (full : pool.resultCapacity ≤ shared.results.length) :
      WorkerMove index shared choice (.resultTest done) shared (.resultSleep done) []
  | resultSleep {done} :
      WorkerMove index shared choice (.resultSleep done)
        { shared with resultLock := shared.resultLock.sleep (.worker index) }
        (.resultWaiting done) []
  | resultWake {done resultLock}
      (woken : shared.resultLock.wake (.worker index) choice.spurious = some resultLock) :
      WorkerMove index shared choice (.resultWaiting done) { shared with resultLock }
        (.resultTest done) []
  | discard {done madeRoom} (stopped : shared.stop = true) :
      WorkerMove index shared choice (.resultStopTest done madeRoom)
        { shared with
          resultLock := shared.resultLock.unlock
          returned := insert index.val shared.returned } .returned
        [.discarded index done, .resultSectionLeft index]
  | goOn {done madeRoom} (running : shared.stop = false) :
      WorkerMove index shared choice (.resultStopTest done madeRoom) shared
        (.resultPush done madeRoom) []
  | push {done madeRoom} (room : shared.results.length < pool.resultCapacity) :
      WorkerMove index shared choice (.resultPush done madeRoom)
        { shared with
          results := shared.results ++ [done]
          resultLock := shared.resultLock.unlock } .resultNotify
        [.pushed index done, .resultSectionLeft index]
  | pushAborts {done madeRoom} (exceeds : pool.resultCapacity ≤ shared.results.length) :
      WorkerMove index shared choice (.resultPush done madeRoom) shared (.aborted .results) []
  | notifyPushed {resultLock}
      (notified : shared.resultLock.notifyOne choice.pick = some resultLock) :
      WorkerMove index shared choice .resultNotify { shared with resultLock } .taskEnter []

/-- The branches of `callerStep`, one rule for each. Every invariant of the pool is
proved over these rules. -/
inductive CallerMove (caller : T) (shared : Shared pool.numWorkers T)
    (choice : Choice pool.numWorkers T) :
    CallerPc → Shared pool.numWorkers T → CallerPc → List (Event pool.numWorkers T) → Prop
  | callSubmit {task} (constructed : shared.constructed = true) :
      CallerMove caller shared choice .idle shared (.submitEnter task) [.submitCalled caller task]
  | callPop (constructed : shared.constructed = true) :
      CallerMove caller shared choice .idle shared .popEnter []
  | callShutdown (constructed : shared.constructed = true) :
      CallerMove caller shared choice .idle shared .shutdownEnter []
  | lockTasks {task taskLock} (locked : shared.taskLock.lock (.caller caller) = some taskLock) :
      CallerMove caller shared choice (.submitEnter task) { shared with taskLock }
        (.submitTest task) []
  | refuseStopped {task} (stopped : shared.stop = true) :
      CallerMove caller shared choice (.submitTest task)
        { shared with taskLock := shared.taskLock.unlock } .idle [.submitRejected caller task]
  | goOn {task} (running : shared.stop = false) :
      CallerMove caller shared choice (.submitTest task) shared (.submitSection task) []
  | refuseFull {task} (full : makeRoom pool shared.tasks = none) :
      CallerMove caller shared choice (.submitSection task)
        { shared with taskLock := shared.taskLock.unlock } .idle [.submitRejected caller task]
  | enqueue {task evicted kept} (room : makeRoom pool shared.tasks = some (evicted, kept))
      (within : kept.length < pool.taskCapacity) :
      CallerMove caller shared choice (.submitSection task)
        { shared with
          tasks := kept ++ [⟨shared.accepted, task⟩]
          accepted := shared.accepted + 1
          taskLock := shared.taskLock.unlock } .submitNotify
        ((evicted.map .taskEvicted).toList ++ [.accepted caller ⟨shared.accepted, task⟩])
  | enqueueAborts {task evicted kept} (room : makeRoom pool shared.tasks = some (evicted, kept))
      (exceeds : pool.taskCapacity ≤ kept.length) :
      CallerMove caller shared choice (.submitSection task)
        { shared with tasks := kept ++ [⟨shared.accepted, task⟩] } (.aborted .tasks) []
  | notifyEnqueued {taskLock} (notified : shared.taskLock.notifyOne choice.pick = some taskLock) :
      CallerMove caller shared choice .submitNotify { shared with taskLock } .idle
        [.submitAccepted caller]
  | lockResults {resultLock} (locked : shared.resultLock.lock (.caller caller) = some resultLock) :
      CallerMove caller shared choice .popEnter { shared with resultLock } .popSection []
  | popNothing (empty : shared.results = []) :
      CallerMove caller shared choice .popSection
        { shared with resultLock := shared.resultLock.unlock } .idle [.popEmpty caller]
  | pop {out results} (front : shared.results = out :: results)
      (room : results.length < pool.resultCapacity) :
      CallerMove caller shared choice .popSection
        { shared with results, resultLock := shared.resultLock.unlock } .popNotify
        [.popped caller out]
  | popAborts {out results} (front : shared.results = out :: results)
      (exceeds : pool.resultCapacity ≤ results.length) :
      CallerMove caller shared choice .popSection { shared with results } (.aborted .results) []
  | notifyPopped :
      CallerMove caller shared choice .popNotify
        { shared with resultLock := shared.resultLock.notifyAll } .idle []
  | stopAgain (stopped : shared.stop = true) :
      CallerMove caller shared choice .shutdownEnter shared .idle [.shutdownReturned caller]
  | stopFirst (running : shared.stop = false) :
      CallerMove caller shared choice .shutdownEnter { shared with stop := true }
        .shutdownNotifyTask [.stopStored caller]
  | notifyTasks :
      CallerMove caller shared choice .shutdownNotifyTask
        { shared with taskLock := shared.taskLock.notifyAll } .shutdownNotifyResult []
  | notifyResults :
      CallerMove caller shared choice .shutdownNotifyResult
        { shared with resultLock := shared.resultLock.notifyAll } (.shutdownJoin 0) []
  | join {next : Nat} (more : next < pool.numWorkers) (ended : next ∈ shared.returned) :
      CallerMove caller shared choice (.shutdownJoin next) shared (.shutdownJoin (next + 1)) []
  | joined {next : Nat} (all : pool.numWorkers ≤ next) :
      CallerMove caller shared choice (.shutdownJoin next) shared .idle [.shutdownReturned caller]

variable {pool} {shared after : Shared pool.numWorkers T} {choice : Choice pool.numWorkers T}
  {events : List (Event pool.numWorkers T)}

omit [DecidableEq T] in
/-- Every step of the constructor is one of its moves. -/
theorem constructor_step_move {before own : ConstructorPc}
    (stepped : constructorStep pool shared choice before = some (after, own, events)) :
    ConstructorMove pool shared choice before after own events := by
  cases before with
  | constructing next =>
    simp only [constructorStep] at stepped
    split at stepped
    · split at stepped <;> cases stepped
      · exact .startFailed (by assumption) (by assumption)
      · exact .startWorker (by assumption) (by simpa using ‹¬ choice.startFails = true›)
    · cases stepped
      exact .finish (by omega)
  | constructed => cases stepped
  | unwinding joined started =>
    simp only [constructorStep] at stepped
    split at stepped
    · split at stepped <;> cases stepped
      exact .join (by assumption) (by assumption)
    · cases stepped
      exact .rethrow (by omega)
  | threw => cases stepped

/-- The end of the eviction loop is one of two moves. -/
theorem eviction_done_move {index : Fin pool.numWorkers} {done : Ticketed HandlerResult}
    {madeRoom : Bool} {own : WorkerPc}
    (finished : shared.results = [] ∨ shared.results.length < pool.resultCapacity)
    (ended : evictionDone pool shared done madeRoom = (after, own, events)) :
    WorkerMove pool index shared choice (.resultEvict done madeRoom) after own events := by
  unfold evictionDone at ended
  split at ended <;> cases ended
  · exact .evicted (by assumption)
  · rename_i exceeds
    rcases finished with empty | room
    · exact .evictAborts empty (Nat.le_of_not_lt exceeds)
    · exact absurd room exceeds

/-- Every step of a worker is one of its moves. One case for each place of
`worker_loop`, error paths included; nothing else unfolds the step. -/
theorem worker_step_move {index : Fin pool.numWorkers} {before own : WorkerPc}
    (stepped : workerStep pool index shared choice before = some (after, own, events)) :
    WorkerMove pool index shared choice before after own events := by
  cases before with
  | unstarted =>
    simp only [workerStep] at stepped
    split at stepped <;> cases stepped
    exact .start (by assumption)
  | taskEnter =>
    simp only [workerStep] at stepped
    split at stepped <;> cases stepped
    exact .lockTasks (by assumption)
  | taskTest =>
    simp only [workerStep] at stepped
    split at stepped <;> cases stepped
    · exact .taskReady (by simpa using ‹(shared.stop || !shared.tasks.isEmpty) = true›)
    · rename_i waits
      simp only [Bool.or_eq_true, Bool.not_eq_true', List.isEmpty_eq_false_iff, ne_eq, not_or,
        Bool.not_eq_true, Decidable.not_not] at waits
      exact .taskWait waits.1 waits.2
  | taskSleep =>
    cases stepped
    exact .taskSleep
  | taskWaiting =>
    simp only [workerStep] at stepped
    split at stepped <;> cases stepped
    exact .taskWake (by assumption)
  | taskSection =>
    simp only [workerStep] at stepped
    split at stepped
    · split at stepped <;> cases stepped
      · exact .leave (by assumption) (by assumption)
      · exact .retry (by assumption) (by simpa using ‹¬ shared.stop = true›)
    · split at stepped <;> cases stepped
      · exact .take (by assumption) (by assumption)
      · exact .takeAborts (by assumption) (by omega)
  | taskNotify task =>
    cases stepped
    exact .notifyTaken
  | dispatchCall task =>
    cases stepped
    exact .dispatch
  | dispatching task =>
    cases stepped
    exact .dispatched
  | resultEnter done =>
    simp only [workerStep] at stepped
    split at stepped
    · cases stepped
    · split at stepped <;> cases stepped
      · exact .lockResultsToEvict (by assumption) (by assumption)
      · exact .lockResultsToWait (by assumption) (by assumption)
  | resultEvict done madeRoom =>
    simp only [workerStep] at stepped
    split at stepped
    · rename_i empty
      exact eviction_done_move (.inl empty) (Option.some.inj stepped)
    · rename_i oldest results front
      split at stepped
      · rename_i full
        cases stepped
        exact .evict front (by rw [front]; exact full)
      · rename_i room
        refine eviction_done_move (.inr ?_) (Option.some.inj stepped)
        rw [front]
        omega
  | resultTest done =>
    simp only [workerStep] at stepped
    split at stepped <;> cases stepped
    · rename_i ready
      simp only [Bool.or_eq_true, decide_eq_true_eq] at ready
      exact .resultReady ready
    · rename_i waits
      simp only [Bool.or_eq_true, decide_eq_true_eq, not_or, Bool.not_eq_true, Nat.not_lt] at waits
      exact .resultWait waits.1 waits.2
  | resultSleep done =>
    cases stepped
    exact .resultSleep
  | resultWaiting done =>
    simp only [workerStep] at stepped
    split at stepped <;> cases stepped
    exact .resultWake (by assumption)
  | resultStopTest done madeRoom =>
    simp only [workerStep] at stepped
    split at stepped <;> cases stepped
    · exact .discard (by assumption)
    · exact .goOn (by simpa using ‹¬ shared.stop = true›)
  | resultPush done madeRoom =>
    simp only [workerStep] at stepped
    split at stepped
    · rename_i room
      have within : (shared.results ++ [done]).length ≤ pool.resultCapacity := by
        rw [List.length_append, List.length_singleton]
        exact room
      simp only [within, ↓reduceIte, Option.some.injEq, Prod.mk.injEq] at stepped
      obtain ⟨rfl, rfl, rfl⟩ := stepped
      exact .push room
    · cases stepped
      exact .pushAborts (by omega)
  | resultNotify =>
    simp only [workerStep] at stepped
    split at stepped <;> cases stepped
    exact .notifyPushed (by assumption)
  | returned => cases stepped
  | aborted inside => cases stepped

/-- Every step of a caller is one of its moves. One case for each place of the three
public functions. -/
theorem caller_step_move {caller : T} {before own : CallerPc}
    (stepped : callerStep pool caller shared choice before = some (after, own, events)) :
    CallerMove pool caller shared choice before after own events := by
  cases before with
  | idle =>
    simp only [callerStep] at stepped
    split at stepped
    · split at stepped <;> cases stepped
      · exact .callSubmit (by assumption)
      · exact .callPop (by assumption)
      · exact .callShutdown (by assumption)
    · cases stepped
  | submitEnter task =>
    simp only [callerStep] at stepped
    split at stepped <;> cases stepped
    exact .lockTasks (by assumption)
  | submitTest task =>
    simp only [callerStep] at stepped
    split at stepped <;> cases stepped
    · exact .refuseStopped (by assumption)
    · exact .goOn (by simpa using ‹¬ shared.stop = true›)
  | submitSection task =>
    simp only [callerStep] at stepped
    split at stepped
    · cases stepped
      exact .refuseFull (by assumption)
    · rename_i evicted kept room
      simp only [List.length_append, List.length_singleton] at stepped
      split at stepped <;> cases stepped
      · exact .enqueue room (by omega)
      · exact .enqueueAborts room (by omega)
  | submitNotify =>
    simp only [callerStep] at stepped
    split at stepped <;> cases stepped
    exact .notifyEnqueued (by assumption)
  | popEnter =>
    simp only [callerStep] at stepped
    split at stepped <;> cases stepped
    exact .lockResults (by assumption)
  | popSection =>
    simp only [callerStep] at stepped
    split at stepped
    · cases stepped
      exact .popNothing (by assumption)
    · split at stepped <;> cases stepped
      · exact .pop (by assumption) (by assumption)
      · exact .popAborts (by assumption) (by omega)
  | popNotify =>
    cases stepped
    exact .notifyPopped
  | shutdownEnter =>
    simp only [callerStep] at stepped
    split at stepped <;> cases stepped
    · exact .stopAgain (by assumption)
    · exact .stopFirst (by simpa using ‹¬ shared.stop = true›)
  | shutdownNotifyTask =>
    cases stepped
    exact .notifyTasks
  | shutdownNotifyResult =>
    cases stepped
    exact .notifyResults
  | shutdownJoin next =>
    simp only [callerStep] at stepped
    split at stepped
    · split at stepped <;> cases stepped
      exact .join (by assumption) (by assumption)
    · cases stepped
      exact .joined (by omega)
  | aborted inside => cases stepped

end TcpServer.Runtime
