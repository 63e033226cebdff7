import TcpServer.PoolSimulation

/-!
# Linearizability of the worker pool

The marks of every run are a run of the atomic pool, and those of each caller are calls
with one effect each, between the call and its return, which gives the answer of that
effect. The answers are those that the code gives, in the same order. So every run of
the pool, with any number of callers and workers, can be told as if each call took
place at one instant in its duration.
-/

namespace TcpServer.Runtime

open AtomicObjects Monitors Threads Transition

variable {T : Type} [DecidableEq T] {pool : WorkerPool}

section Moves

variable {shared after : Shared pool.numWorkers T} {choice : Choice pool.numWorkers T}
  {events : List (Event pool.numWorkers T)}

omit [DecidableEq T] in
/-- The marks of a worker belong to no caller, so they are no part of any session. -/
theorem worker_marks_none (index : Fin pool.numWorkers) (own : WorkerPc) :
    ∀ mark ∈ workerMarks pool index shared own, mark.caller = none := by
  cases own <;> simp only [workerMarks] <;> (try split) <;> simp [Mark.caller]

omit [DecidableEq T] in
/-- The marks of a caller are its own, in every one of its steps. -/
theorem caller_marks_own (caller : T) (own : CallerPc) :
    ∀ mark ∈ callerMarks pool caller shared choice own, mark.caller = some caller := by
  cases own <;> simp only [callerMarks] <;> (try split) <;> simp [Mark.caller]

/-- An idle caller goes where its call begins, and the call has not taken effect
there. -/
theorem caller_call {caller : T} {own : CallerPc}
    (stepped : callerStep pool caller shared choice .idle = some (after, own, events)) :
    ∃ call, choice.call = some call ∧ sessionOf pool after own = .called call := by
  simp only [callerStep] at stepped
  split at stepped
  · split at stepped <;> cases stepped
    all_goals exact ⟨_, by assumption, rfl⟩
  · cases stepped

/-- A step of a caller is what its session allows. Proof: by cases on the moves, each
of which is at most one operation of the session and its return. -/
theorem caller_step_session {caller : T} {before own : CallerPc}
    (stepped : callerStep pool caller shared choice before = some (after, own, events))
    (never : ∀ inside, own ≠ .aborted inside) :
    (session pool.numWorkers T).run (sessionOf pool shared before)
        (callerMarks pool caller shared choice before) = some (sessionOf pool after own) := by
  cases caller_step_move stepped with
  | callSubmit | callPop | callShutdown =>
    obtain ⟨call, called, begins⟩ := caller_call stepped
    rw [begins]
    simp only [callerMarks, called, run_single]
    rfl
  | refuseStopped stop => simp [callerMarks, stop, sessionOf, AtomicObject.run, session]
  | goOn running => simp [callerMarks, running, sessionOf, run_single, session]
  | refuseFull full => simp [callerMarks, full, sessionOf, run_single, session]
  | enqueue room => simp [callerMarks, room, sessionOf, AtomicObject.run]
  | popNothing empty => simp [callerMarks, empty, sessionOf, AtomicObject.run, session]
  | pop front => simp [callerMarks, front, sessionOf, run_single, session]
  | stopAgain stop => simp [callerMarks, stop, sessionOf, AtomicObject.run, session]
  | stopFirst running => simp [callerMarks, running, sessionOf, run_single, session]
  | join more => simp [callerMarks, more, sessionOf, AtomicObject.run]
  | joined all => simp [callerMarks, Nat.not_lt_of_le all, sessionOf, run_single, session]
  | notifyEnqueued | notifyPopped => simp [callerMarks, sessionOf, run_single, session]
  | enqueueAborts | popAborts => exact absurd rfl (never _)
  | _ => rfl

/-- The marks of a caller say what the code tells it. The answer of a submission is
settled where it is admitted, and told when it returns. -/
theorem caller_move_told {caller : T} {before own : CallerPc}
    (move : CallerMove pool caller shared choice before after own events)
    (never : ∀ inside, own ≠ .aborted inside) :
    (callerMarks pool caller shared choice before).filterMap Mark.told =
      events.filterMap Event.told := by
  cases move with
  | callSubmit | callPop | callShutdown =>
    cases called : choice.call <;> simp only [callerMarks, called] <;> rfl
  | refuseStopped stop | stopAgain stop =>
    simp only [callerMarks, stop, ↓reduceIte]
    rfl
  | goOn running | stopFirst running =>
    simp only [callerMarks, running, Bool.false_eq_true, ↓reduceIte]
    rfl
  | refuseFull full =>
    simp only [callerMarks, full, Option.isSome_none, Bool.false_eq_true, ↓reduceIte]
    rfl
  | @enqueue _ evicted _ room =>
    simp only [callerMarks, room, Option.isSome_some, ↓reduceIte]
    cases evicted <;> rfl
  | popNothing empty =>
    simp only [callerMarks, empty, List.isEmpty_nil, ↓reduceIte]
    rfl
  | pop front =>
    simp only [callerMarks, front, List.isEmpty_cons, Bool.false_eq_true, ↓reduceIte]
    rfl
  | join more =>
    simp only [callerMarks, more, ↓reduceIte]
    rfl
  | joined all =>
    simp only [callerMarks, Nat.not_lt_of_le all, ↓reduceIte]
    rfl
  | enqueueAborts | popAborts => exact absurd rfl (never _)
  | _ => rfl

omit [DecidableEq T] in
/-- The constructor tells no caller anything. -/
theorem constructor_move_told {before own : ConstructorPc}
    (move : ConstructorMove pool shared choice before after own events) :
    events.filterMap Event.told = [] := by
  cases move <;> rfl

/-- A worker tells no caller anything either, and its marks say so. -/
theorem worker_move_told {index : Fin pool.numWorkers} {before own : WorkerPc}
    (move : WorkerMove pool index shared choice before after own events) :
    (workerMarks pool index shared before).filterMap Mark.told =
      events.filterMap Event.told := by
  have marks : (workerMarks pool index shared before).filterMap Mark.told = [] := by
    cases before <;> simp only [workerMarks] <;> (try split) <;> simp [Mark.told]
  rw [marks]
  cases move <;> rfl

omit [DecidableEq T] in
/-- Where a caller is in its call depends on the queue only inside the mutex, where
nobody else changes it. -/
theorem session_same {own : CallerPc} (same : own.insideTasks = true → after.tasks = shared.tasks) :
    sessionOf pool after own = sessionOf pool shared own := by
  cases own with
  | submitSection task => simp only [sessionOf, same rfl]
  | _ => rfl

end Moves

section Steps

variable {config next : PoolConfig pool T} {history events : List (Event pool.numWorkers T)}
  {thread : ThreadId pool.numWorkers T} {choice : Choice pool.numWorkers T}

/-- A step of one thread leaves the session of every other caller where it is, since
the mutex keeps the two apart. -/
theorem other_session_stays (reached : Reached pool config history)
    (stepped : (poolProgram pool T).system.step config (thread, choice) = some (next, events))
    {caller : T} (different : thread ≠ .caller caller) :
    sessionOf pool next.shared (callerPc next caller) =
      sessionOf pool config.shared (callerPc config caller) := by
  have stays : callerPc next caller = callerPc config caller :=
    (system_step_cases stepped).2 (.caller caller) different.symm
  rw [stays]
  refine session_same fun inside => ?_
  have outside := exclusive_outside (task_exclusion reached) (.caller caller) inside different
  exact ((pool_step_admitted reached stepped).2 outside).1

/-- Every step is what the session of each caller allows: its own step by its moves,
the steps of others by doing nothing to it. -/
theorem pool_step_session (reached : Reached pool config history)
    (stepped : (poolProgram pool T).system.step config (thread, choice) = some (next, events))
    (caller : T) :
    (session pool.numWorkers T).run (sessionOf pool config.shared (callerPc config caller))
        ((poolMarks pool config (thread, choice)).filterMap (ownedBy Mark.caller caller)) =
      some (sessionOf pool next.shared (callerPc next caller)) := by
  by_cases same : thread = .caller caller
  · subst same
    obtain ⟨_, never⟩ := run_never_aborts (reaches_step reached stepped)
    have own : (poolMarks pool config (.caller caller, choice)).filterMap
        (ownedBy Mark.caller caller) =
          callerMarks pool caller config.shared choice (callerPc config caller) :=
      owned_all (caller_marks_own caller _)
    rw [own]
    exact caller_step_session (system_step_cases stepped).1 (never caller)
  · have nothing : (poolMarks pool config (thread, choice)).filterMap
        (ownedBy Mark.caller caller) = [] := by
      refine owned_none fun mark member belongs => ?_
      cases thread with
      | constructor => cases member
      | worker index =>
        exact absurd ((worker_marks_none index _ mark member).symm.trans belongs) nofun
      | caller other =>
        have owner := (caller_marks_own other _ mark member).symm.trans belongs
        exact same (congrArg ThreadId.caller (Option.some.inj owner))
    rw [nothing, other_session_stays reached stepped same]
    rfl

/-- The marks of every step say what the code tells, in the same order. -/
theorem pool_step_told (reached : Reached pool config history)
    (stepped : (poolProgram pool T).system.step config (thread, choice) = some (next, events)) :
    (poolMarks pool config (thread, choice)).filterMap Mark.told =
      events.filterMap Event.told := by
  obtain ⟨_, never⟩ := run_never_aborts (reaches_step reached stepped)
  cases thread with
  | constructor => exact (constructor_move_told (constructor_moves stepped).1).symm
  | worker index => exact worker_move_told (worker_moves stepped).1
  | caller caller => exact caller_move_told (caller_moves stepped).1 (never caller)

end Steps

/-- The pool with the marks of its calls. It takes the same steps as the pool itself.
-/
abbrev markedPool (pool : WorkerPool) (T : Type) [DecidableEq T] :=
  marked (poolProgram pool T).system (poolMarks (T := T) pool)

omit [DecidableEq T] in
/-- While nobody is inside a mutex, the atomic pool has the queue behind it as it is.
-/
theorem stands_for_free (config : PoolConfig pool T) :
    (standsFor config).stopped = config.shared.stop ∧
    (config.shared.taskLock.holder = none →
      (standsFor config).pending = config.shared.tasks ∧
      (standsFor config).issued = config.shared.accepted) ∧
    (config.shared.resultLock.holder = none →
      (standsFor config).completed = config.shared.results) := by
  refine ⟨rfl, ?_, ?_⟩
  · intro free
    simp [standsFor, admitted, free]
  · intro free
    simp [standsFor, stored, free]

/-- Linearizability of the worker pool. In every run, with any number of callers and
workers, the effects are a run of the atomic pool, one after the other; each call of
each caller has exactly one of them, between its call and its return, and returns the
answer of that effect, which is what the code returns. Where nobody is inside a mutex,
the queues are those of the atomic pool. -/
theorem pool_linearizable (pool : WorkerPool) (T : Type) [DecidableEq T]
    (config : PoolConfig pool T)
    (longer : List (Mark pool.numWorkers T ⊕ Event pool.numWorkers T))
    (reached : Reaches (markedPool pool T) (fresh pool T) config longer) :
    Reached pool config (eventsOf longer) ∧
    (atomicPool pool T).run {} ((marksOf longer).filterMap Mark.operation) =
      some (standsFor config) ∧
    (∀ caller, (session pool.numWorkers T).run .ready
        ((marksOf longer).filterMap (ownedBy Mark.caller caller)) =
      some (sessionOf pool config.shared (callerPc config caller))) ∧
    (marksOf longer).filterMap Mark.told = (eventsOf longer).filterMap Event.told ∧
    (standsFor config).stopped = config.shared.stop ∧
    (config.shared.taskLock.holder = none →
      (standsFor config).pending = config.shared.tasks ∧
      (standsFor config).issued = config.shared.accepted) ∧
    (config.shared.resultLock.holder = none →
      (standsFor config).completed = config.shared.results) := by
  refine ⟨marked_erased reached, ?_, ?_, ?_, stands_for_free config⟩
  · refine marks_refine (atomicPool pool T) standsFor Mark.operation ?_ reached
    rintro config history ⟨thread, choice⟩ next events before _ stepped
    exact pool_step_simulates before stepped
  · intro caller
    refine marks_refine (session pool.numWorkers T)
      (fun config => sessionOf pool config.shared (callerPc config caller))
      (ownedBy Mark.caller caller) ?_ reached
    rintro config history ⟨thread, choice⟩ next events before _ stepped
    exact pool_step_session before stepped caller
  · refine marks_tell Mark.told Event.told ?_ reached
    rintro config history ⟨thread, choice⟩ next events before _ stepped
    exact pool_step_told before stepped

/-- The pool is stopped while a submission has passed its test of the flag and has not
enqueued its task yet. -/
def overtakenSubmission : List (ThreadId 1 Bool × Choice 1 Bool) :=
  steps .constructor 2 ++ calls true (.trySubmit ⟨1, []⟩) 2 ++ calls false .shutdown 1 ++
    steps (.caller true) 2

/-- The task is accepted behind the stop, and the submission takes effect before it.
The caller had passed its test of the flag. -/
theorem pool_linearizable_overtaken :
    ∃ (config : PoolConfig tightPool Bool) (longer : List (Mark 1 Bool ⊕ Event 1 Bool)),
      Reaches (markedPool tightPool Bool) (fresh tightPool Bool) config longer ∧
      eventsOf longer = [.submitCalled true ⟨1, []⟩, .stopStored false,
        .accepted true ⟨0, ⟨1, []⟩⟩, .submitAccepted true] ∧
      (marksOf longer).filterMap Mark.operation =
        [.submit true ⟨1, []⟩ true, .stop false] ∧
      (atomicPool tightPool Bool).run {} [.submit true ⟨1, []⟩ true, .stop false] =
        some (standsFor config) ∧
      (standsFor config).pending = config.shared.tasks := by
  obtain ⟨config, longer, reached, observed⟩ :=
    replay_exhibits (markedPool tightPool Bool) (fresh tightPool Bool)
      (fun final => decide (eventsOf final.2 = [.submitCalled true ⟨1, []⟩, .stopStored false,
          .accepted true ⟨0, ⟨1, []⟩⟩, .submitAccepted true] ∧
        (marksOf final.2).filterMap Mark.operation =
          [.submit true ⟨1, []⟩ true, .stop false] ∧
        final.1.shared.taskLock.holder = none)) overtakenSubmission (by decide)
  obtain ⟨events, operations, free⟩ := of_decide_eq_true observed
  obtain ⟨_, refines, _, _, _, tasks, _⟩ :=
    pool_linearizable tightPool Bool config longer reached
  rw [operations] at refines
  exact ⟨config, longer, reached, events, operations, refines, (tasks free).1⟩

end TcpServer.Runtime
