import TcpServer.PoolSafety

/-!
# A constructor that fails part-way

When the start of a worker fails, the exception leaves the constructor through
the destructors of the members, not through `~WorkerPool`, so `shutdown` does
not run. Destroying `workers_` joins the workers started so far. The runs here
are those in which the start of one given worker fails and all earlier starts
succeed; they are the only runs of that constructor call.
-/

namespace TcpServer.Runtime

open Monitors Threads Transition

variable {T : Type} [DecidableEq T] {pool : WorkerPool}

/-- The condition on one step: starting the worker with index `k` fails, and no
other start does. -/
def FailsAt (k : Nat) (config : PoolConfig pool T)
    (choice : ThreadId pool.numWorkers T × Choice pool.numWorkers T) : Prop :=
  choice.1 = .constructor → ∀ next, constructorPc config = .constructing next →
    (choice.2.startFails = true ↔ next = k)

/-- The runs of a constructor call in which starting the worker with index `k` fails,
and no earlier one. -/
abbrev FailingRun (pool : WorkerPool) (T : Type) [DecidableEq T] (k : Nat)
    (start : PoolConfig pool T) :
    PoolConfig pool T → List (Event pool.numWorkers T) → Prop :=
  Run (poolProgram pool T).system (FailsAt k) start

/-- The constructing thread joins a worker that sleeps on `task_cv_` while the stop
flag is not set and there is nobody who could set it or bring a task: every
caller is outside of the pool and the pool is not constructed. -/
def Deadlocked (config : PoolConfig pool T) : Prop :=
  ∃ joined started index, constructorPc config = .unwinding joined started ∧ joined < started ∧
    index.val = joined ∧ workerPc config index = .taskWaiting ∧
    .worker index ∈ config.shared.taskLock.asleep ∧ config.shared.stop = false ∧
    config.shared.tasks = [] ∧ config.shared.constructed = false ∧
    ∀ caller, callerPc config caller = .idle

/-- The exception can still reach the caller of the constructor: some continuation
leads there. -/
def CanThrow (k : Nat) (config : PoolConfig pool T) : Prop :=
  ∃ final more, FailingRun pool T k config final more ∧ constructorPc final = .threw

/-- A worker that has found nothing to do. Nobody can submit a task before the
constructor is done. -/
def WorkerPc.waiting : WorkerPc → Bool
  | .unstarted | .taskEnter | .taskTest | .taskSleep | .taskWaiting => true
  | _ => false

/-- Where the constructor can be when starting the worker with index `k` fails. With a
started worker it stays in its unwinding. -/
def failingStage (k : Nat) (shared : Shared pool.numWorkers T) : ConstructorPc → Prop
  | .constructing next => next ≤ k ∧ shared.started = next
  | .constructed => False
  | .unwinding joined started => joined = 0 ∧ started = k ∧ shared.started = k
  | .threw => k = 0 ∧ shared.started = 0

/-- What holds in every run of the failing constructor: nobody has used the pool,
and no worker has got beyond its wait. -/
structure Unused (k : Nat) (config : PoolConfig pool T) : Prop where
  running : config.shared.stop = false
  empty : config.shared.tasks = []
  unconstructed : config.shared.constructed = false
  unreturned : config.shared.returned = ∅
  callers : ∀ caller, callerPc config caller = .idle
  workers : ∀ index, (workerPc config index).waiting = true
  unstarted : ∀ index : Fin pool.numWorkers, config.shared.started ≤ index.val →
    workerPc config index = .unstarted
  stage : failingStage k config.shared (constructorPc config)

section Moves

variable {shared after : Shared pool.numWorkers T} {choice : Choice pool.numWorkers T}
  {events : List (Event pool.numWorkers T)}

/-- A worker of an unused pool stays in front of its wait and changes only the
mutex of the tasks. -/
theorem worker_move_unused {index : Fin pool.numWorkers} {before own : WorkerPc}
    (move : WorkerMove pool index shared choice before after own events)
    (running : shared.stop = false) (empty : shared.tasks = []) (waits : before.waiting = true) :
    own.waiting = true ∧ (∃ taskLock, after = { shared with taskLock }) ∧
      (before = .unstarted → index.val < shared.started) := by
  cases move with
  | start launched => exact ⟨rfl, ⟨_, rfl⟩, fun _ => launched⟩
  | taskReady ready =>
    rcases ready with stopped | pending
    · exact absurd (running.symm.trans stopped) nofun
    · exact absurd empty pending
  | lockTasks | taskWait | taskSleep | taskWake => exact ⟨rfl, ⟨_, rfl⟩, nofun⟩
  | _ => cases waits

/-- A caller cannot use a pool that is not constructed. -/
theorem caller_move_unused {caller : T} {own : CallerPc}
    (move : CallerMove pool caller shared choice .idle after own events)
    (unconstructed : shared.constructed = false) : False := by
  cases move with
  | callSubmit constructed | callPop constructed | callShutdown constructed =>
    exact absurd (unconstructed.symm.trans constructed) nofun

omit [DecidableEq T] in
/-- The constructor starts workers up to the failing one, and then waits for the
first worker, unless there is none to wait for. -/
theorem constructor_move_stage {k : Nat} {before own : ConstructorPc} (within : k < pool.numWorkers)
    (fails : ∀ next, before = .constructing next → (choice.startFails = true ↔ next = k))
    (stage : failingStage k shared before) (unreturned : shared.returned = ∅)
    (move : ConstructorMove pool shared choice before after own events) :
    failingStage k after own ∧ shared.started ≤ after.started ∧
      ∃ started, after = { shared with started } := by
  cases move with
  | @startFailed next more failed =>
    obtain ⟨_, started⟩ := stage
    have here : next = k := (fails next rfl).mp failed
    exact ⟨⟨rfl, here, started.trans here⟩, Nat.le_refl _, _, rfl⟩
  | @startWorker next more succeeded =>
    obtain ⟨bound, started⟩ := stage
    have different : next ≠ k := by
      intro here
      exact absurd (succeeded.symm.trans ((fails next rfl).mpr here)) nofun
    refine ⟨⟨by omega, rfl⟩, ?_, _, rfl⟩
    change shared.started ≤ next + 1
    omega
  | finish all =>
    obtain ⟨bound, _⟩ := stage
    omega
  | join more ended =>
    rw [unreturned] at ended
    exact absurd ended (Finset.notMem_empty _)
  | rethrow all =>
    obtain ⟨first, last, started⟩ := stage
    have nothing : k = 0 := by omega
    exact ⟨⟨nothing, started.trans nothing⟩, Nat.le_refl _, _, rfl⟩

end Moves

/-- Every run of the failing constructor leaves the pool unused: no caller gets in,
since the constructor has not returned, so nothing is submitted and nobody stops the
workers. -/
theorem run_unused {k : Nat} (within : k < pool.numWorkers) {config : PoolConfig pool T}
    {history : List (Event pool.numWorkers T)}
    (run : FailingRun pool T k (fresh pool T) config history) : Unused k config := by
  refine run_invariant (fun config _ => Unused k config) ?_ ?_ run
  · constructor
    · rfl
    · rfl
    · rfl
    · rfl
    · intro caller
      rfl
    · intro index
      rfl
    · intro index _
      rfl
    · exact ⟨Nat.zero_le k, rfl⟩
  · rintro config history ⟨thread, choice⟩ next events _ unused fails stepped
    obtain ⟨running, empty, unconstructed, unreturned, callers, workers, unstarted, stage⟩ := unused
    rcases pool_step_moves stepped with ⟨rfl, move, sameWorkers, sameCallers⟩ |
      ⟨index, _, move, others, sameCallers, constructing⟩ | ⟨caller, _, move, _⟩
    · obtain ⟨nextStage, grows, started, same⟩ :=
        constructor_move_stage within (fun stage => fails rfl stage) stage unreturned move
      constructor
      · simpa only [same] using running
      · simpa only [same] using empty
      · simpa only [same] using unconstructed
      · simpa only [same] using unreturned
      · intro caller
        rw [sameCallers caller]
        exact callers caller
      · intro index
        rw [sameWorkers index]
        exact workers index
      · intro index beyond
        rw [sameWorkers index]
        exact unstarted index (Nat.le_trans grows beyond)
      · exact nextStage
    · obtain ⟨waits, ⟨taskLock, same⟩, launched⟩ :=
        worker_move_unused move running empty (workers index)
      constructor
      · simpa only [same] using running
      · simpa only [same] using empty
      · simpa only [same] using unconstructed
      · simpa only [same] using unreturned
      · intro caller
        rw [sameCallers caller]
        exact callers caller
      · intro other
        by_cases here : other = index
        · subst other
          exact waits
        · rw [others other here]
          exact workers other
      · intro other beyond
        have earlier : config.shared.started ≤ other.val := by simpa only [same] using beyond
        have different : other ≠ index := by
          intro here
          subst other
          have bound := launched (unstarted index earlier)
          omega
        rw [others other different]
        exact unstarted other earlier
      · rw [constructing, same]
        exact stage
    · rw [callers caller] at move
      exact (caller_move_unused move unconstructed).elim

/-- Once the start of a worker has failed behind others, the exception never
reaches the caller of the constructor. -/
theorem never_throws {k : Nat} (within : k < pool.numWorkers) (behind : 0 < k)
    {config : PoolConfig pool T} {history : List (Event pool.numWorkers T)}
    (run : FailingRun pool T k (fresh pool T) config history) : ¬ CanThrow k config := by
  rintro ⟨final, more, later, threw⟩
  have stage := (run_unused within (run_append run later)).stage
  rw [threw] at stage
  have first : k = 0 := stage.1
  omega

/-- When the first start fails, the exception reaches the caller of the constructor:
there is nothing to join. -/
theorem first_failure_throws (within : 0 < pool.numWorkers) {config : PoolConfig pool T}
    {history : List (Event pool.numWorkers T)}
    (run : FailingRun pool T 0 (fresh pool T) config history) : CanThrow 0 config := by
  have rethrows : ∀ config : PoolConfig pool T, constructorPc config = .unwinding 0 0 →
      CanThrow 0 config := by
    intro config unwinding
    obtain ⟨final, stepped, _, threw, _⟩ :=
      constructor_steps (show constructorStep pool config.shared {} (constructorPc config) =
        some (config.shared, .threw, [.constructorThrew]) by
        rw [unwinding]
        rfl)
    refine ⟨final, _, Run.step Run.start ?_ stepped, threw⟩
    intro _ next standing
    exact absurd (unwinding.symm.trans standing) nofun
  have stage := (run_unused within run).stage
  cases place : constructorPc config with
  | constructing next =>
    rw [place] at stage
    obtain rfl : next = 0 := Nat.le_zero.mp stage.1
    obtain ⟨failed, stepped, _, unwinding, _⟩ :=
      constructor_steps (show constructorStep pool config.shared { startFails := true }
        (constructorPc config) = some (config.shared, .unwinding 0 0, []) by
        rw [place]
        simp [constructorStep, within])
    obtain ⟨final, more, later, threw⟩ := rethrows failed unwinding
    refine ⟨final, _, run_append (Run.step Run.start ?_ stepped) later, threw⟩
    intro _ next standing
    rw [place] at standing
    cases standing
    exact ⟨fun _ => rfl, fun _ => rfl⟩
  | constructed =>
    rw [place] at stage
    exact stage.elim
  | unwinding joined started =>
    rw [place] at stage
    obtain ⟨rfl, rfl, _⟩ := stage
    exact rethrows config place
  | threw => exact ⟨config, [], Run.start, place⟩

/-- The constructor gets as far as starting any worker up to the failing one, while
no started worker has made a step. -/
theorem constructing_reached (T : Type) [DecidableEq T] {k : Nat}
    (within : k < pool.numWorkers) (next : Nat) (bound : next ≤ k) :
    ∃ config : PoolConfig pool T, FailingRun pool T k (fresh pool T) config [] ∧
      config.shared = { started := next } ∧ constructorPc config = .constructing next ∧
      ∀ index, workerPc config index = .unstarted := by
  induction next with
  | zero => exact ⟨fresh pool T, Run.start, rfl, rfl, fun _ => rfl⟩
  | succ next inductionHypothesis =>
    obtain ⟨config, run, shared, place, workers⟩ := inductionHypothesis (by omega)
    obtain ⟨after, stepped, same, stage, kept⟩ :=
      constructor_steps (show constructorStep pool config.shared {} (constructorPc config) =
        some ({ started := next + 1 }, .constructing (next + 1), []) by
        rw [place, shared]
        simp [constructorStep, Nat.lt_of_lt_of_le bound (Nat.le_of_lt within)])
    refine ⟨after, Run.step run ?_ stepped, same, stage, ?_⟩
    · intro _ other standing
      rw [place] at standing
      cases standing
      constructor
      · intro fails
        exact absurd fails Bool.false_ne_true
      · intro here
        omega
    · intro index
      rw [kept index]
      exact workers index

/-- The first worker of an unused pool goes to sleep as soon as it is started: it
locks the mutex, finds neither a task nor the stop flag, and waits. Four steps, one
after the other. -/
theorem first_worker_sleeps {k : Nat} {config : PoolConfig pool T} {index : Fin pool.numWorkers}
    {started : Nat} (shared : config.shared = { started }) (launched : index.val < started)
    (place : workerPc config index = .unstarted) :
    ∃ next, FailingRun pool T k config next [] ∧ workerPc next index = .taskWaiting ∧
      .worker index ∈ next.shared.taskLock.asleep ∧
      constructorPc next = constructorPc config := by
  have permitted (some : PoolConfig pool T) : FailsAt k some (.worker index, {}) := nofun
  obtain ⟨entering, first, shared1, place1, _, kept1⟩ :=
    worker_steps (show workerStep pool index config.shared {} (workerPc config index) =
      some ({ started }, .taskEnter, []) by
      rw [place, shared]
      simp [workerStep, launched])
  obtain ⟨testing, second, shared2, place2, _, kept2⟩ :=
    worker_steps (show workerStep pool index entering.shared {} (workerPc entering index) =
      some ({ started, taskLock := ⟨some (.worker index), ∅⟩ }, .taskTest, []) by
      rw [place1, shared1]
      rfl)
  obtain ⟨sleeping, third, shared3, place3, _, kept3⟩ :=
    worker_steps (show workerStep pool index testing.shared {} (workerPc testing index) =
      some ({ started, taskLock := ⟨some (.worker index), ∅⟩ }, .taskSleep, []) by
      rw [place2, shared2]
      rfl)
  obtain ⟨waiting, fourth, shared4, place4, _, kept4⟩ :=
    worker_steps (show workerStep pool index sleeping.shared {} (workerPc sleeping index) =
      some ({ started, taskLock := ⟨none, {.worker index}⟩ }, .taskWaiting, []) by
      rw [place3, shared3]
      rfl)
  have run : FailingRun pool T k config waiting _ :=
    Run.step (Run.step (Run.step (Run.step Run.start (permitted _) first) (permitted _) second)
      (permitted _) third) (permitted _) fourth
  refine ⟨waiting, run, place4, ?_, ?_⟩
  · rw [shared4]
    exact Finset.mem_singleton_self _
  · rw [kept4, kept3, kept2, kept1]

/-- A start that fails behind another one can lead to a deadlock: the constructor
unwinds, and the first worker goes to sleep. -/
theorem deadlock_reached (T : Type) [DecidableEq T] {k : Nat} (within : k < pool.numWorkers)
    (behind : 0 < k) :
    ∃ (config : PoolConfig pool T) (history : List (Event pool.numWorkers T)),
      FailingRun pool T k (fresh pool T) config history ∧ Deadlocked config := by
  obtain ⟨config, run, shared, place, workers⟩ :=
    constructing_reached T within k (Nat.le_refl k)
  obtain ⟨failed, stepped, same, unwinding, kept⟩ :=
    constructor_steps (show constructorStep pool config.shared { startFails := true }
      (constructorPc config) = some ({ started := k }, .unwinding 0 k, []) by
      rw [place, shared]
      simp [constructorStep, within])
  have permitted : FailsAt k config (.constructor, { startFails := true }) := by
    intro _ next standing
    rw [place] at standing
    cases standing
    exact ⟨fun _ => rfl, fun _ => rfl⟩
  let first : Fin pool.numWorkers := ⟨0, Nat.lt_trans behind within⟩
  obtain ⟨final, later, waits, sleeps, stays⟩ :=
    first_worker_sleeps same (show first.val < k from behind)
      ((kept first).trans (workers first))
  have whole := run_append (Run.step run permitted stepped) later
  obtain ⟨running, empty, unconstructed, _, callers, _⟩ := run_unused within whole
  exact ⟨final, _, whole, 0, k, first, stays.trans unwinding, behind, rfl, waits, sleeps, running,
    empty, unconstructed, callers⟩

/-- Exactly when a constructor that fails part-way does not hang: when the very
first start fails. Otherwise a deadlock is reachable, and the exception never
reaches the caller of the constructor, in whatever way the run goes on. -/
theorem failing_constructor_exact (pool : WorkerPool) (T : Type) [DecidableEq T] (k : Nat)
    (within : k < pool.numWorkers) :
    ((∀ config history, FailingRun pool T k (fresh pool T) config history → ¬ Deadlocked config) ↔
      k = 0) ∧
    ((∀ config history, FailingRun pool T k (fresh pool T) config history → CanThrow k config) ↔
      k = 0) := by
  constructor
  · constructor
    · intro free
      by_contra behind
      obtain ⟨config, history, run, stuck⟩ :=
        deadlock_reached T within (Nat.pos_of_ne_zero behind)
      exact free config history run stuck
    · rintro rfl config history run ⟨joined, started, index, unwinding, more, _⟩
      have stage := (run_unused within run).stage
      rw [unwinding] at stage
      obtain ⟨_, last, _⟩ := stage
      omega
  · constructor
    · intro throws
      by_contra behind
      exact never_throws within (Nat.pos_of_ne_zero behind) Run.start
        (throws (fresh pool T) [] Run.start)
    · rintro rfl config history run
      exact first_failure_throws within run

/-- Two workers, queues of one element, and a dispatcher that returns what it is
given. -/
def pairPool : WorkerPool where
  numWorkers := 2
  queueCapacity := 1
  dispatcher payload := .returned (.ok payload)
  options := {}
  numWorkersPositive := by decide
  queueCapacityPositive := Nat.one_ne_zero
  resultCapacityPositive := Nat.one_ne_zero

/-- The condition at a failure of the second of two starts. -/
theorem failing_constructor_second :
    1 < pairPool.numWorkers ∧
      ((∀ config history, FailingRun pairPool Unit 1 (fresh pairPool Unit) config history →
        CanThrow 1 config) ↔ (1 : Nat) = 0) :=
  ⟨by decide, (failing_constructor_exact pairPool Unit 1 (by decide)).2⟩

/-- A constructor that fails part-way can hang: with two workers and a failure of
the second start, a deadlock is reached. -/
theorem failing_constructor_hangs :
    ¬ ∀ (pool : WorkerPool) (k : Nat), k < pool.numWorkers →
      ∀ config history, FailingRun pool Unit k (fresh pool Unit) config history →
        ¬ Deadlocked config := by
  intro free
  have within : 1 < pairPool.numWorkers := by decide
  obtain ⟨config, history, run, stuck⟩ := deadlock_reached Unit within Nat.one_pos
  exact free pairPool 1 within config history run stuck

end TcpServer.Runtime
