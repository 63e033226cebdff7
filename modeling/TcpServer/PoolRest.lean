import TcpServer.PoolBudget
import TcpServer.PoolStopping

/-!
# The worker pool at rest

A pool left alone comes to rest in every order of its steps. What is left to do
there is only what waits for a user: results that nobody pops, and workers behind
them that have no room. After a stop nobody is left at all, unless a worker has
missed the notifications of the stop.
-/

namespace TcpServer.Runtime

open Monitors Threads Transition

variable {T : Type} [DecidableEq T] {pool : WorkerPool}

/-- The pool can do nothing more on its own: no thread is enabled unless somebody
makes a call. -/
abbrev PoolRests (config : PoolConfig pool T) : Prop :=
  AtRest (poolProgram pool T).system Quiet config

section Rest

variable {config : PoolConfig pool T} {history : List (Event pool.numWorkers T)}

/-- At rest no worker has a quiet step. -/
theorem rest_worker_stuck (rests : PoolRests config) (index : Fin pool.numWorkers)
    (choice : Choice pool.numWorkers T) (uncalled : choice.call = none)
    (calm : choice.spurious = false) :
    workerStep pool index config.shared choice (workerPc config index) = none := by
  by_contra enabled
  obtain ⟨⟨after, own, events⟩, taken⟩ := Option.ne_none_iff_exists'.mp enabled
  obtain ⟨next, stepped, _⟩ := worker_steps taken
  exact absurd (stepped.symm.trans (rests (.worker index, choice) ⟨uncalled, calm⟩)) nofun

/-- Neither has a caller. -/
theorem rest_caller_stuck (rests : PoolRests config) (caller : T)
    (choice : Choice pool.numWorkers T) (uncalled : choice.call = none)
    (calm : choice.spurious = false) :
    callerStep pool caller config.shared choice (callerPc config caller) = none := by
  by_contra enabled
  obtain ⟨⟨after, own, events⟩, taken⟩ := Option.ne_none_iff_exists'.mp enabled
  obtain ⟨next, stepped, _⟩ := caller_steps taken
  exact absurd (stepped.symm.trans (rests (.caller caller, choice) ⟨uncalled, calm⟩)) nofun

/-- A worker inside one of the mutexes can always go on. -/
theorem worker_inside_enabled (index : Fin pool.numWorkers) (shared : Shared pool.numWorkers T)
    {pc : WorkerPc} (sound : ∀ inside, pc ≠ .aborted inside)
    (inside : pc.insideTasks = true ∨ pc.insideResults = true) :
    workerStep pool index shared {} pc ≠ none := by
  cases pc with
  | taskTest | taskSection | resultEvict | resultTest | resultStopTest | resultPush =>
    simp only [workerStep, evictionDone]
    repeat' split
    all_goals exact Option.some_ne_none _
  | taskSleep | resultSleep => exact Option.some_ne_none _
  | aborted failed => exact absurd rfl (sound failed)
  | _ => simp [WorkerPc.insideTasks, WorkerPc.insideResults] at inside

/-- So can a caller. -/
theorem caller_inside_enabled (caller : T) (shared : Shared pool.numWorkers T)
    {pc : CallerPc} (sound : ∀ inside, pc ≠ .aborted inside)
    (inside : pc.insideTasks = true ∨ pc.insideResults = true) :
    callerStep pool caller shared {} pc ≠ none := by
  cases pc with
  | submitTest | submitSection | popSection =>
    simp only [callerStep]
    repeat' split
    all_goals exact Option.some_ne_none _
  | aborted failed => exact absurd rfl (sound failed)
  | _ => simp [CallerPc.insideTasks, CallerPc.insideResults] at inside

/-- At rest nobody is inside a mutex, so both are free: whoever is inside can take a
step, since no place inside of a mutex waits for anything. -/
theorem rest_free (reached : Reached pool config history) (rests : PoolRests config) :
    config.shared.taskLock.holder = none ∧ config.shared.resultLock.holder = none := by
  obtain ⟨workers, callers⟩ := run_never_aborts reached
  have outside : ∀ thread, insideTasks thread (config.locals thread) = false ∧
      insideResults thread (config.locals thread) = false := by
    intro thread
    cases thread with
    | constructor => exact ⟨rfl, rfl⟩
    | worker index =>
      have stuck := rest_worker_stuck rests index {} rfl rfl
      constructor <;> by_contra inside <;> rw [Bool.not_eq_false] at inside
      · exact worker_inside_enabled index config.shared (workers index) (Or.inl inside) stuck
      · exact worker_inside_enabled index config.shared (workers index) (Or.inr inside) stuck
    | caller caller =>
      have stuck := rest_caller_stuck rests caller {} rfl rfl
      constructor <;> by_contra inside <;> rw [Bool.not_eq_false] at inside
      · exact caller_inside_enabled caller config.shared (callers caller) (Or.inl inside) stuck
      · exact caller_inside_enabled caller config.shared (callers caller) (Or.inr inside) stuck
  constructor
  · cases held : config.shared.taskLock.holder with
    | none => rfl
    | some thread =>
      have inside := (task_exclusion reached thread).mpr held
      exact absurd (inside.symm.trans (outside thread).1) nofun
  · cases held : config.shared.resultLock.holder with
    | none => rfl
    | some thread =>
      have inside := (result_exclusion reached thread).mpr held
      exact absurd (inside.symm.trans (outside thread).2) nofun

omit [DecidableEq T] in
/-- Some choice of a sleeper lets a notification go through. -/
theorem notify_one_enabled [DecidableEq T] (monitor : Monitor (ThreadId pool.numWorkers T)) :
    ∃ pick next, monitor.notifyOne pick = some next := by
  by_cases nobody : monitor.asleep = ∅
  · exact ⟨.constructor, monitor, by simp [Monitor.notifyOne, nobody]⟩
  · obtain ⟨pick, member⟩ := Finset.nonempty_iff_ne_empty.mpr nobody
    exact ⟨pick, _, by simp only [Monitor.notifyOne, nobody, ↓reduceIte, member]; rfl⟩

/-- Where a worker is at rest: not started yet, asleep, or returned. At every other
place it can take a step, as both mutexes are free. -/
theorem rest_worker (reached : Reached pool config history) (rests : PoolRests config)
    (index : Fin pool.numWorkers) :
    (workerPc config index = .unstarted ∧ config.shared.started ≤ index.val) ∨
    (workerPc config index = .taskWaiting ∧ .worker index ∈ config.shared.taskLock.asleep) ∨
    (∃ done, workerPc config index = .resultWaiting done ∧
      .worker index ∈ config.shared.resultLock.asleep) ∨
    workerPc config index = .returned := by
  obtain ⟨freeTasks, freeResults⟩ := rest_free reached rests
  have sound := (run_never_aborts reached).1 index
  have stuck := rest_worker_stuck rests index
  cases standing : workerPc config index with
  | unstarted =>
    have still := stuck {} rfl rfl
    simp only [standing, workerStep] at still
    split at still
    · cases still
    · exact Or.inl ⟨rfl, Nat.not_lt.mp (by assumption)⟩
  | taskWaiting =>
    refine Or.inr (Or.inl ⟨rfl, ?_⟩)
    by_contra awake
    have still := stuck {} rfl rfl
    simp [standing, workerStep, Monitor.wake, freeTasks, awake] at still
  | resultWaiting done =>
    refine Or.inr (Or.inr (Or.inl ⟨done, rfl, ?_⟩))
    by_contra awake
    have still := stuck {} rfl rfl
    simp [standing, workerStep, Monitor.wake, freeResults, awake] at still
  | returned => exact Or.inr (Or.inr (Or.inr rfl))
  | taskEnter =>
    have still := stuck {} rfl rfl
    simp [standing, workerStep, Monitor.lock, freeTasks] at still
  | resultEnter done =>
    have still := stuck {} rfl rfl
    simp only [standing, workerStep, Monitor.lock, freeResults, ↓reduceIte] at still
    split at still <;> cases still
  | taskNotify task | dispatchCall task | dispatching task =>
    have still := stuck {} rfl rfl
    simp [standing, workerStep] at still
  | resultNotify =>
    obtain ⟨pick, notified, picked⟩ := notify_one_enabled config.shared.resultLock
    have still := stuck { pick } rfl rfl
    simp [standing, workerStep, picked] at still
  | aborted inside => exact absurd standing (sound inside)
  | taskTest | taskSleep | taskSection | resultEvict | resultTest | resultSleep | resultStopTest |
      resultPush =>
    refine absurd (stuck {} rfl rfl) (worker_inside_enabled index config.shared sound ?_)
    rw [standing]
    simp [WorkerPc.insideTasks, WorkerPc.insideResults]

/-- Where a caller is at rest: outside of the pool, or waiting in `shutdown` for a
worker that has not returned. -/
theorem rest_caller (reached : Reached pool config history) (rests : PoolRests config)
    (caller : T) :
    callerPc config caller = .idle ∨
      ∃ next, callerPc config caller = .shutdownJoin next ∧ next < pool.numWorkers ∧
        next ∉ config.shared.returned := by
  obtain ⟨freeTasks, freeResults⟩ := rest_free reached rests
  have sound := (run_never_aborts reached).2 caller
  have stuck := rest_caller_stuck rests caller
  cases standing : callerPc config caller with
  | idle => exact Or.inl rfl
  | shutdownJoin next =>
    have still := stuck {} rfl rfl
    simp only [standing, callerStep] at still
    split at still
    · rename_i more
      split at still
      · cases still
      · exact Or.inr ⟨next, rfl, more, by assumption⟩
    · cases still
  | submitEnter task | popEnter =>
    have still := stuck {} rfl rfl
    simp [standing, callerStep, Monitor.lock, freeTasks, freeResults] at still
  | submitNotify =>
    obtain ⟨pick, notified, picked⟩ := notify_one_enabled config.shared.taskLock
    have still := stuck { pick } rfl rfl
    simp [standing, callerStep, picked] at still
  | popNotify | shutdownNotifyTask | shutdownNotifyResult =>
    have still := stuck {} rfl rfl
    simp [standing, callerStep] at still
  | shutdownEnter =>
    have still := stuck {} rfl rfl
    simp only [standing, callerStep] at still
    split at still <;> cases still
  | aborted inside => exact absurd standing (sound inside)
  | submitTest | submitSection | popSection =>
    refine absurd (stuck {} rfl rfl) (caller_inside_enabled caller config.shared sound ?_)
    rw [standing]
    simp [CallerPc.insideTasks, CallerPc.insideResults]

end Rest

/-- What is known of starting, stopping and joining in every run: the workers of a
constructed pool have been started, and only such a pool is called; only a stop lets
a worker return; a joining caller has waited for the workers before its next; and a
stop is followed up by a caller until every worker has returned. -/
structure Leaving (config : PoolConfig pool T) : Prop where
  starting : ∀ next, constructorPc config = .constructing next → config.shared.started = next
  started : config.shared.constructed = true → pool.numWorkers ≤ config.shared.started
  called : ∀ caller, callerPc config caller ≠ .idle → config.shared.constructed = true
  stopping : ∀ caller, (callerPc config caller).stopping = true → config.shared.stop = true
  recorded : ∀ index, index.val ∈ config.shared.returned ↔ workerPc config index = .returned
  returned : ∀ index, workerPc config index = .returned → config.shared.stop = true
  waited : ∀ caller next, callerPc config caller = .shutdownJoin next →
    ∀ index : Fin pool.numWorkers, index.val < next → workerPc config index = .returned
  followed : config.shared.stop = true →
    (∃ caller, (callerPc config caller).stopping = true) ∨
      ∀ index, workerPc config index = .returned

section Moves

variable {shared after : Shared pool.numWorkers T} {choice : Choice pool.numWorkers T}
  {events : List (Event pool.numWorkers T)}

/-- A worker starts nobody, and it returns only after a stop, on record. -/
theorem worker_move_leaves {index : Fin pool.numWorkers} {before own : WorkerPc}
    (move : WorkerMove pool index shared choice before after own events) :
    after.started = shared.started ∧ after.constructed = shared.constructed ∧
    (own = .returned → shared.stop = true ∧ after.returned = insert index.val shared.returned) ∧
    (own ≠ .returned → after.returned = shared.returned) := by
  cases move with
  | leave _ stopped | discard stopped =>
    exact ⟨rfl, rfl, fun _ => ⟨stopped, rfl⟩, fun stays => absurd rfl stays⟩
  | _ => exact ⟨rfl, rfl, nofun, fun _ => rfl⟩

/-- A caller starts nobody, and it calls only a constructed pool; a stop is its own,
and it follows it up until it has waited for every worker. -/
theorem caller_move_follows {caller : T} {before own : CallerPc}
    (move : CallerMove pool caller shared choice before after own events) :
    after.started = shared.started ∧ after.constructed = shared.constructed ∧
    (before = .idle → shared.constructed = true) ∧
    (after.stop = true → shared.stop = true ∨ own.stopping = true) ∧
    (before.stopping = true → own.stopping = true ∨
      ∃ next, before = .shutdownJoin next ∧ pool.numWorkers ≤ next) := by
  cases move with
  | callSubmit constructed | callPop constructed | callShutdown constructed =>
    exact ⟨rfl, rfl, fun _ => constructed, Or.inl, nofun⟩
  | stopFirst => exact ⟨rfl, rfl, nofun, fun _ => Or.inr rfl, nofun⟩
  | notifyTasks | notifyResults | join => exact ⟨rfl, rfl, nofun, Or.inl, fun _ => Or.inl rfl⟩
  | @joined next all => exact ⟨rfl, rfl, nofun, Or.inl, fun _ => Or.inr ⟨next, rfl, all⟩⟩
  | _ => exact ⟨rfl, rfl, nofun, Or.inl, nofun⟩

omit [DecidableEq T] in
/-- The constructor starts the workers one after the other. -/
theorem constructor_move_starts {before own : ConstructorPc}
    (move : ConstructorMove pool shared choice before after own events)
    (starting : ∀ next, before = .constructing next → shared.started = next) :
    (∀ next, own = .constructing next → after.started = next) ∧
    (after.constructed = true → shared.constructed = true ∧ shared.started ≤ after.started ∨
      pool.numWorkers ≤ after.started) ∧
    (shared.constructed = true → after.constructed = true) := by
  cases move with
  | @startWorker next more starts =>
    refine ⟨fun later same => ConstructorPc.constructing.inj same, fun constructed => ?_, id⟩
    left
    exact ⟨constructed, (starting next rfl).trans_le (Nat.le_succ next)⟩
  | @finish next all =>
    refine ⟨nofun, fun _ => Or.inr ?_, fun _ => rfl⟩
    exact all.trans (starting next rfl).ge
  | _ => exact ⟨nofun, fun constructed => Or.inl ⟨constructed, Nat.le_refl _⟩, id⟩

end Moves

section Rest

variable {config : PoolConfig pool T} {history : List (Event pool.numWorkers T)}

/-- All of it holds in every run. The eight clauses go together: each move of the
constructor, of a worker or of a caller is read off what it starts, returns and stops.
-/
theorem run_leaving (reached : Reached pool config history) : Leaving config := by
  refine run_invariant (fun config _ => Leaving config) ?_ ?_ reached
  · constructor
    · intro next same
      exact ConstructorPc.constructing.inj same
    · intro constructed
      cases constructed
    · intro caller called
      exact absurd rfl called
    · intro caller stopping
      cases stopping
    · intro index
      exact iff_of_false (Finset.notMem_empty _) nofun
    · intro index returned
      cases returned
    · intro caller next joining
      cases joining
    · intro stopped
      cases stopped
  rintro config history ⟨thread, choice⟩ next events _
    ⟨starting, started, called, stopping, recorded, returned, waited, followed⟩ _ stepped
  rcases pool_step_moves stepped with ⟨_, move, workers, callers⟩ |
    ⟨index, _, move, others, callers, same⟩ | ⟨caller, _, move, workers, others, same⟩
  · obtain ⟨_, _, _, _, stop, _, still⟩ := constructor_move_frame move
    obtain ⟨nextStarting, nextStarted, nextConstructed⟩ := constructor_move_starts move starting
    constructor
    · exact nextStarting
    · intro constructed
      rcases nextStarted constructed with ⟨earlier, more⟩ | enough
      · exact (started earlier).trans more
      · exact enough
    · intro caller busy
      rw [callers caller] at busy
      exact nextConstructed (called caller busy)
    · simpa only [callers, stop] using stopping
    · simpa only [workers, still] using recorded
    · simpa only [workers, stop] using returned
    · simpa only [workers, callers] using waited
    · simpa only [workers, callers, stop] using followed
  · obtain ⟨sameStarted, sameConstructed, leaves, stays⟩ := worker_move_leaves move
    have active := (worker_move_returned move).1
    have stop := worker_move_stop move
    have keeps : ∀ other, workerPc config other = .returned → workerPc next other = .returned := by
      intro other ended
      have different : other ≠ index := fun here => active (here ▸ ended)
      rw [others other different]
      exact ended
    have unrecorded : index.val ∉ config.shared.returned := fun on => active ((recorded index).mp on)
    constructor
    · simpa only [same, sameStarted] using starting
    · simpa only [sameStarted, sameConstructed] using started
    · simpa only [callers, sameConstructed] using called
    · simpa only [callers, stop] using stopping
    · intro other
      by_cases ends : workerPc next index = .returned
      · rw [(leaves ends).2, Finset.mem_insert]
        by_cases here : other = index
        · subst other
          exact iff_of_true (Or.inl rfl) ends
        · rw [others other here, ← recorded other]
          exact or_iff_right (fun equal => here (Fin.ext equal))
      · rw [stays ends]
        by_cases here : other = index
        · subst other
          exact iff_of_false unrecorded ends
        · rw [others other here]
          exact recorded other
    · intro other ended
      rw [stop]
      by_cases here : other = index
      · subst other
        exact (leaves ended).1
      · exact returned other (others other here ▸ ended)
    · intro caller joins joining other before
      exact keeps other (waited caller joins ((callers caller).symm.trans joining) other before)
    · intro stopped
      rw [stop] at stopped
      cases followed stopped with
      | inl following =>
        obtain ⟨caller, follows⟩ := following
        exact Or.inl ⟨caller, (congrArg CallerPc.stopping (callers caller)).trans follows⟩
      | inr ended => exact Or.inr (fun other => keeps other (ended other))
  · obtain ⟨sameStarted, sameConstructed, calls, stops, follows⟩ := caller_move_follows move
    obtain ⟨sameReturned, joins, _⟩ := caller_move_joins move
    obtain ⟨stages, _⟩ := caller_move_stages move
    constructor
    · simpa only [same, sameStarted] using starting
    · simpa only [sameStarted, sameConstructed] using started
    · intro other busy
      rw [sameConstructed]
      by_cases here : other = caller
      · subst other
        by_cases idle : callerPc config caller = .idle
        · exact calls idle
        · exact called caller idle
      · exact called other (others other here ▸ busy)
    · intro other stop
      by_cases here : other = caller
      · subst other
        exact (stages stop).elim (fun before => caller_move_stop move (stopping caller before)) id
      · rw [others other here] at stop
        exact caller_move_stop move (stopping other stop)
    · simpa only [workers, sameReturned] using recorded
    · intro index ended
      rw [workers index] at ended
      exact caller_move_stop move (returned index ended)
    · intro other stage joining index before
      rw [workers index]
      by_cases here : other = caller
      · subst other
        rcases joins stage joining with rfl | ⟨earlier, rfl, standing, ended⟩
        · exact absurd before (Nat.not_lt_zero _)
        · rcases Nat.lt_succ_iff_lt_or_eq.mp before with smaller | last
          · exact waited caller earlier standing index smaller
          · exact (recorded index).mp (last ▸ ended)
      · rw [others other here] at joining
        exact waited other stage joining index before
    · intro stopped
      simp only [workers]
      rcases stops stopped with before | own
      · rcases followed before with ⟨other, following⟩ | ended
        · by_cases here : other = caller
          · subst other
            rcases follows following with still | ⟨stage, standing, all⟩
            · exact Or.inl ⟨caller, still⟩
            · right
              intro index
              exact waited caller stage standing index (Nat.lt_of_lt_of_le index.isLt all)
          · exact Or.inl ⟨other, (congrArg CallerPc.stopping (others other here)).trans following⟩
        · exact Or.inr ended
      · exact Or.inl ⟨caller, own⟩

/-- At rest nobody attends to the queue of tasks. -/
theorem rest_unattended (reached : Reached pool config history) (rests : PoolRests config)
    (thread : ThreadId pool.numWorkers T) : ¬ Attends config thread := by
  intro attends
  cases thread with
  | constructor => exact attends
  | caller caller =>
    have notifies : callerPc config caller = .submitNotify := attends
    rcases rest_caller reached rests caller with idle | ⟨next, joining, _⟩
    · exact absurd (notifies.symm.trans idle) nofun
    · exact absurd (notifies.symm.trans joining) nofun
  | worker index =>
    have place := attends_attentive attends
    rcases rest_worker reached rests index with ⟨standing, _⟩ | ⟨standing, asleep⟩ |
      ⟨done, standing, _⟩ | standing
    · simp [standing, WorkerPc.attentive] at place
    · rcases attends with (elsewhere | elsewhere | ⟨_, awake⟩) | elsewhere
      · exact absurd (standing.symm.trans elsewhere) nofun
      · exact absurd (standing.symm.trans elsewhere) nofun
      · exact awake asleep
      · exact absurd (standing.symm.trans elsewhere) nofun
    · simp [standing, WorkerPc.attentive] at place
    · simp [standing, WorkerPc.attentive] at place

/-- A worker that sleeps on `task_cv_` at rest leaves no task behind. -/
theorem rest_no_task (reached : Reached pool config history) (rests : PoolRests config)
    {index : Fin pool.numWorkers} (asleep : .worker index ∈ config.shared.taskLock.asleep) :
    config.shared.tasks = [] := by
  obtain ⟨servers, enough, serve⟩ := run_attended reached ⟨_, asleep⟩
  have nobody : servers = ∅ := by
    apply Finset.eq_empty_of_forall_notMem
    intro thread member
    exact rest_unattended reached rests thread (serve thread member)
  rw [nobody, Finset.card_empty] at enough
  exact List.eq_nil_of_length_eq_zero (Nat.le_zero.mp enough)

/-- A worker that sleeps on `result_cv_` at rest waits for room in a full queue. -/
theorem rest_full (reached : Reached pool config history) (rests : PoolRests config)
    {index : Fin pool.numWorkers} {done : Ticketed HandlerResult}
    (standing : workerPc config index = .resultWaiting done)
    (asleep : .worker index ∈ config.shared.resultLock.asleep) :
    pool.options.resultQueueOverflow = .blockWorkerUntilPopped ∧
      pool.resultCapacity ≤ config.shared.results.length := by
  have awaited := run_room_awaited reached
  refine ⟨awaited.blocking index (by rw [standing]; rfl), ?_⟩
  rcases awaited.awaited ⟨_, asleep⟩ with full | ⟨caller, notifies⟩
  · exact full
  · rcases rest_caller reached rests caller with idle | ⟨next, joining, _⟩
    · exact absurd (notifies.symm.trans idle) nofun
    · exact absurd (notifies.symm.trans joining) nofun

/-- A constructed pool that rests without having been stopped: the callers are
outside, and each worker sleeps, because there is no task or no room. -/
theorem rest_running (reached : Reached pool config history) (rests : PoolRests config)
    (constructed : config.shared.constructed = true) (running : config.shared.stop = false) :
    (∀ caller, callerPc config caller = .idle) ∧
    ∀ index, (workerPc config index = .taskWaiting ∧ config.shared.tasks = []) ∨
      ∃ done, workerPc config index = .resultWaiting done ∧
        pool.options.resultQueueOverflow = .blockWorkerUntilPopped ∧
        pool.resultCapacity ≤ config.shared.results.length := by
  have leaving := run_leaving reached
  constructor
  · intro caller
    rcases rest_caller reached rests caller with idle | ⟨next, joining, _⟩
    · exact idle
    · have stopped := leaving.stopping caller (by rw [joining]; rfl)
      exact absurd (running.symm.trans stopped) nofun
  · intro index
    rcases rest_worker reached rests index with ⟨_, unstarted⟩ | ⟨standing, asleep⟩ |
      ⟨done, standing, asleep⟩ | standing
    · have all := leaving.started constructed
      have bound := index.isLt
      omega
    · exact Or.inl ⟨standing, rest_no_task reached rests asleep⟩
    · exact Or.inr ⟨done, standing, rest_full reached rests standing asleep⟩
    · exact absurd (running.symm.trans (leaving.returned index standing)) nofun

/-- With room for results, or a policy that makes room, all accepted tasks have been
worked off at rest: their results are completed, popped, or dropped by a policy. -/
theorem rest_complete (reached : Reached pool config history) (rests : PoolRests config)
    (constructed : config.shared.constructed = true) (running : config.shared.stop = false)
    (room : config.shared.results.length < pool.resultCapacity ∨
      pool.options.resultQueueOverflow = .dropOldestCompletedResult) :
    config.shared.tasks = [] ∧
    (config.shared.results.map (·.ticket) ++ (popped history).map (·.ticket) ++
      (evictedTasks history).map (·.ticket) ++ (evictedResults history).map (·.ticket)).Perm
      (List.range config.shared.accepted) := by
  obtain ⟨_, places⟩ := rest_running reached rests constructed running
  have waits : ∀ index, workerPc config index = .taskWaiting ∧ config.shared.tasks = [] := by
    intro index
    rcases places index with waiting | ⟨_, _, blocks, full⟩
    · exact waiting
    · rcases room with fits | drops
      · omega
      · exact absurd (blocks.symm.trans drops) nofun
  have empty := (waits ⟨0, Nat.pos_of_ne_zero pool.numWorkersPositive⟩).2
  have nothing : heldTickets config = [] := by
    apply List.flatMap_eq_nil_iff.mpr
    intro index _
    rw [(waits index).1]
    rfl
  obtain ⟨_, _, discards, _⟩ := run_losses reached
  refine ⟨empty, ?_⟩
  simpa [ledger, empty, nothing, discards running] using ledger_complete reached

/-- A stop whose notifications no worker can miss leaves nobody behind at rest: a
caller that still joined would wait for a worker that has been woken, and that one
could go on. -/
theorem rest_stopped
    (run : Run (poolProgram pool T).system NotifiesOutsideWaits (fresh pool T) config history)
    (rests : PoolRests config) (stopped : config.shared.stop = true) :
    (∀ caller, callerPc config caller = .idle) ∧ ∀ index, workerPc config index = .returned := by
  have reached := run_reaches run
  have leaving := run_leaving reached
  have outside : ∀ caller, callerPc config caller = .idle := by
    intro caller
    rcases rest_caller reached rests caller with idle | ⟨next, joining, more, unrecorded⟩
    · exact idle
    · have noTaskSleeper := ((run_closing run).tasks caller (by rw [joining]; rfl)).1
      have noResultSleeper := ((run_closing run).results caller (by rw [joining]; rfl)).1
      rcases rest_worker reached rests ⟨next, more⟩ with ⟨_, unstarted⟩ | ⟨_, asleep⟩ |
        ⟨_, _, asleep⟩ | ended
      · have all := leaving.started (leaving.called caller (by rw [joining]; nofun))
        have few : config.shared.started ≤ next := unstarted
        omega
      · rw [noTaskSleeper] at asleep
        exact absurd asleep (Finset.notMem_empty _)
      · rw [noResultSleeper] at asleep
        exact absurd asleep (Finset.notMem_empty _)
      · exact absurd ((leaving.recorded ⟨next, more⟩).mpr ended) unrecorded
  refine ⟨outside, ?_⟩
  rcases leaving.followed stopped with ⟨caller, follows⟩ | ended
  · rw [outside caller] at follows
    cases follows
  · exact ended

end Rest

/-- A pool left alone comes to rest with its work done, for every pool, every number
of callers and every interleaving.

From a reached state on, while nobody makes a new call and nobody wakes without a
notification, there are at most as many steps as the budget of that state allows, and
a state at rest can be reached. In a constructed pool that rests without having been
stopped, no caller is inside; each worker sleeps, for want of tasks or, under the
blocking policy, in front of a full result queue. With room for results, or a policy
that makes room, no task is pending or held: the results of all accepted tasks are
completed, popped or dropped by a policy. -/
theorem pool_settles (pool : WorkerPool) (T : Type) [DecidableEq T] [Fintype T]
    (config : PoolConfig pool T) (history : List (Event pool.numWorkers T))
    (reached : Reached pool config history) :
    (∀ count final later,
      CountedRun (poolProgram pool T).system Quiet config count final later →
        count ≤ workLeft config) ∧
    (∃ final later, Run (poolProgram pool T).system Quiet config final later ∧
      PoolRests final) ∧
    ∀ final later, Run (poolProgram pool T).system Quiet config final later → PoolRests final →
      final.shared.constructed = true → final.shared.stop = false →
      (∀ caller, callerPc final caller = .idle) ∧
      (∀ index, (workerPc final index = .taskWaiting ∧ final.shared.tasks = []) ∨
        ∃ done, workerPc final index = .resultWaiting done ∧
          pool.options.resultQueueOverflow = .blockWorkerUntilPopped ∧
          pool.resultCapacity ≤ final.shared.results.length) ∧
      (final.shared.results.length < pool.resultCapacity ∨
          pool.options.resultQueueOverflow = .dropOldestCompletedResult →
        final.shared.tasks = [] ∧
        (final.shared.results.map (·.ticket) ++ (popped (history ++ later)).map (·.ticket) ++
          (evictedTasks (history ++ later)).map (·.ticket) ++
          (evictedResults (history ++ later)).map (·.ticket)).Perm
          (List.range final.shared.accepted)) := by
  have initial : (quietBudget pool T).invariant config := ⟨history, reached⟩
  refine ⟨?_, budget_rests (quietBudget pool T) initial, ?_⟩
  · intro count final later run
    exact (Nat.le_add_right _ _).trans (budget_spent (quietBudget pool T) initial run).2
  · intro final later run rests constructed running
    have reachedFinal := run_append reached (run_reaches run)
    obtain ⟨callers, workers⟩ := rest_running reachedFinal rests constructed running
    exact ⟨callers, workers, rest_complete reachedFinal rests constructed running⟩

/-- One task is accepted before the worker runs, and is still in the queue. -/
def onePending : List (ThreadId 1 Unit × Choice 1 Unit) :=
  steps .constructor 2 ++ calls () (.trySubmit ⟨1, []⟩) 4

/-- The budget of such a run. -/
theorem pool_settles_pending :
    ∃ (config : PoolConfig tightPool Unit) (history : List (Event 1 Unit)),
      Reached tightPool config history ∧ config.shared.tasks ≠ [] ∧
      ∀ (count : Nat) (final : PoolConfig tightPool Unit) (later : List (Event 1 Unit)),
        CountedRun (poolProgram tightPool Unit).system Quiet config count final later →
          count ≤ 32 := by
  obtain ⟨config, history, reached, observed⟩ :=
    replay_exhibits (poolProgram tightPool Unit).system (fresh tightPool Unit)
      (fun final => decide (final.1.shared.tasks ≠ [] ∧ workLeft final.1 = 32)) onePending
      (by decide)
  obtain ⟨pending, budget⟩ := of_decide_eq_true observed
  refine ⟨config, history, reached, pending, ?_⟩
  intro count final later run
  exact budget ▸ (pool_settles tightPool Unit config history reached).1 count final later run

/-- `shutdown` completes when no worker can miss its notifications, for every pool and
every number of callers.

Take a run in which `shutdown` notifies only while no worker stands between a false
wait predicate and its sleep, and which has stored the stop flag. While this goes on
and nobody makes a new call, there are at most as many further steps as the budget
allows; and where the pool rests, every worker has returned, no task is held, and
every call of the public functions has returned, those of `shutdown` included. -/
theorem shutdown_completes (pool : WorkerPool) (T : Type) [DecidableEq T] [Fintype T]
    (config : PoolConfig pool T) (history : List (Event pool.numWorkers T))
    (run : Run (poolProgram pool T).system NotifiesOutsideWaits (fresh pool T) config history)
    (stored : ∃ caller, .stopStored caller ∈ history) (count : Nat) (final : PoolConfig pool T)
    (later : List (Event pool.numWorkers T))
    (continued : CountedRun (poolProgram pool T).system
      (fun config choice => Quiet config choice ∧ NotifiesOutsideWaits config choice) config count
      final later) :
    count ≤ workLeft config ∧
    (PoolRests final →
      (∀ index, workerPc final index = .returned) ∧ heldTickets final = [] ∧
      ∀ caller, callerPc final caller = .idle) := by
  have initial : (quietBudget pool T).invariant config := ⟨history, run_reaches run⟩
  constructor
  · have quiet : CountedRun (poolProgram pool T).system Quiet config count final later :=
      counted_weaken (fun _ _ permitted => permitted.1) continued
    exact (Nat.le_add_right _ _).trans (budget_spent (quietBudget pool T) initial quiet).2
  · intro rests
    have whole : Run (poolProgram pool T).system NotifiesOutsideWaits (fresh pool T) final
        (history ++ later) :=
      run_append run (run_weaken (fun _ _ permitted => permitted.2) (counted_run continued))
    obtain ⟨caller, before⟩ := stored
    have stopped := stored_stopped (run_reaches whole) ⟨caller, List.mem_append_left _ before⟩
    obtain ⟨callers, workers⟩ := rest_stopped whole rests stopped
    refine ⟨workers, ?_, callers⟩
    apply List.flatMap_eq_nil_iff.mpr
    intro index _
    rw [workers index]
    rfl

/-- A pool that all threads are done with is at rest. -/
theorem done_rests {config : PoolConfig pool T} (constructor : constructorPc config = .constructed)
    (workers : ∀ index, workerPc config index = .returned)
    (callers : ∀ caller, callerPc config caller = .idle) : PoolRests config := by
  rintro ⟨thread, choice⟩ ⟨uncalled, _⟩
  have nothing : (poolProgram pool T).step thread config.shared (config.locals thread) choice =
      none := by
    cases thread with
    | constructor =>
      change constructorStep pool config.shared choice (constructorPc config) = none
      rw [constructor]
      rfl
    | worker index =>
      change workerStep pool index config.shared choice (workerPc config index) = none
      rw [workers index]
      rfl
    | caller caller =>
      change callerStep pool caller config.shared choice (callerPc config caller) = none
      have nobody : choice.call = none := uncalled
      rw [callers caller]
      simp [callerStep, nobody]
  simp only [Program.system, nothing]

/-- `shutdown` has stored the flag while the worker is asleep, and has notified nobody
yet. -/
def flagStored : List (ThreadId 1 Unit × Choice 1 Unit) :=
  steps .constructor 2 ++ steps (.worker soleWorker) 4 ++ calls () .shutdown 1

/-- The rest of `shutdown`: both notifications, the end of the worker, the join. -/
def restOfShutdown : List (ThreadId 1 Unit × Choice 1 Unit) :=
  steps (.caller ()) 2 ++ steps (.worker soleWorker) 3 ++ steps (.caller ()) 2

/-- A run to rest that meets the hypotheses. -/
theorem shutdown_completes_woken :
    ∃ (config final : PoolConfig tightPool Unit) (count : Nat) (later : List (Event 1 Unit)),
      workerPc config soleWorker = .taskWaiting ∧
      CountedRun (poolProgram tightPool Unit).system
        (fun config choice => Quiet config choice ∧ NotifiesOutsideWaits config choice) config
        count final later ∧
      PoolRests final ∧ count ≤ workLeft config ∧ heldTickets final = [] := by
  obtain ⟨config, history, final, later, run, continued, observed⟩ :=
    replay_exhibits_continued (poolProgram tightPool Unit).system NotifiesOutsideWaits
      (fun config choice => Quiet config choice ∧ NotifiesOutsideWaits config choice)
      (fresh tightPool Unit) (fun config _ => notifiesOutsideWaits config)
      (fun config choice => choice.2.call == none && !choice.2.spurious &&
        notifiesOutsideWaits config)
      (fun config choice passed => notifies_outside_waits_sound config choice passed)
      (fun config choice passed => by
        simp only [Bool.and_eq_true, beq_iff_eq, Bool.not_eq_true'] at passed
        exact ⟨passed.1, notifies_outside_waits_sound config choice passed.2⟩)
      (fun ends => decide (workerPc ends.1.1 soleWorker = .taskWaiting ∧
        .stopStored () ∈ ends.1.2 ∧ constructorPc ends.2.1 = .constructed ∧
        workerPc ends.2.1 soleWorker = .returned ∧ callerPc ends.2.1 () = .idle))
      flagStored restOfShutdown (by decide)
  obtain ⟨waiting, stored, constructor, worker, caller⟩ := of_decide_eq_true observed
  obtain ⟨count, counted⟩ := run_counted continued
  have rests : PoolRests final :=
    done_rests constructor (fun index => sole_worker index ▸ worker) (fun _ => caller)
  obtain ⟨few, completes⟩ :=
    shutdown_completes tightPool Unit config history run ⟨(), stored⟩ count final later counted
  exact ⟨config, final, count, later, waiting, counted, rests, few, (completes rests).2.1⟩

end TcpServer.Runtime
