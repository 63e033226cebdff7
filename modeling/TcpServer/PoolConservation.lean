import Mathlib.Algebra.BigOperators.Fin
import TcpServer.PoolSafety

/-!
# Conservation of tasks in the worker pool

Every accepted task is in one place: pending, held by a worker, completed,
popped, evicted from either queue, or discarded by a worker that saw the stop
flag. Tickets make this a statement about counts, and each move shifts one
ticket from one place to another. What a worker makes of a task is the
dispatcher's outcome for that task, wherever the result goes.
-/

namespace TcpServer.Runtime

open Dispatcher Monitors Threads Transition

variable {T : Type} [DecidableEq T] {pool : WorkerPool}

section History

variable {numWorkers : Nat}

/-- The tasks whose submission took effect, in order. Each has the next ticket. -/
def acceptedTasks (history : List (Event numWorkers T)) : List (Ticketed HandlerTask) :=
  history.filterMap fun event => match event with
    | .accepted _ task => some task
    | _ => none

/-- The tasks that were dropped from a full queue to admit later ones, in the order in
which they were dropped. -/
def evictedTasks (history : List (Event numWorkers T)) : List (Ticketed HandlerTask) :=
  history.filterMap fun event => match event with
    | .taskEvicted task => some task
    | _ => none

/-- The results that were dropped from a full queue to admit later ones, in the order
in which they were dropped. -/
def evictedResults (history : List (Event numWorkers T)) : List (Ticketed HandlerResult) :=
  history.filterMap fun event => match event with
    | .resultEvicted _ result => some result
    | _ => none

/-- The results that a stopping worker has thrown away instead of pushing them, in the
order of the workers that did. -/
def discarded (history : List (Event numWorkers T)) : List (Ticketed HandlerResult) :=
  history.filterMap fun event => match event with
    | .discarded _ result => some result
    | _ => none

/-- The results that a caller has taken, in the order in which they were taken. -/
def popped (history : List (Event numWorkers T)) : List (Ticketed HandlerResult) :=
  history.filterMap fun event => match event with
    | .popped _ result => some result
    | _ => none

/-- The results that have left the pool, to a caller or for good. -/
def releasedResults (history : List (Event numWorkers T)) : List (Ticketed HandlerResult) :=
  popped history ++ evictedResults history ++ discarded history

/-- The object of a call of `try_submit` by this caller. Calls of others do not count.
-/
def calledWith (caller : T) : Event numWorkers T → Option HandlerTask
  | .submitCalled name task => if name = caller then some task else none
  | _ => none

/-- The object that the latest `try_submit` of a caller was called with. It is the
task that the caller may still own. -/
def submitted (caller : T) (history : List (Event numWorkers T)) : Option HandlerTask :=
  (history.filterMap (calledWith caller)).getLast?

end History

/-- The task that a worker has taken and not finished, while it is neither in a queue
nor a result. -/
def WorkerPc.heldTask : WorkerPc → List (Ticketed HandlerTask)
  | .taskNotify task | .dispatchCall task | .dispatching task => [task]
  | _ => []

/-- The result that a worker has not pushed yet. A stopping worker may throw it away.
-/
def WorkerPc.heldResult : WorkerPc → List (Ticketed HandlerResult)
  | .resultEnter done | .resultEvict done _ | .resultTest done | .resultSleep done
  | .resultWaiting done | .resultStopTest done _ | .resultPush done _ => [done]
  | _ => []

/-- The tickets that a worker holds, one at most: of a task, or of the result made of
it. -/
def WorkerPc.held (pc : WorkerPc) : List Nat :=
  pc.heldTask.map (·.ticket) ++ pc.heldResult.map (·.ticket)

/-- The tickets held by the workers, each worker's own in turn. -/
def heldTickets (config : PoolConfig pool T) : List Nat :=
  (List.finRange pool.numWorkers).flatMap fun index => (workerPc config index).held

/-- The tickets of all places where a task can be, inside of the pool or behind it. No
place is listed twice. -/
def ledger (config : PoolConfig pool T) (history : List (Event pool.numWorkers T)) : List Nat :=
  config.shared.tasks.map (·.ticket) ++ heldTickets config ++
    config.shared.results.map (·.ticket) ++ (popped history).map (·.ticket) ++
    (evictedTasks history).map (·.ticket) ++ (evictedResults history).map (·.ticket) ++
    (discarded history).map (·.ticket)

/-- The tickets that leave the pool in these events, whichever way they leave it. -/
def gone {numWorkers : Nat} (events : List (Event numWorkers T)) : List Nat :=
  (popped events).map (·.ticket) ++ (evictedTasks events).map (·.ticket) ++
    (evictedResults events).map (·.ticket) ++ (discarded events).map (·.ticket)

/-- The result that belongs to a task: its identifier, and the dispatcher's
outcome for its payload, where an exception becomes an internal error. -/
def Answers (pool : WorkerPool) (task : HandlerTask) (result : HandlerResult) : Prop :=
  result.correlationId = task.correlationId ∧
    result.outcome = match pool.dispatcher task.payload with
      | .returned outcome => outcome
      | .threw what => .error { code := .internal, message := what }
      | .threwUnknown =>
          .error { code := .internal, message := "unknown exception in dispatcher" }

/-- A result that belongs to the accepted task of its ticket: it answers that task,
and has its number. -/
def Genuine (pool : WorkerPool) (history : List (Event pool.numWorkers T))
    (result : Ticketed HandlerResult) : Prop :=
  ∃ task ∈ acceptedTasks history, task.ticket = result.ticket ∧ Answers pool task.item result.item

/-- Whether a worker is evicting results, which only one of the policies has it do. -/
def WorkerPc.evicting : WorkerPc → Bool
  | .resultEvict _ _ => true
  | _ => false

/-- The task object of a `try_submit` that has not enqueued it. Until then it belongs
to the caller. -/
def CallerPc.argument : CallerPc → Option HandlerTask
  | .submitEnter task | .submitTest task | .submitSection task => some task
  | _ => none

section Counts

omit [DecidableEq T]

/-- When one worker moves, the held tickets change by what that worker holds. -/
theorem held_count_update {config next : PoolConfig pool T} {index : Fin pool.numWorkers}
    (kept : ∀ other, other ≠ index → workerPc next other = workerPc config other) (ticket : Nat) :
    (heldTickets next).count ticket + (workerPc config index).held.count ticket =
      (heldTickets config).count ticket + (workerPc next index).held.count ticket := by
  have total (some : PoolConfig pool T) : (heldTickets some).count ticket =
      (workerPc some index).held.count ticket +
        ∑ other ∈ Finset.univ.erase index, (workerPc some other).held.count ticket := by
    rw [Finset.add_sum_erase Finset.univ (fun other => (workerPc some other).held.count ticket)
      (Finset.mem_univ index), Fin.sum_univ_def, heldTickets, List.count_flatMap]
    rfl
  have others : ∑ other ∈ Finset.univ.erase index, (workerPc next other).held.count ticket =
      ∑ other ∈ Finset.univ.erase index, (workerPc config other).held.count ticket := by
    refine Finset.sum_congr rfl ?_
    intro other member
    rw [kept other (Finset.ne_of_mem_erase member)]
  rw [total next, total config, others]
  omega

/-- When no worker moves, the held tickets stay. -/
theorem held_tickets_kept {config next : PoolConfig pool T}
    (kept : ∀ index, workerPc next index = workerPc config index) :
    heldTickets next = heldTickets config := by
  unfold heldTickets
  exact List.flatMap_congr fun index _ => by rw [kept index]

/-- The ledger grows by the tickets that leave. -/
theorem ledger_count (config : PoolConfig pool T) (history events : List (Event pool.numWorkers T))
    (ticket : Nat) :
    (ledger config (history ++ events)).count ticket =
      (ledger config history).count ticket + (gone events).count ticket := by
  simp only [ledger, gone, popped, evictedTasks, evictedResults, discarded, List.filterMap_append,
    List.map_append, List.count_append]
  omega

end Counts

section Moves

variable {shared after : Shared pool.numWorkers T} {choice : Choice pool.numWorkers T}
  {events : List (Event pool.numWorkers T)}

/-- A worker shifts tickets without creating or losing any. -/
theorem worker_move_balance {index : Fin pool.numWorkers} {before own : WorkerPc}
    (move : WorkerMove pool index shared choice before after own events)
    (sound : ∀ inside, own ≠ .aborted inside) (ticket : Nat) :
    after.accepted = shared.accepted ∧
    (after.tasks.map (·.ticket)).count ticket + own.held.count ticket +
        (after.results.map (·.ticket)).count ticket + (gone events).count ticket =
      (shared.tasks.map (·.ticket)).count ticket + before.held.count ticket +
        (shared.results.map (·.ticket)).count ticket := by
  cases move with
  | takeAborts => exact absurd rfl (sound .tasks)
  | take front _ | evict front _ =>
    refine ⟨rfl, ?_⟩
    simp only [front, WorkerPc.held, WorkerPc.heldTask, WorkerPc.heldResult, gone, popped,
      evictedTasks, evictedResults, discarded, List.filterMap_cons, List.filterMap_nil,
      List.map_cons, List.map_nil, List.count_cons, List.count_nil, List.append_nil,
      List.nil_append]
    omega
  | push | discard =>
    refine ⟨rfl, ?_⟩
    simp only [WorkerPc.held, WorkerPc.heldTask, WorkerPc.heldResult, gone, popped,
      evictedTasks, evictedResults, discarded, List.filterMap_cons, List.filterMap_nil,
      List.map_cons, List.map_nil, List.count_cons, List.count_nil, List.append_nil,
      List.nil_append, List.map_append, List.count_append]
    omega
  | evictAborts | pushAborts => exact absurd rfl (sound .results)
  | _ => exact ⟨rfl, rfl⟩

/-- A caller shifts tickets; an accepted task brings the next ticket. -/
theorem caller_move_balance {caller : T} {before own : CallerPc} (bounded : Bounded shared)
    (move : CallerMove pool caller shared choice before after own events)
    (sound : ∀ inside, own ≠ .aborted inside) (ticket : Nat) :
    (after.tasks.map (·.ticket)).count ticket + (after.results.map (·.ticket)).count ticket +
        (gone events).count ticket + (List.range shared.accepted).count ticket =
      (shared.tasks.map (·.ticket)).count ticket + (shared.results.map (·.ticket)).count ticket +
        (List.range after.accepted).count ticket := by
  cases move with
  | enqueue room within =>
    rcases (make_room_cases bounded.1 room).2 with ⟨_, _, oldest, rfl, front⟩ | ⟨_, rfl, rfl⟩
    · simp only [front, gone, popped, evictedTasks, evictedResults, discarded, Option.map_some,
        Option.toList_some, List.filterMap_append, List.filterMap_cons, List.filterMap_nil,
        List.map_cons, List.map_nil, List.count_cons, List.count_nil, List.append_nil,
        List.nil_append, List.map_append, List.count_append, List.range_succ]
      omega
    · simp only [gone, popped, evictedTasks, evictedResults, discarded, Option.map_none,
        Option.toList_none, List.filterMap_cons, List.filterMap_nil, List.map_cons, List.map_nil,
        List.count_cons, List.count_nil, List.append_nil, List.nil_append, List.map_append,
        List.count_append, List.range_succ]
      omega
  | enqueueAborts => exact absurd rfl (sound .tasks)
  | pop front room =>
    simp only [front, gone, popped, evictedTasks, evictedResults, discarded, List.filterMap_cons,
      List.filterMap_nil, List.map_cons, List.map_nil, List.count_cons, List.count_nil,
      List.append_nil]
    omega
  | popAborts => exact absurd rfl (sound .results)
  | _ => rfl

omit [DecidableEq T] in
/-- The constructor neither accepts nor releases anything. -/
theorem constructor_move_silent {before own : ConstructorPc}
    (move : ConstructorMove pool shared choice before after own events) :
    acceptedTasks events = [] ∧ releasedResults events = [] := by
  cases move <;> exact ⟨rfl, rfl⟩

omit [DecidableEq T] in
/-- The constructor loses nothing. -/
theorem constructor_move_losses {before own : ConstructorPc}
    (move : ConstructorMove pool shared choice before after own events) :
    evictedTasks events = [] ∧ evictedResults events = [] ∧ discarded events = [] := by
  cases move <;> exact ⟨rfl, rfl, rfl⟩

/-- A worker accepts no task. -/
theorem worker_move_accepted {index : Fin pool.numWorkers} {before own : WorkerPc}
    (move : WorkerMove pool index shared choice before after own events) :
    acceptedTasks events = [] ∧ after.accepted = shared.accepted := by
  cases move <;> exact ⟨rfl, rfl⟩

/-- A caller hands out the tickets in order. -/
theorem caller_move_accepted {caller : T} {before own : CallerPc}
    (move : CallerMove pool caller shared choice before after own events) :
    List.range shared.accepted ++ (acceptedTasks events).map (·.ticket) =
      List.range after.accepted := by
  cases move with
  | @enqueue task evicted =>
    rw [List.range_succ]
    cases evicted <;> rfl
  | _ => exact List.append_nil _

/-- The tasks behind a move of a worker were pending, or the worker held them. -/
theorem worker_move_tasks {index : Fin pool.numWorkers} {before own : WorkerPc}
    (move : WorkerMove pool index shared choice before after own events) :
    after.tasks ++ own.heldTask ⊆ shared.tasks ++ before.heldTask := by
  intro task member
  cases move with
  | take front within =>
    rw [front]
    simpa [WorkerPc.heldTask, or_comm] using member
  | @takeAborts _ tasks front exceeds =>
    rw [front]
    have pending : task ∈ tasks := by simpa [WorkerPc.heldTask] using member
    exact List.mem_append_left _ (List.mem_cons_of_mem _ pending)
  | dispatched =>
    have pending : task ∈ shared.tasks := by simpa [WorkerPc.heldTask] using member
    exact List.mem_append_left _ pending
  | _ => exact member

/-- The results behind a move of a worker were there before, or are the one made
of the task that the worker held. -/
theorem worker_move_made {index : Fin pool.numWorkers} {before own : WorkerPc}
    (move : WorkerMove pool index shared choice before after own events)
    {result : Ticketed HandlerResult}
    (member : result ∈ after.results ++ own.heldResult ++ releasedResults events) :
    result ∈ shared.results ++ before.heldResult ∨
      ∃ task ∈ before.heldTask, result = ⟨task.ticket, handlerResult pool task.item⟩ := by
  cases move with
  | @dispatched task =>
    have origin : result ∈ shared.results ∨
        result = ⟨task.ticket, handlerResult pool task.item⟩ := by
      simpa [WorkerPc.heldResult, releasedResults, popped, evictedResults, discarded] using member
    rcases origin with earlier | made
    · exact Or.inl (List.mem_append_left _ earlier)
    · exact Or.inr ⟨task, List.mem_singleton.mpr rfl, made⟩
  | evict front full =>
    left
    rw [front]
    simpa [WorkerPc.heldResult, releasedResults, popped, evictedResults, discarded, or_comm,
      or_left_comm, or_assoc] using member
  | evictAborts empty exceeds | pushAborts exceeds =>
    left
    have earlier : result ∈ shared.results := by
      simpa [WorkerPc.heldResult, releasedResults, popped, evictedResults, discarded] using member
    exact List.mem_append_left _ earlier
  | push | discard =>
    left
    simpa [WorkerPc.heldResult, releasedResults, popped, evictedResults, discarded] using member
  | _ =>
    -- nothing is released, and the results are where they were
    change result ∈ _ ++ [] at member
    rw [List.append_nil] at member
    exact Or.inl member

/-- The tasks behind a move of a caller were pending or have just been accepted. -/
theorem caller_move_tasks {caller : T} {before own : CallerPc} (bounded : Bounded shared)
    (move : CallerMove pool caller shared choice before after own events) :
    after.tasks ⊆ shared.tasks ++ acceptedTasks events := by
  intro task member
  cases move with
  | enqueue room within =>
    rcases (make_room_cases bounded.1 room).2 with ⟨_, _, oldest, rfl, front⟩ | ⟨_, rfl, rfl⟩
    · rw [front]
      exact List.mem_cons_of_mem oldest member
    · exact member
  | enqueueAborts room exceeds =>
    have fits := (make_room_cases bounded.1 room).1
    omega
  | _ => exact List.mem_append_left _ member

/-- The results behind a move of a caller were completed before it. -/
theorem caller_move_made {caller : T} {before own : CallerPc}
    (move : CallerMove pool caller shared choice before after own events) :
    after.results ++ releasedResults events ⊆ shared.results := by
  intro result member
  cases move with
  | @enqueue task evicted =>
    cases evicted <;>
      simpa [releasedResults, popped, evictedResults, discarded] using member
  | pop front room =>
    rw [front]
    simpa [releasedResults, popped, evictedResults, discarded, or_comm] using member
  | @popAborts _ results front exceeds =>
    rw [front]
    have later : result ∈ results := by
      simpa [releasedResults, popped, evictedResults, discarded] using member
    exact List.mem_cons_of_mem _ later
  | _ =>
    change result ∈ _ ++ [] at member
    rwa [List.append_nil] at member

/-- What a worker's move loses: no pending task; a result only where the worker
is evicting, which is under `DropOldestCompletedResult`; its own result only
when the pool has been stopped. -/
theorem worker_move_losses {index : Fin pool.numWorkers} {before own : WorkerPc}
    (move : WorkerMove pool index shared choice before after own events) :
    evictedTasks events = [] ∧
    (before.evicting = false → evictedResults events = []) ∧
    (after.stop = false → discarded events = []) ∧
    (own.evicting = true → before.evicting = true ∨
      pool.options.resultQueueOverflow = .dropOldestCompletedResult) := by
  cases move with
  | lockResultsToEvict locked policy =>
    exact ⟨rfl, fun _ => rfl, fun _ => rfl, fun _ => .inr policy⟩
  | evict => exact ⟨rfl, nofun, fun _ => rfl, fun _ => .inl rfl⟩
  | discard stopped =>
    refine ⟨rfl, fun _ => rfl, ?_, nofun⟩
    intro running
    exact absurd (stopped.symm.trans running) nofun
  | _ => exact ⟨rfl, fun _ => rfl, fun _ => rfl, nofun⟩

/-- What a caller's move loses: a pending task, under `DropOldestPendingTask`. -/
theorem caller_move_losses {caller : T} {before own : CallerPc} (bounded : Bounded shared)
    (move : CallerMove pool caller shared choice before after own events) :
    (pool.options.taskQueueOverflow = .rejectNewTask → evictedTasks events = []) ∧
    evictedResults events = [] ∧ discarded events = [] := by
  cases move with
  | enqueue room within =>
    rcases (make_room_cases bounded.1 room).2 with ⟨_, policy, oldest, rfl, _⟩ | ⟨_, rfl, rfl⟩
    · refine ⟨?_, rfl, rfl⟩
      intro rejects
      exact absurd (policy.symm.trans rejects) nofun
    · exact ⟨fun _ => rfl, rfl, rfl⟩
  | _ => exact ⟨fun _ => rfl, rfl, rfl⟩

/-- A rejected submission leaves the queue alone and reports the object that the
call was made with. -/
theorem caller_move_rejected {caller : T} {before own : CallerPc}
    (move : CallerMove pool caller shared choice before after own events)
    {task : HandlerTask} (rejects : .submitRejected caller task ∈ events) :
    before.argument = some task ∧ after.tasks = shared.tasks := by
  cases move with
  | refuseStopped | refuseFull =>
    obtain rfl : task = _ := by simpa using rejects
    exact ⟨rfl, rfl⟩
  | @enqueue submitted evicted => cases evicted <;> simp at rejects
  | _ => simp at rejects

/-- Events without a call of `try_submit` by `name` leave its latest object. -/
theorem submitted_append {history : List (Event pool.numWorkers T)} {name : T}
    (silent : ∀ task, .submitCalled name task ∉ events) :
    submitted name (history ++ events) = submitted name history := by
  have nothing : events.filterMap (calledWith name) = [] := by
    rw [List.filterMap_eq_nil_iff]
    intro event member
    cases event with
    | submitCalled caller task =>
      by_cases same : caller = name
      · subst caller
        exact absurd member (silent task)
      · simp [calledWith, same]
    | _ => rfl
  unfold submitted
  rw [List.filterMap_append, nothing, List.append_nil]

/-- A caller changes the queue of tasks only by having one accepted. -/
theorem caller_move_keeps_tasks {caller : T} {before own : CallerPc} (bounded : Bounded shared)
    (move : CallerMove pool caller shared choice before after own events) :
    after.tasks = shared.tasks ∨ ∃ task, .accepted caller task ∈ events := by
  cases move with
  | @enqueue task evicted => exact Or.inr ⟨⟨shared.accepted, task⟩, by simp⟩
  | enqueueAborts room exceeds =>
    have fits := (make_room_cases bounded.1 room).1
    omega
  | _ => exact Or.inl rfl

/-- The argument of a submission is the object of the latest call. -/
theorem caller_move_argument {caller : T} {before own : CallerPc}
    (move : CallerMove pool caller shared choice before after own events)
    {history : List (Event pool.numWorkers T)}
    (recorded : ∀ task, before.argument = some task → submitted caller history = some task)
    (task : HandlerTask) (argument : own.argument = some task) :
    submitted caller (history ++ events) = some task := by
  cases move with
  | callSubmit =>
    obtain rfl := Option.some.inj argument
    simp [submitted, calledWith]
  | lockTasks | goOn => simpa [submitted] using recorded task argument
  | _ => cases argument

end Moves

section Runs

variable {config : PoolConfig pool T} {history : List (Event pool.numWorkers T)}

/-- The ledger is a permutation of the tickets given out so far: each stands in
exactly one place, from the queue through the hands of a worker to the results and the
losses. Every move hands tickets from one place to another, and only an acceptance
makes one. -/
theorem ledger_complete (reached : Reached pool config history) :
    (ledger config history).Perm (List.range config.shared.accepted) := by
  refine run_invariant (fun config history =>
    (ledger config history).Perm (List.range config.shared.accepted)) ?_ ?_ reached
  · have nobody : heldTickets (fresh pool T) = [] := by
      refine List.flatMap_eq_nil_iff.mpr ?_
      intro index _
      rfl
    simp only [ledger, nobody]
    exact List.Perm.refl []
  · rintro config history ⟨thread, choice⟩ next events before balanced _ stepped
    obtain ⟨workers, callers⟩ := run_never_aborts (Run.step before trivial stepped)
    have bounded := (run_assured before).1
    rw [List.perm_iff_count] at balanced ⊢
    intro ticket
    have old := balanced ticket
    rw [ledger_count]
    rcases pool_step_moves stepped with ⟨_, move, others, _⟩ | ⟨index, _, move, others, _⟩ |
      ⟨caller, _, move, others, _⟩
    · obtain ⟨_, _, tasks, results, _, accepted, _⟩ := constructor_move_frame move
      have quiet : gone events = [] := by
        obtain ⟨noTasks, _, _⟩ := constructor_move_losses move
        have released := (constructor_move_silent move).2
        simp only [releasedResults, List.append_eq_nil_iff] at released
        simp [gone, noTasks, released]
      rw [quiet, accepted, ← old]
      simp only [ledger, held_tickets_kept others, tasks, results]
      rfl
    · have balance := worker_move_balance move (workers index) ticket
      have held := held_count_update others ticket
      rw [balance.1, ← old]
      simp only [ledger, List.count_append] at held ⊢
      omega
    · have balance := caller_move_balance bounded move (callers caller) ticket
      simp only [ledger, held_tickets_kept others, List.count_append] at old ⊢
      omega

omit [DecidableEq T] in
/-- The accepted tasks of a longer history are those of the shorter and more. -/
theorem accepted_tasks_append (history events : List (Event pool.numWorkers T)) :
    acceptedTasks (history ++ events) = acceptedTasks history ++ acceptedTasks events :=
  List.filterMap_append

/-- The accepted tasks carry the tickets in order. -/
theorem accepted_tickets (reached : Reached pool config history) :
    (acceptedTasks history).map (·.ticket) = List.range config.shared.accepted := by
  refine run_invariant (fun config history =>
    (acceptedTasks history).map (·.ticket) = List.range config.shared.accepted) rfl ?_ reached
  rintro config history ⟨thread, choice⟩ next events _ counted _ stepped
  rw [accepted_tasks_append, List.map_append, counted]
  rcases pool_step_moves stepped with ⟨_, move, _⟩ | ⟨index, _, move, _⟩ | ⟨caller, _, move, _⟩
  · obtain ⟨_, _, _, _, _, accepted, _⟩ := constructor_move_frame move
    rw [(constructor_move_silent move).1, accepted]
    exact List.append_nil _
  · obtain ⟨silent, accepted⟩ := worker_move_accepted move
    rw [silent, accepted]
    exact List.append_nil _
  · exact caller_move_accepted move

omit [DecidableEq T] in
/-- A result stays genuine. -/
theorem genuine_append {history : List (Event pool.numWorkers T)}
    {result : Ticketed HandlerResult} (genuine : Genuine pool history result)
    (events : List (Event pool.numWorkers T)) : Genuine pool (history ++ events) result := by
  obtain ⟨task, accepted, same, answers⟩ := genuine
  refine ⟨task, ?_, same, answers⟩
  rw [accepted_tasks_append]
  exact List.mem_append_left _ accepted

omit [DecidableEq T] in
/-- What a worker makes of an accepted task is genuine. -/
theorem made_genuine {history : List (Event pool.numWorkers T)} {task : Ticketed HandlerTask}
    (accepted : task ∈ acceptedTasks history) :
    Genuine pool history ⟨task.ticket, handlerResult pool task.item⟩ := by
  refine ⟨task, accepted, rfl, rfl, ?_⟩
  cases returns : pool.dispatcher task.item.payload <;>
    simp [handlerResult, DispatchReturn.outcome, returns]

/-- Where every task and every result of the pool comes from: from the accepted tasks,
and from nowhere else. -/
structure Provenance (config : PoolConfig pool T) (history : List (Event pool.numWorkers T)) :
    Prop where
  pending : config.shared.tasks ⊆ acceptedTasks history
  heldTask : ∀ index, (workerPc config index).heldTask ⊆ acceptedTasks history
  completed : ∀ result ∈ config.shared.results ++ releasedResults history,
    Genuine pool history result
  heldResult : ∀ index, ∀ result ∈ (workerPc config index).heldResult, Genuine pool history result

omit [DecidableEq T] in
/-- Results released by new events join those released before. -/
theorem released_results_append {history events : List (Event pool.numWorkers T)}
    {result : Ticketed HandlerResult} : result ∈ releasedResults (history ++ events) ↔
      result ∈ releasedResults history ∨ result ∈ releasedResults events := by
  simp only [releasedResults, popped, evictedResults, discarded, List.filterMap_append,
    List.mem_append]
  tauto

/-- A move of a worker keeps the provenance. What it holds it has taken from the
queue, and the result that it makes is that of the dispatcher on the task it holds. -/
theorem worker_keeps_provenance {next : PoolConfig pool T} {index : Fin pool.numWorkers}
    {choice : Choice pool.numWorkers T} {events : List (Event pool.numWorkers T)}
    (provenance : Provenance config history)
    (move : WorkerMove pool index config.shared choice (workerPc config index) next.shared
      (workerPc next index) events)
    (others : ∀ other, other ≠ index → workerPc next other = workerPc config other) :
    Provenance next (history ++ events) := by
  obtain ⟨pending, heldTask, completed, heldResult⟩ := provenance
  have tasks := worker_move_tasks move
  have silent : acceptedTasks (history ++ events) = acceptedTasks history := by
    rw [accepted_tasks_append, (worker_move_accepted move).1, List.append_nil]
  have from_before : ∀ task ∈ next.shared.tasks ++ (workerPc next index).heldTask,
      task ∈ acceptedTasks history := by
    intro task member
    rcases List.mem_append.mp (tasks member) with waited | held
    · exact pending waited
    · exact heldTask index held
  have genuine : ∀ result ∈ next.shared.results ++ (workerPc next index).heldResult ++
      releasedResults events, Genuine pool (history ++ events) result := by
    intro result member
    rcases worker_move_made move member with earlier | ⟨task, held, rfl⟩
    · refine genuine_append ?_ events
      rcases List.mem_append.mp earlier with queued | carried
      · exact completed result (List.mem_append_left _ queued)
      · exact heldResult index result carried
    · exact genuine_append (made_genuine (heldTask index held)) events
  constructor
  · intro task member
    rw [silent]
    exact from_before task (List.mem_append_left _ member)
  · intro other
    rw [silent]
    by_cases same : other = index
    · subst other
      intro task member
      exact from_before task (List.mem_append_right _ member)
    · rw [others other same]
      exact heldTask other
  · intro result member
    rcases List.mem_append.mp member with queued | released
    · exact genuine result (by simp [queued])
    · rcases released_results_append.mp released with earlier | now
      · exact genuine_append (completed result (List.mem_append_right _ earlier)) events
      · exact genuine result (by simp [now])
  · intro other result member
    by_cases same : other = index
    · subst other
      exact genuine result (by simp [member])
    · rw [others other same] at member
      exact genuine_append (heldResult other result member) events

omit [DecidableEq T] in
/-- A step of another thread keeps the provenance when it adds only accepted
tasks and only removes results. -/
theorem provenance_kept {next : PoolConfig pool T} {events : List (Event pool.numWorkers T)}
    (provenance : Provenance config history)
    (tasks : next.shared.tasks ⊆ config.shared.tasks ++ acceptedTasks events)
    (results : next.shared.results ++ releasedResults events ⊆ config.shared.results)
    (workers : ∀ index, workerPc next index = workerPc config index) :
    Provenance next (history ++ events) := by
  obtain ⟨pending, heldTask, completed, heldResult⟩ := provenance
  constructor
  · intro task member
    rw [accepted_tasks_append]
    rcases List.mem_append.mp (tasks member) with waited | fresh
    · exact List.mem_append_left _ (pending waited)
    · exact List.mem_append_right _ fresh
  · intro index task member
    rw [workers index] at member
    rw [accepted_tasks_append]
    exact List.mem_append_left _ (heldTask index member)
  · intro result member
    refine genuine_append (completed result ?_) events
    rcases List.mem_append.mp member with queued | released
    · exact List.mem_append_left _ (results (List.mem_append_left _ queued))
    · rcases released_results_append.mp released with earlier | now
      · exact List.mem_append_right _ earlier
      · exact List.mem_append_left _ (results (List.mem_append_right _ now))
  · intro index result member
    rw [workers index] at member
    exact genuine_append (heldResult index result member) events

/-- The provenance is kept along every run. -/
theorem run_provenance (reached : Reached pool config history) : Provenance config history := by
  refine run_invariant Provenance ?_ ?_ reached
  · constructor
    · exact List.nil_subset _
    · intro index
      exact List.nil_subset _
    · intro result member
      cases member
    · intro index result member
      cases member
  · rintro config history ⟨thread, choice⟩ next events before provenance _ stepped
    rcases pool_step_moves stepped with ⟨_, move, others, _⟩ | ⟨index, _, move, others, _⟩ |
      ⟨caller, _, move, others, _⟩
    · obtain ⟨_, _, tasks, results, _⟩ := constructor_move_frame move
      obtain ⟨accepts, releases⟩ := constructor_move_silent move
      refine provenance_kept provenance ?_ ?_ others
      · rw [tasks, accepts, List.append_nil]
        exact List.Subset.refl _
      · rw [results, releases, List.append_nil]
        exact List.Subset.refl _
    · exact worker_keeps_provenance provenance move others
    · exact provenance_kept provenance (caller_move_tasks (run_assured before).1 move)
        (caller_move_made move) others

/-- What the policies and the stop flag exclude, and where a worker may be evicting.
Nothing is lost for another reason. -/
structure Losses (config : PoolConfig pool T) (history : List (Event pool.numWorkers T)) :
    Prop where
  tasks : pool.options.taskQueueOverflow = .rejectNewTask → evictedTasks history = []
  results : pool.options.resultQueueOverflow = .blockWorkerUntilPopped →
    evictedResults history = []
  discards : config.shared.stop = false → discarded history = []
  evicting : ∀ index, (workerPc config index).evicting = true →
    pool.options.resultQueueOverflow = .dropOldestCompletedResult

/-- The losses of every run are those that the policies and the stop flag allow. Each
of the three lists only grows in a move whose guard says so. -/
theorem run_losses (reached : Reached pool config history) : Losses config history := by
  have initially : Losses (fresh pool T) [] := by
    refine ⟨fun _ => rfl, fun _ => rfl, fun _ => rfl, ?_⟩
    intro index evicts
    cases evicts
  refine run_invariant Losses initially ?_ reached
  rintro config history ⟨thread, choice⟩ next events before ⟨tasks, results, discards, evicting⟩ _
    stepped
  have bounded := (run_assured before).1
  have evictedTasksGrow : evictedTasks (history ++ events) =
    evictedTasks history ++ evictedTasks events := List.filterMap_append
  have evictedResultsGrow : evictedResults (history ++ events) =
    evictedResults history ++ evictedResults events := List.filterMap_append
  have discardedGrow : discarded (history ++ events) = discarded history ++ discarded events :=
    List.filterMap_append
  rcases pool_step_moves stepped with ⟨_, move, others, _⟩ | ⟨index, _, move, others, _⟩ |
    ⟨caller, _, move, others, _⟩
  · obtain ⟨_, _, _, _, stop, _⟩ := constructor_move_frame move
    obtain ⟨noTasks, noResults, noDiscards⟩ := constructor_move_losses move
    constructor
    · intro rejects
      rw [evictedTasksGrow, tasks rejects, noTasks, List.append_nil]
    · intro blocks
      rw [evictedResultsGrow, results blocks, noResults, List.append_nil]
    · intro running
      rw [discardedGrow, discards (stop ▸ running), noDiscards, List.append_nil]
    · intro other evicts
      exact evicting other (others other ▸ evicts)
  · obtain ⟨noTasks, noResults, noDiscards, enters⟩ := worker_move_losses move
    constructor
    · intro rejects
      rw [evictedTasksGrow, tasks rejects, noTasks, List.append_nil]
    · intro blocks
      have outside : (workerPc config index).evicting = false := by
        by_contra evicts
        have drops := evicting index (Bool.not_eq_false _ ▸ evicts)
        exact absurd (drops.symm.trans blocks) nofun
      rw [evictedResultsGrow, results blocks, noResults outside, List.append_nil]
    · intro running
      have earlier : config.shared.stop = false := (worker_move_stop move) ▸ running
      rw [discardedGrow, discards earlier, noDiscards running, List.append_nil]
    · intro other evicts
      by_cases same : other = index
      · subst other
        exact (enters evicts).elim (evicting index) id
      · exact evicting other (others other same ▸ evicts)
  · obtain ⟨noTasks, noResults, noDiscards⟩ := caller_move_losses bounded move
    constructor
    · intro rejects
      rw [evictedTasksGrow, tasks rejects, noTasks rejects, List.append_nil]
    · intro blocks
      rw [evictedResultsGrow, results blocks, noResults, List.append_nil]
    · intro running
      have earlier : config.shared.stop = false := by
        by_contra stopped
        have still := caller_move_stop move (Bool.not_eq_false _ ▸ stopped)
        exact absurd (still.symm.trans running) nofun
      rw [discardedGrow, discards earlier, noDiscards, List.append_nil]
    · intro other evicts
      exact evicting other (others other ▸ evicts)

/-- A call in progress works on the object it was made with. -/
theorem run_arguments (reached : Reached pool config history) (caller : T) (task : HandlerTask)
    (argument : (callerPc config caller).argument = some task) :
    submitted caller history = some task := by
  refine run_invariant (fun config history => ∀ caller task,
    (callerPc config caller).argument = some task → submitted caller history = some task)
    ?_ ?_ reached caller task argument
  · intro caller task called
    cases called
  rintro config history ⟨thread, choice⟩ next events _ recorded _ stepped name object holds
  by_cases same : thread = .caller name
  · subst thread
    exact caller_move_argument (caller_moves stepped).1 (fun task => recorded name task) object
      holds
  · have kept : callerPc next name = callerPc config name :=
      (system_step_cases stepped).2 (.caller name) (Ne.symm same)
    rw [kept] at holds
    rw [submitted_append (fun task member => same (pool_step_emitter stepped member rfl))]
    exact recorded name object holds

/-- A rejected submission, in a run. -/
theorem run_rejected (reached : Reached pool config history) {next : PoolConfig pool T}
    {thread : ThreadId pool.numWorkers T} {choice : Choice pool.numWorkers T}
    {events : List (Event pool.numWorkers T)}
    (stepped : (poolProgram pool T).system.step config (thread, choice) = some (next, events))
    {caller : T} {task : HandlerTask} (rejects : .submitRejected caller task ∈ events) :
    next.shared.tasks = config.shared.tasks ∧ submitted caller history = some task := by
  obtain rfl := pool_step_emitter stepped rejects rfl
  obtain ⟨argument, tasks⟩ := caller_move_rejected (caller_moves stepped).1 rejects
  exact ⟨tasks, run_arguments reached caller task argument⟩

end Runs

/-- Conservation of tasks and correctness of results, for every pool, every
dispatcher and every interleaving.

The accepted tasks have the tickets 0, 1, 2 and so on, and the ledger of the
seven places where a task can be holds each of these tickets exactly once.
Pending tasks are accepted tasks; queued and popped results are those of the
task of their ticket. A caller changes the pending tasks only by having a task
accepted, and a rejected call returns the object it was made with. Without a
lossy policy, and until the pool is stopped, nothing is evicted or discarded, so
that the accepted tasks are pending, held, completed or popped. -/
theorem tasks_conserved (pool : WorkerPool) (T : Type) [DecidableEq T]
    (config : PoolConfig pool T) (history : List (Event pool.numWorkers T))
    (reached : Reached pool config history) :
    (acceptedTasks history).map (·.ticket) = List.range config.shared.accepted ∧
    (ledger config history).Perm (List.range config.shared.accepted) ∧
    (∀ task ∈ config.shared.tasks, task ∈ acceptedTasks history) ∧
    (∀ result ∈ config.shared.results ++ popped history, Genuine pool history result) ∧
    (∀ caller choice next events,
      (poolProgram pool T).system.step config (.caller caller, choice) = some (next, events) →
      next.shared.tasks = config.shared.tasks ∨ ∃ task, .accepted caller task ∈ events) ∧
    (∀ thread choice next events caller task,
      (poolProgram pool T).system.step config (thread, choice) = some (next, events) →
      .submitRejected caller task ∈ events →
      next.shared.tasks = config.shared.tasks ∧ submitted caller history = some task) ∧
    (pool.options.taskQueueOverflow = .rejectNewTask →
      pool.options.resultQueueOverflow = .blockWorkerUntilPopped →
      config.shared.stop = false →
      evictedTasks history = [] ∧ evictedResults history = [] ∧ discarded history = [] ∧
        (config.shared.tasks.map (·.ticket) ++ heldTickets config ++
          config.shared.results.map (·.ticket) ++ (popped history).map (·.ticket)).Perm
          (List.range config.shared.accepted)) := by
  have complete := ledger_complete reached
  obtain ⟨pending, _, completed, _⟩ := run_provenance reached
  refine ⟨accepted_tickets reached, complete, fun _ member => pending member, ?_, ?_, ?_, ?_⟩
  · intro result member
    refine completed result ?_
    rcases List.mem_append.mp member with queued | taken
    · exact List.mem_append_left _ queued
    · exact List.mem_append_right _ (by simp [releasedResults, taken])
  · intro caller choice next events stepped
    exact caller_move_keeps_tasks (run_assured reached).1 (caller_moves stepped).1
  · intro thread choice next events caller task stepped rejects
    exact run_rejected reached stepped rejects
  · intro rejects blocks running
    obtain ⟨tasks, results, discards, _⟩ := run_losses reached
    refine ⟨tasks rejects, results blocks, discards running, ?_⟩
    simpa [ledger, tasks rejects, results blocks, discards running] using complete

/-- A pool with one worker, queues of one element and a dispatcher that throws at
every task. -/
def throwingPool : WorkerPool where
  numWorkers := 1
  queueCapacity := 1
  dispatcher _ := .threw "refused"
  options := {}
  numWorkersPositive := Nat.one_ne_zero
  queueCapacityPositive := Nat.one_ne_zero
  resultCapacityPositive := Nat.one_ne_zero

/-- One task from its submission to the call that pops its result, with nothing else
going on. -/
def oneTask : List (ThreadId 1 Unit × Choice 1 Unit) :=
  steps .constructor 2 ++ calls () (.trySubmit ⟨7, [1]⟩) 4 ++ steps (.worker 0) 12 ++
    calls () .tryPopResult 2

/-- The result that the caller pops carries the identifier of the task and the
exception as an internal error. -/
theorem tasks_conserved_throwing :
    ∃ (config : PoolConfig throwingPool Unit) (history : List (Event 1 Unit)),
      Reached throwingPool config history ∧
      popped history = [⟨0, ⟨7, .error { message := "refused" }⟩⟩] ∧
      ∀ result ∈ popped history, Genuine throwingPool history result := by
  obtain ⟨config, history, reached, observed⟩ :=
    replay_exhibits (poolProgram throwingPool Unit).system (fresh throwingPool Unit)
      (fun final => decide (popped final.2 = [⟨0, ⟨7, .error { message := "refused" }⟩⟩]))
      oneTask (by decide)
  obtain ⟨_, _, _, genuine, _⟩ := tasks_conserved throwingPool Unit config history reached
  refine ⟨config, history, reached, of_decide_eq_true observed, ?_⟩
  intro result taken
  exact genuine result (List.mem_append_right _ taken)

end TcpServer.Runtime
