import TcpServer.PoolConservation

/-!
# Order in the worker pool

Tasks leave the queue at its front, taken or evicted, and enter it at its back.
So the tasks that have left, followed by the pending ones, are the accepted tasks
in the order of their acceptance, under every policy and interleaving.

With a single worker the order survives to the results: what has been popped, is
completed, held and pending stands in one line. Policies and shutdown may take
tickets out of the line but never exchange two of them.
-/

namespace TcpServer.Runtime

open Monitors Threads Transition

variable {T : Type} [DecidableEq T] {pool : WorkerPool}

/-- The tasks that workers have taken from the queue, in the order in which they were
taken. -/
def takenTasks {numWorkers : Nat} (history : List (Event numWorkers T)) :
    List (Ticketed HandlerTask) :=
  history.filterMap fun event => match event with
    | .taken _ task => some task
    | _ => none

/-- The tasks that have left the queue, taken or evicted, in order. The queue goes on
where they end. -/
def departedTasks {numWorkers : Nat} (history : List (Event numWorkers T)) :
    List (Ticketed HandlerTask) :=
  history.filterMap fun event => match event with
    | .taken _ task | .taskEvicted task => some task
    | _ => none

/-- The tickets of popped and completed results, of tasks in flight and of
pending tasks. -/
def line (config : PoolConfig pool T) (history : List (Event pool.numWorkers T)) : List Nat :=
  (popped history).map (·.ticket) ++ config.shared.results.map (·.ticket) ++ heldTickets config ++
    config.shared.tasks.map (·.ticket)

omit [DecidableEq T] in
/-- A task that has left was taken or evicted. -/
theorem departed_perm {numWorkers : Nat} (history : List (Event numWorkers T)) :
    (departedTasks history).Perm (takenTasks history ++ evictedTasks history) := by
  induction history with
  | nil => exact List.Perm.refl []
  | cons event later inductionHypothesis =>
    cases event with
    | taken worker task => exact inductionHypothesis.cons task
    | taskEvicted task => exact (inductionHypothesis.cons task).trans List.perm_middle.symm
    | _ => exact inductionHypothesis

omit [DecidableEq T] in
/-- The taken tasks are a part of those that have left, in the same order. -/
theorem taken_departed {numWorkers : Nat} (history : List (Event numWorkers T)) :
    (takenTasks history).Sublist (departedTasks history) := by
  induction history with
  | nil => exact List.Sublist.refl []
  | cons event later inductionHypothesis =>
    cases event with
    | taken worker task => exact inductionHypothesis.cons_cons task
    | taskEvicted task => exact inductionHypothesis.cons task
    | _ => exact inductionHypothesis

section Moves

variable {shared after : Shared pool.numWorkers T} {choice : Choice pool.numWorkers T}
  {events : List (Event pool.numWorkers T)}

omit [DecidableEq T] in
/-- The constructor has no part in the order. -/
theorem constructor_move_order {before own : ConstructorPc}
    (move : ConstructorMove pool shared choice before after own events) :
    departedTasks events = [] ∧ popped events = [] := by
  cases move <;> exact ⟨rfl, rfl⟩

/-- A worker takes from the front of the queue. -/
theorem worker_move_departures {index : Fin pool.numWorkers} {before own : WorkerPc}
    (move : WorkerMove pool index shared choice before after own events)
    (sound : ∀ inside, own ≠ .aborted inside) :
    departedTasks events ++ after.tasks = shared.tasks := by
  cases move with
  | take front within => exact front.symm
  | takeAborts => exact absurd rfl (sound .tasks)
  | _ => rfl

/-- A caller evicts at the front and enqueues at the back. -/
theorem caller_move_departures {caller : T} {before own : CallerPc} (bounded : Bounded shared)
    (move : CallerMove pool caller shared choice before after own events) :
    departedTasks events ++ after.tasks = shared.tasks ++ acceptedTasks events := by
  cases move with
  | enqueue room within =>
    rcases (make_room_cases bounded.1 room).2 with ⟨_, _, oldest, rfl, front⟩ | ⟨_, rfl, rfl⟩
    · rw [front]
      rfl
    · rfl
  | enqueueAborts room exceeds =>
    have fits := (make_room_cases bounded.1 room).1
    omega
  | _ => exact (List.append_nil _).symm

/-- A worker holds only what it has taken, and dispatches only what it holds. -/
theorem worker_move_dispatch {index : Fin pool.numWorkers} {before own : WorkerPc}
    (move : WorkerMove pool index shared choice before after own events) :
    (∀ task ∈ own.heldTask, task ∈ before.heldTask ∨ task ∈ takenTasks events) ∧
      ∀ worker ticket, .dispatchBegan worker ticket ∈ events →
        ∃ task ∈ before.heldTask, ticket = task.ticket := by
  cases move with
  | take front within => exact ⟨fun task member => Or.inr member, by simp⟩
  | @dispatch task =>
    refine ⟨fun task member => Or.inl member, ?_⟩
    intro worker ticket member
    simp only [List.mem_singleton, Event.dispatchBegan.injEq] at member
    exact ⟨task, List.mem_singleton.mpr rfl, member.2⟩
  | notifyTaken => exact ⟨fun task member => Or.inl member, by simp⟩
  | _ => exact ⟨by simp [WorkerPc.heldTask], by simp⟩

/-- A worker moves its ticket along the line or takes tickets out of it. -/
theorem worker_move_line {index : Fin pool.numWorkers} {before own : WorkerPc}
    (move : WorkerMove pool index shared choice before after own events) :
    popped events = [] ∧
      (after.results.map (·.ticket) ++ own.held ++ after.tasks.map (·.ticket)).Sublist
        (shared.results.map (·.ticket) ++ before.held ++ shared.tasks.map (·.ticket)) := by
  cases move with
  | take front within =>
    refine ⟨rfl, ?_⟩
    simp [front, WorkerPc.held, WorkerPc.heldTask, WorkerPc.heldResult]
  | takeAborts front exceeds =>
    refine ⟨rfl, ?_⟩
    simp [front, WorkerPc.held, WorkerPc.heldTask, WorkerPc.heldResult]
  | evict front full =>
    refine ⟨rfl, ?_⟩
    simp [front, WorkerPc.held, WorkerPc.heldTask, WorkerPc.heldResult]
  | discard | evictAborts | pushAborts =>
    refine ⟨rfl, ?_⟩
    simp [WorkerPc.held, WorkerPc.heldTask, WorkerPc.heldResult]
  | _ =>
    refine ⟨rfl, ?_⟩
    simp [WorkerPc.held, WorkerPc.heldTask, WorkerPc.heldResult]

/-- A caller pops at the front of the line, enqueues at its back, and evicts from
its last part. -/
theorem caller_move_line {caller : T} {before own : CallerPc} (bounded : Bounded shared)
    (move : CallerMove pool caller shared choice before after own events) (held : List Nat) :
    ((popped events).map (·.ticket) ++ after.results.map (·.ticket) ++ held ++
        after.tasks.map (·.ticket)).Sublist
      (shared.results.map (·.ticket) ++ held ++ shared.tasks.map (·.ticket) ++
        (acceptedTasks events).map (·.ticket)) := by
  cases move with
  | enqueue room within =>
    rcases (make_room_cases bounded.1 room).2 with ⟨_, _, oldest, rfl, front⟩ | ⟨_, rfl, rfl⟩
    · simp [front, popped, acceptedTasks]
    · simp [popped, acceptedTasks]
  | enqueueAborts room exceeds =>
    have fits := (make_room_cases bounded.1 room).1
    omega
  | pop front room => simp [front, popped, acceptedTasks]
  | popAborts front exceeds => simp [front, popped, acceptedTasks]
  | _ => simp [popped, acceptedTasks]

end Moves

section Runs

variable {config : PoolConfig pool T} {history : List (Event pool.numWorkers T)}

/-- The departed tasks, followed by the pending ones, are the accepted tasks. -/
theorem run_departures (reached : Reached pool config history) :
    departedTasks history ++ config.shared.tasks = acceptedTasks history := by
  apply run_invariant (fun config history =>
    departedTasks history ++ config.shared.tasks = acceptedTasks history) rfl ?_ reached
  rintro config history ⟨thread, choice⟩ next events before ordered _ stepped
  have departs : departedTasks (history ++ events) =
      departedTasks history ++ departedTasks events := List.filterMap_append
  rw [departs, accepted_tasks_append, List.append_assoc, ← ordered, List.append_assoc]
  congr 1
  rcases pool_step_moves stepped with ⟨_, move, _⟩ | ⟨index, _, move, _⟩ | ⟨caller, _, move, _⟩
  · rw [(constructor_move_order move).1, (constructor_move_frame move).2.2.1,
      (constructor_move_silent move).1]
    exact (List.append_nil _).symm
  · have sound := (run_never_aborts (Run.step before trivial stepped)).1 index
    rw [worker_move_departures move sound, (worker_move_accepted move).1]
    exact (List.append_nil _).symm
  · exact caller_move_departures (run_assured before).1 move

/-- Workers hold and dispatch only tasks that they have taken. What a worker holds it
has taken in an earlier move, and it begins to dispatch what it holds. -/
theorem run_dispatches (reached : Reached pool config history) :
    (∀ index, ∀ task ∈ (workerPc config index).heldTask, task ∈ takenTasks history) ∧
      ∀ worker ticket, .dispatchBegan worker ticket ∈ history →
        ∃ task ∈ takenTasks history, ticket = task.ticket := by
  apply run_invariant (fun config history =>
    (∀ index, ∀ task ∈ (workerPc config index).heldTask, task ∈ takenTasks history) ∧
      ∀ worker ticket, .dispatchBegan worker ticket ∈ history →
        ∃ task ∈ takenTasks history, ticket = task.ticket) ?_ ?_ reached
  · refine ⟨?_, by simp⟩
    intro index task member
    cases member
  rintro config history ⟨thread, choice⟩ next events _ ⟨held, dispatched⟩ _ stepped
  have grows : takenTasks (history ++ events) = takenTasks history ++ takenTasks events :=
    List.filterMap_append
  rw [grows]
  constructor
  · intro index task member
    by_cases same : thread = .worker index
    · subst thread
      cases (worker_move_dispatch (worker_moves stepped).1).1 task member with
      | inl earlier => exact List.mem_append_left _ (held index task earlier)
      | inr taken => exact List.mem_append_right _ taken
    · have kept : workerPc next index = workerPc config index :=
        (system_step_cases stepped).2 (.worker index) (Ne.symm same)
      exact List.mem_append_left _ (held index task (kept ▸ member))
  · intro worker ticket member
    cases List.mem_append.mp member with
    | inl earlier =>
      obtain ⟨task, taken, same⟩ := dispatched worker ticket earlier
      exact ⟨task, List.mem_append_left _ taken, same⟩
    | inr now =>
      obtain rfl := pool_step_emitter stepped now rfl
      obtain ⟨task, holds, same⟩ :=
        (worker_move_dispatch (worker_moves stepped).1).2 worker ticket now
      exact ⟨task, List.mem_append_left _ (held worker task holds), same⟩

omit [DecidableEq T] in
/-- A single worker holds all that is held. -/
theorem held_tickets_single (single : pool.numWorkers = 1) (config : PoolConfig pool T)
    (index : Fin pool.numWorkers) : heldTickets config = (workerPc config index).held := by
  have only : List.finRange pool.numWorkers = [index] := by
    obtain ⟨other, whole⟩ := List.length_eq_one_iff.mp
      ((List.length_finRange (n := pool.numWorkers)).trans single)
    have same : other = index := Fin.ext (by omega)
    rw [whole, same]
  simp [heldTickets, only]

/-- With a single worker the line is a part of the accepted tickets, in order. The
line runs from the results that were popped over the hands of the worker to the
pending tasks, and with one pair of hands nobody can overtake. -/
theorem run_line (single : pool.numWorkers = 1) (reached : Reached pool config history) :
    (line config history).Sublist ((acceptedTasks history).map (·.ticket)) := by
  apply run_invariant (fun config history =>
    (line config history).Sublist ((acceptedTasks history).map (·.ticket))) ?_ ?_ reached
  · have nobody : heldTickets (fresh pool T) = [] := by
      apply List.flatMap_eq_nil_iff.mpr
      intro index _
      rfl
    have nothing : line (fresh pool T) [] = [] := by
      unfold line
      rw [nobody]
      rfl
    rw [nothing]
    exact List.nil_sublist _
  rintro config history ⟨thread, choice⟩ next events before ordered _ stepped
  have pops : popped (history ++ events) = popped history ++ popped events := List.filterMap_append
  unfold line at ordered ⊢
  rw [accepted_tasks_append, pops, List.map_append, List.map_append]
  rcases pool_step_moves stepped with ⟨_, move, others, _⟩ | ⟨index, _, move, _⟩ |
    ⟨caller, _, move, others, _⟩
  · obtain ⟨_, _, tasks, results, _⟩ := constructor_move_frame move
    rw [(constructor_move_order move).2, (constructor_move_silent move).1, tasks, results,
      held_tickets_kept others]
    simpa using ordered
  · obtain ⟨silent, moved⟩ := worker_move_line move
    rw [held_tickets_single single config index] at ordered
    rw [silent, (worker_move_accepted move).1, held_tickets_single single next index]
    have whole := (List.Sublist.refl ((popped history).map (·.ticket))).append moved
    simpa using whole.trans (by simpa using ordered)
  · have moved := caller_move_line (run_assured before).1 move (heldTickets config)
    rw [held_tickets_kept others]
    have whole := (List.Sublist.refl ((popped history).map (·.ticket))).append moved
    have longer := ordered.append (List.Sublist.refl ((acceptedTasks events).map (·.ticket)))
    simp only [List.append_assoc] at whole longer ⊢
    exact whole.trans longer

/-- Without a lossy policy, and until the pool is stopped, the line is as long as
what has been accepted: the rest of the ledger is empty. -/
theorem line_complete (reached : Reached pool config history)
    (rejects : pool.options.taskQueueOverflow = .rejectNewTask)
    (blocks : pool.options.resultQueueOverflow = .blockWorkerUntilPopped)
    (running : config.shared.stop = false) :
    (line config history).length = ((acceptedTasks history).map (·.ticket)).length := by
  obtain ⟨tasks, results, discards, _⟩ := run_losses reached
  have complete := (ledger_complete reached).length_eq
  rw [accepted_tickets reached, ← complete]
  simp only [line, ledger, tasks rejects, results blocks, discards running, List.map_nil,
    List.append_nil, List.length_append]
  omega

end Runs

/-- Order in the worker pool, for every pool and every interleaving.

Tasks are numbered by their acceptance. The pending tasks are a suffix of the
accepted ones; workers take tasks in strictly increasing order; and an evicted
task is never taken nor dispatched and is older than every pending task. With one
worker the popped and completed results, the task in flight and the pending tasks
stand in the order of acceptance; without a lossy policy and a stop they are
exactly the accepted tasks. -/
theorem pool_ordered (pool : WorkerPool) (T : Type) [DecidableEq T] (config : PoolConfig pool T)
    (history : List (Event pool.numWorkers T)) (reached : Reached pool config history) :
    (acceptedTasks history).map (·.ticket) = List.range config.shared.accepted ∧
    config.shared.tasks <:+ acceptedTasks history ∧
    ((takenTasks history).Sublist (acceptedTasks history) ∧
      ((takenTasks history).map (·.ticket)).Pairwise (· < ·)) ∧
    (∀ task ∈ evictedTasks history, task ∉ takenTasks history ∧
      (∀ worker, .dispatchBegan worker task.ticket ∉ history) ∧
      ∀ pending ∈ config.shared.tasks, task.ticket < pending.ticket) ∧
    (pool.numWorkers = 1 →
      (line config history).Sublist ((acceptedTasks history).map (·.ticket)) ∧
      (pool.options.taskQueueOverflow = .rejectNewTask →
        pool.options.resultQueueOverflow = .blockWorkerUntilPopped →
        config.shared.stop = false →
        line config history = (acceptedTasks history).map (·.ticket))) := by
  have numbered := accepted_tickets reached
  have departures := run_departures reached
  have ordered : ((departedTasks history).map (·.ticket) ++
      config.shared.tasks.map (·.ticket)).Pairwise (· < ·) := by
    rw [← List.map_append, departures, numbered]
    exact List.pairwise_lt_range
  obtain ⟨departedOrdered, _, older⟩ := List.pairwise_append.mp ordered
  have disjoint : ∀ task ∈ evictedTasks history, ∀ taken ∈ takenTasks history,
      task.ticket ≠ taken.ticket := by
    have unique : ((takenTasks history ++ evictedTasks history).map (·.ticket)).Nodup :=
      ((departed_perm history).map _).nodup_iff.mp (departedOrdered.imp Nat.ne_of_lt)
    rw [List.map_append] at unique
    intro task evicted taken member same
    have apart := (List.nodup_append.mp unique).2.2
    exact apart _ (List.mem_map_of_mem member) _ (List.mem_map_of_mem evicted) same.symm
  refine ⟨numbered, ⟨departedTasks history, departures⟩, ⟨?_, ?_⟩, ?_, ?_⟩
  · rw [← departures]
    exact (taken_departed history).trans (List.sublist_append_left _ _)
  · exact departedOrdered.sublist ((taken_departed history).map _)
  · intro task evicted
    refine ⟨fun taken => disjoint task evicted task taken rfl, ?_, ?_⟩
    · intro worker began
      obtain ⟨taken, member, same⟩ := (run_dispatches reached).2 worker task.ticket began
      exact disjoint task evicted taken member same
    · intro pending member
      have departed : task ∈ departedTasks history :=
        (departed_perm history).mem_iff.mpr (List.mem_append_right _ evicted)
      exact older _ (List.mem_map_of_mem departed) _ (List.mem_map_of_mem member)
  · intro single
    refine ⟨run_line single reached, ?_⟩
    intro rejects blocks running
    exact (run_line single reached).eq_of_length (line_complete reached rejects blocks running)

/-- The second of two submissions evicts the first task; the worker takes the second,
and never sees the first. -/
def evictingSubmissions : List (ThreadId 1 Unit × Choice 1 Unit) :=
  steps .constructor 2 ++ calls () (.trySubmit ⟨1, []⟩) 4 ++ calls () (.trySubmit ⟨2, []⟩) 4 ++
    steps (.worker soleWorker) 6

/-- Order on a run that evicts: the evicted task is not dispatched, the other one is. -/
theorem pool_ordered_evicting :
    ∃ (config : PoolConfig tightPool Unit) (history : List (Event 1 Unit)),
      Reached tightPool config history ∧ evictedTasks history = [⟨0, ⟨1, []⟩⟩] ∧
      .dispatchBegan soleWorker 1 ∈ history ∧ .dispatchBegan soleWorker 0 ∉ history := by
  obtain ⟨config, history, reached, observed⟩ :=
    replay_exhibits (poolProgram tightPool Unit).system (fresh tightPool Unit)
      (fun final => decide (evictedTasks final.2 = [⟨0, ⟨1, []⟩⟩] ∧
        .dispatchBegan soleWorker 1 ∈ final.2)) evictingSubmissions (by decide)
  obtain ⟨evicted, began⟩ := of_decide_eq_true observed
  obtain ⟨_, _, _, never, _⟩ := pool_ordered tightPool Unit config history reached
  have first : (⟨0, ⟨1, []⟩⟩ : Ticketed HandlerTask) ∈ evictedTasks history := by
    rw [evicted]
    exact List.mem_singleton.mpr rfl
  exact ⟨config, history, reached, evicted, began, (never _ first).2.1 soleWorker⟩

end TcpServer.Runtime
