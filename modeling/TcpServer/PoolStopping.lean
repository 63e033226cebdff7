import Mathlib.Data.Fintype.Card
import TcpServer.PoolSafety

/-!
# Work after the stop flag

Once `shutdown` has stored the stop flag, the work that is left does not depend
on how many tasks wait. A worker that has called the dispatcher since then, or
has called it before and not yet passed the test of its result section, is on its
way out: the test discards its result and the worker returns. Only a worker in
front of its call, or between that test and its push, still has a call to make,
and afterwards it is on its way out as well.
-/

namespace TcpServer.Runtime

open Threads Transition

variable {T : Type} [DecidableEq T] {pool : WorkerPool}

/-- The worker is behind its last dispatch: with the stop flag set it goes on to
the test of its result section and returns. -/
def WorkerPc.retiring : WorkerPc → Bool
  | .dispatching _ | .resultEnter _ | .resultEvict _ _ | .resultTest _ | .resultSleep _
  | .resultWaiting _ | .resultStopTest _ _ | .returned | .aborted _ => true
  | _ => false

/-- The worker whose call of the dispatcher begins with this event, if one does. -/
def Event.begins {numWorkers : Nat} : Event numWorkers T → Option (Fin numWorkers)
  | .dispatchBegan worker _ => some worker
  | _ => none

/-- The worker that pushes a result with this event, if one does. -/
def Event.pushes {numWorkers : Nat} : Event numWorkers T → Option (Fin numWorkers)
  | .pushed worker _ => some worker
  | _ => none

/-- The workers whose calls of the dispatcher began, in order. A worker is listed once
for each call. -/
def dispatchers {numWorkers : Nat} (history : List (Event numWorkers T)) : List (Fin numWorkers) :=
  history.filterMap Event.begins

/-- The workers that pushed results, in order. A worker is listed once for each
result. -/
def pushers {numWorkers : Nat} (history : List (Event numWorkers T)) : List (Fin numWorkers) :=
  history.filterMap Event.pushes

omit [DecidableEq T] in
/-- The workers that dispatch are read off a history piece by piece, so their counts
add up. -/
theorem dispatchers_append {numWorkers : Nat} (before after : List (Event numWorkers T)) :
    dispatchers (before ++ after) = dispatchers before ++ dispatchers after :=
  List.filterMap_append

omit [DecidableEq T] in
/-- The workers that push are read off a history piece by piece in the same way. -/
theorem pushers_append {numWorkers : Nat} (before after : List (Event numWorkers T)) :
    pushers (before ++ after) = pushers before ++ pushers after :=
  List.filterMap_append

section Moves

variable {shared after : Shared pool.numWorkers T} {choice : Choice pool.numWorkers T}
  {events : List (Event pool.numWorkers T)}

omit [DecidableEq T] in
/-- The constructor neither dispatches nor pushes, and leaves the flag alone. -/
theorem constructor_move_stopping {before own : ConstructorPc}
    (move : ConstructorMove pool shared choice before after own events) :
    dispatchers events = [] ∧ pushers events = [] ∧ after.stop = shared.stop := by
  cases move <;> exact ⟨rfl, rfl, rfl⟩

/-- Nor does a caller dispatch or push. -/
theorem caller_move_stopping {caller : T} {before own : CallerPc}
    (move : CallerMove pool caller shared choice before after own events) :
    dispatchers events = [] ∧ pushers events = [] := by
  cases move with
  | @enqueue task evicted => cases evicted <;> exact ⟨rfl, rfl⟩
  | _ => exact ⟨rfl, rfl⟩

/-- The caller that stores the flag sets it. -/
theorem caller_move_stores {caller other : T} {before own : CallerPc}
    (move : CallerMove pool caller shared choice before after own events)
    (stored : .stopStored other ∈ events) : after.stop = true := by
  cases move with
  | stopFirst running => rfl
  | @enqueue task evicted => cases evicted <;> simp at stored
  | _ => simp at stored

/-- A submission that tests the flag behind the store ends there. -/
theorem caller_move_refused {caller : T} {task : HandlerTask} {own : CallerPc}
    (move : CallerMove pool caller shared choice (.submitTest task) after own events)
    (stopped : shared.stop = true) :
    events = [.submitRejected caller task] ∧ own = .idle ∧ after.tasks = shared.tasks := by
  cases move with
  | refuseStopped stop => exact ⟨rfl, rfl, rfl⟩
  | goOn running => exact absurd (stopped.symm.trans running) nofun

/-- A retiring worker stays so while the flag is set, and neither dispatches nor
pushes: the one way to a push is closed by the test of the flag. -/
theorem worker_move_retiring {index : Fin pool.numWorkers} {before own : WorkerPc}
    (move : WorkerMove pool index shared choice before after own events)
    (stopped : shared.stop = true) (retiring : before.retiring = true) :
    own.retiring = true ∧ dispatchers events = [] ∧ pushers events = [] := by
  cases move with
  | goOn running => exact absurd (stopped.symm.trans running) nofun
  | resultWait running full => exact absurd (stopped.symm.trans running) nofun
  | dispatched | lockResultsToEvict | lockResultsToWait | evict | evicted | evictAborts
  | resultReady | resultSleep | resultWake | discard => exact ⟨rfl, rfl, rfl⟩
  | _ => cases retiring

/-- A worker dispatches and pushes in its own name. -/
theorem worker_move_names {index : Fin pool.numWorkers} {before own : WorkerPc}
    (move : WorkerMove pool index shared choice before after own events) :
    (∀ other ∈ dispatchers events, other = index) ∧ ∀ other ∈ pushers events, other = index := by
  cases move <;> simp [dispatchers, pushers, Event.begins, Event.pushes]

/-- A worker that begins a dispatch retires by it. -/
theorem worker_move_dispatching {index : Fin pool.numWorkers} {before own : WorkerPc}
    (move : WorkerMove pool index shared choice before after own events) :
    dispatchers events = [] ∨
      dispatchers events = [index] ∧ before.retiring = false ∧ own.retiring = true := by
  cases move with
  | dispatch => exact Or.inr ⟨rfl, rfl, rfl⟩
  | _ => exact Or.inl rfl

end Moves

section Runs

variable {config final next : PoolConfig pool T}
  {history later events : List (Event pool.numWorkers T)}

/-- No step resets the stop flag. -/
theorem step_stop {choice : ThreadId pool.numWorkers T × Choice pool.numWorkers T}
    (stepped : (poolProgram pool T).system.step config choice = some (next, events))
    (stopped : config.shared.stop = true) : next.shared.stop = true := by
  obtain ⟨thread, choice⟩ := choice
  rcases pool_step_moves stepped with ⟨_, move, _⟩ | ⟨index, _, move, _⟩ | ⟨caller, _, move, _⟩
  · exact (constructor_move_stopping move).2.2.trans stopped
  · exact (worker_move_stop move).trans stopped
  · exact caller_move_stop move stopped

/-- Behind a store of the stop flag, the flag is set. -/
theorem stored_stopped (reached : Reached pool config history)
    (stored : ∃ caller, .stopStored caller ∈ history) : config.shared.stop = true := by
  revert stored
  apply run_invariant
    (fun config history => (∃ caller, .stopStored caller ∈ history) → config.shared.stop = true)
    _ _ reached
  · intro ⟨caller, impossible⟩
    cases impossible
  · rintro config history ⟨thread, choice⟩ next events _ inductionHypothesis _ stepped
      ⟨caller, member⟩
    rcases List.mem_append.mp member with earlier | now
    · exact step_stop stepped (inductionHypothesis ⟨caller, earlier⟩)
    · obtain rfl := pool_step_emitter stepped now rfl
      obtain ⟨move, _⟩ := caller_moves stepped
      exact caller_move_stores move now

/-- One step of the pool keeps a worker retiring and emits neither a dispatch nor
a push in its name. -/
theorem retiring_step {choice : ThreadId pool.numWorkers T × Choice pool.numWorkers T}
    {index : Fin pool.numWorkers} (stopped : config.shared.stop = true)
    (retiring : (workerPc config index).retiring = true)
    (stepped : (poolProgram pool T).system.step config choice = some (next, events)) :
    (workerPc next index).retiring = true ∧ index ∉ dispatchers events ∧
      index ∉ pushers events := by
  obtain ⟨thread, choice⟩ := choice
  rcases pool_step_moves stepped with ⟨_, move, workers, _⟩ | ⟨stepping, rfl, move, others, _⟩ |
    ⟨caller, _, move, workers, _⟩
  · obtain ⟨begun, pushed, _⟩ := constructor_move_stopping move
    rw [workers, begun, pushed]
    exact ⟨retiring, List.not_mem_nil, List.not_mem_nil⟩
  · by_cases same : index = stepping
    · subst same
      obtain ⟨kept, begun, pushed⟩ := worker_move_retiring move stopped retiring
      rw [begun, pushed]
      exact ⟨kept, List.not_mem_nil, List.not_mem_nil⟩
    · rw [others index same]
      obtain ⟨begins, pushes⟩ := worker_move_names move
      exact ⟨retiring, fun member => same (begins index member),
        fun member => same (pushes index member)⟩
  · obtain ⟨begun, pushed⟩ := caller_move_stopping move
    rw [workers, begun, pushed]
    exact ⟨retiring, List.not_mem_nil, List.not_mem_nil⟩

/-- A retiring worker stays so in every continuation, without a dispatch or a push. -/
theorem run_retiring (stopped : config.shared.stop = true) {index : Fin pool.numWorkers}
    (retiring : (workerPc config index).retiring = true)
    (continued : Reaches (poolProgram pool T).system config final later) :
    final.shared.stop = true ∧ (workerPc final index).retiring = true ∧
      index ∉ dispatchers later ∧ index ∉ pushers later := by
  apply run_invariant (fun final later => final.shared.stop = true ∧
    (workerPc final index).retiring = true ∧ index ∉ dispatchers later ∧ index ∉ pushers later)
    _ _ continued
  · exact ⟨stopped, retiring, List.not_mem_nil, List.not_mem_nil⟩
  · rintro config history ⟨thread, choice⟩ next events _ ⟨stop, retiring, begun, pushed⟩ _ stepped
    obtain ⟨kept, silent⟩ := retiring_step stop retiring stepped
    refine ⟨step_stop stepped stop, kept, ?_, ?_⟩
    · rw [dispatchers_append, List.mem_append, not_or]
      exact ⟨begun, silent.1⟩
    · rw [pushers_append, List.mem_append, not_or]
      exact ⟨pushed, silent.2⟩

/-- In every continuation of a state with the flag set, the workers whose calls
of the dispatcher began are distinct and on their way out. Induct over the run: a
worker that begins a call was not on its way out, so it is a new one. -/
theorem run_dispatchers (stopped : config.shared.stop = true)
    (continued : Reaches (poolProgram pool T).system config final later) :
    final.shared.stop = true ∧ (dispatchers later).Nodup ∧
      ∀ index ∈ dispatchers later, (workerPc final index).retiring = true := by
  apply run_invariant (fun final later => final.shared.stop = true ∧ (dispatchers later).Nodup ∧
    ∀ index ∈ dispatchers later, (workerPc final index).retiring = true) _ _ continued
  · exact ⟨stopped, List.nodup_nil, fun _ impossible => nomatch impossible⟩
  · rintro config later ⟨thread, choice⟩ next events _ ⟨stop, distinct, retired⟩ _ stepped
    refine ⟨step_stop stepped stop, ?_⟩
    rw [dispatchers_append]
    have still (index) (member : index ∈ dispatchers later) :
        (workerPc next index).retiring = true :=
      (retiring_step stop (retired index member) stepped).1
    rcases pool_step_moves stepped with ⟨_, move, workers, _⟩ | ⟨index, _, move, others, _⟩ |
      ⟨caller, _, move, workers, _⟩
    · rw [(constructor_move_stopping move).1, List.append_nil]
      exact ⟨distinct, still⟩
    · rcases worker_move_dispatching move with silent | ⟨begun, before, behind⟩
      · rw [silent, List.append_nil]
        exact ⟨distinct, still⟩
      · have fresh : index ∉ dispatchers later := by
          intro member
          exact absurd ((retired index member).symm.trans before) nofun
        rw [begun]
        constructor
        · rw [List.nodup_append]
          refine ⟨distinct, List.nodup_singleton index, ?_⟩
          intro other member new added same
          rw [List.mem_singleton.mp added] at same
          exact fresh (same ▸ member)
        · intro other member
          rcases List.mem_append.mp member with earlier | now
          · exact still other earlier
          · rw [List.mem_singleton.mp now]
            exact behind
    · rw [(caller_move_stopping move).1, List.append_nil]
      exact ⟨distinct, still⟩

/-- A caller whose test of the flag comes after the store is refused, and the
queue of tasks stays as it is. -/
theorem stopped_submission (stopped : config.shared.stop = true) {caller : T}
    {task : HandlerTask} (testing : callerPc config caller = .submitTest task)
    {choice : Choice pool.numWorkers T}
    (stepped : (poolProgram pool T).system.step config (.caller caller, choice) =
      some (next, events)) :
    events = [.submitRejected caller task] ∧ callerPc next caller = .idle ∧
      next.shared.tasks = config.shared.tasks := by
  obtain ⟨move, _⟩ := caller_moves stepped
  rw [testing] at move
  exact caller_move_refused move stopped

end Runs

/-- Work after `shutdown` has stored the stop flag is bounded, for every pool and
every interleaving. In every continuation each worker begins at most one call of
the dispatcher, so all of them together at most as many as there are workers; each
submission that tests the flag is refused and leaves the queue alone; and a worker
that tests the flag in its result section does not push any more. -/
theorem bounded_after_stop (pool : WorkerPool) (T : Type) [DecidableEq T]
    (config : PoolConfig pool T) (history : List (Event pool.numWorkers T))
    (reached : Reached pool config history) (stored : ∃ caller, .stopStored caller ∈ history)
    (final : PoolConfig pool T) (later : List (Event pool.numWorkers T))
    (continued : Reaches (poolProgram pool T).system config final later) :
    (∀ index, (dispatchers later).count index ≤ 1) ∧
    (dispatchers later).length ≤ pool.numWorkers ∧
    (∀ caller task, callerPc final caller = .submitTest task → ∀ choice next events,
      (poolProgram pool T).system.step final (.caller caller, choice) = some (next, events) →
      events = [.submitRejected caller task] ∧ callerPc next caller = .idle ∧
        next.shared.tasks = final.shared.tasks) ∧
    (∀ index done madeRoom, workerPc final index = .resultStopTest done madeRoom →
      ∀ last more, Reaches (poolProgram pool T).system final last more →
        index ∉ pushers more) := by
  have stopped := stored_stopped reached stored
  obtain ⟨stop, distinct, _⟩ := run_dispatchers stopped continued
  refine ⟨?_, ?_, ?_, ?_⟩
  · exact List.nodup_iff_count_le_one.mp distinct
  · have size := distinct.length_le_card
    rw [Fintype.card_fin] at size
    exact size
  · intro caller task testing choice next events stepped
    exact stopped_submission stop testing stepped
  · intro index done madeRoom testing last more further
    have retiring : (workerPc final index).retiring = true := by
      rw [testing]
      rfl
    exact (run_retiring stop retiring further).2.2.2

/-- A task is enqueued, then the flag is stored while the worker has not started. The
worker still takes the task. -/
def stoppedWithTask : List (ThreadId 1 Unit × Choice 1 Unit) :=
  steps .constructor 2 ++ calls () (.trySubmit ⟨1, []⟩) 4 ++ calls () .shutdown 1

/-- The bounds in the continuations of such a run, where a task waits. -/
theorem bounded_after_stop_pending :
    ∃ (config : PoolConfig tightPool Unit) (history : List (Event 1 Unit)),
      Reached tightPool config history ∧ config.shared.tasks ≠ [] ∧
      ∀ (final : PoolConfig tightPool Unit) (later : List (Event 1 Unit)),
        Reaches (poolProgram tightPool Unit).system config final later →
        (dispatchers later).length ≤ 1 := by
  obtain ⟨config, history, reached, observed⟩ :=
    replay_exhibits (poolProgram tightPool Unit).system (fresh tightPool Unit)
      (fun final => decide (final.1.shared.tasks ≠ [] ∧ .stopStored () ∈ final.2)) stoppedWithTask
      (by decide)
  obtain ⟨pending, stored⟩ := of_decide_eq_true observed
  refine ⟨config, history, reached, pending, ?_⟩
  intro final later continued
  exact (bounded_after_stop tightPool Unit config history reached ⟨(), stored⟩ final later
    continued).2.1

end TcpServer.Runtime
