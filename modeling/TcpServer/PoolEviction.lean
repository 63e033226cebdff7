import TcpServer.PoolSafety

/-!
# Eviction of completed results

Under `DropOldestCompletedResult` a worker evicts to make room for its own
result. Between the eviction and the push it tests the stop flag, and the flag
is stored without its mutex. A result section that has evicted therefore ends
with a push exactly when the flag is not set at that test.
-/

namespace TcpServer.Runtime

open Monitors Threads Transition

variable {T : Type} [DecidableEq T] {pool : WorkerPool}

/-- Whether a worker has evicted and not pushed since, after one more event. The
events of other workers do not count. -/
def owesAfter {numWorkers : Nat} (index : Fin numWorkers) (owing : Bool) :
    Event numWorkers T → Bool
  | .resultEvicted worker _ => if worker = index then true else owing
  | .pushed worker _ => if worker = index then false else owing
  | _ => owing

/-- A worker has evicted a result and not pushed its own since, as the history tells.
It is what the worker owes the queue. -/
def owes {numWorkers : Nat} (index : Fin numWorkers) (history : List (Event numWorkers T)) :
    Bool :=
  history.foldl (owesAfter index) false

/-- Each result section that has evicted has pushed before it is left: no worker
releases `result_mutex_` at the end of the section while it owes a result. -/
def EvictionsReplaced {numWorkers : Nat} (history : List (Event numWorkers T)) : Prop :=
  ∀ index before after, history = before ++ .resultSectionLeft index :: after →
    owes index before = false

/-- The condition on one step: a worker that has evicted finds the pool running
when it tests the stop flag. -/
def RunningAfterEviction (config : PoolConfig pool T)
    (choice : ThreadId pool.numWorkers T × Choice pool.numWorkers T) : Prop :=
  ∀ index done, choice.1 = .worker index → workerPc config index = .resultStopTest done true →
    config.shared.stop = false

/-- Whether the result section that a worker is in has evicted, as its place tells. -/
def WorkerPc.madeRoom : WorkerPc → Bool
  | .resultEvict _ madeRoom | .resultStopTest _ madeRoom | .resultPush _ madeRoom => madeRoom
  | _ => false

/-- A worker that still makes moves: it has not returned, and no assert of it has
failed. -/
def WorkerPc.active : WorkerPc → Bool
  | .returned | .aborted _ => false
  | _ => true

omit [DecidableEq T] in
/-- Later events update what a worker owes. -/
theorem owes_append {numWorkers : Nat} (index : Fin numWorkers)
    (history events : List (Event numWorkers T)) :
    owes index (history ++ events) = events.foldl (owesAfter index) (owes index history) :=
  List.foldl_append

omit [DecidableEq T] in
/-- New events keep the property when each section left among them has pushed. -/
theorem evictions_replaced_append {numWorkers : Nat} {history events : List (Event numWorkers T)}
    (replaced : EvictionsReplaced history)
    (sections : ∀ index earlier later, events = earlier ++ .resultSectionLeft index :: later →
      owes index (history ++ earlier) = false) :
    EvictionsReplaced (history ++ events) := by
  have justified : Justified (fun before event => ∀ index, event = .resultSectionLeft index →
      owes index before = false) (history ++ events) := by
    apply justified_append
    · rintro before event after split index rfl
      exact replaced index before after split
    · rintro earlier event later split index rfl
      exact sections index earlier later split
  intro index before after split
  exact justified before _ after split index rfl

section Moves

variable {shared after : Shared pool.numWorkers T} {choice : Choice pool.numWorkers T}
  {events : List (Event pool.numWorkers T)}

/-- A worker's move keeps the account of what it owes, as long as it is active. -/
theorem worker_move_owes {index : Fin pool.numWorkers} {before own : WorkerPc}
    (move : WorkerMove pool index shared choice before after own events) :
    before.active = true ∧
      (own.active = true → events.foldl (owesAfter index) before.madeRoom = own.madeRoom) := by
  cases move with
  | leave | discard | takeAborts | evictAborts | pushAborts => exact ⟨rfl, nofun⟩
  | evict | push => exact ⟨rfl, fun _ => by simp [owesAfter, WorkerPc.madeRoom]⟩
  | _ => exact ⟨rfl, fun _ => rfl⟩

omit [DecidableEq T] in
/-- The events of other threads do not change what a worker owes. -/
theorem owes_kept {index : Fin pool.numWorkers}
    (others : ∀ event ∈ events, event.emitter ≠ some (.worker index)) (owing : Bool) :
    events.foldl (owesAfter index) owing = owing := by
  induction events generalizing owing with
  | nil => rfl
  | cons event rest inductionHypothesis =>
    have stays : owesAfter index owing event = owing := by
      have different := others event List.mem_cons_self
      cases event with
      | resultEvicted worker | pushed worker =>
        have apart : worker ≠ index := fun same => different (by rw [same]; rfl)
        simp [owesAfter, apart]
      | _ => rfl
    rw [List.foldl_cons, stays]
    exact inductionHypothesis (fun event member => others event (List.mem_cons_of_mem _ member))
      owing

omit [DecidableEq T] in
/-- The section left at the end of two events is left behind the first of them. -/
theorem section_left_behind {numWorkers : Nat} {index : Fin numWorkers}
    {event : Event numWorkers T} {earlier later : List (Event numWorkers T)}
    (inside : event ≠ .resultSectionLeft index)
    (split : [event, .resultSectionLeft index] = earlier ++ .resultSectionLeft index :: later) :
    earlier = [event] := by
  cases earlier with
  | nil => exact absurd (List.cons.inj split).1 inside
  | cons first rest =>
    cases rest with
    | nil =>
      rw [(List.cons.inj split).1]
    | cons second others =>
      have size := congrArg List.length split
      simp at size

/-- A result section is left behind a push, or behind a stop test that saw the flag. -/
theorem worker_move_section {index : Fin pool.numWorkers} {before own : WorkerPc}
    (move : WorkerMove pool index shared choice before after own events)
    {earlier later : List (Event pool.numWorkers T)}
    (split : events = earlier ++ .resultSectionLeft index :: later) :
    (∃ done, earlier = [.pushed index done]) ∨
      ∃ done madeRoom, before = .resultStopTest done madeRoom ∧ shared.stop = true ∧
        earlier = [.discarded index done] := by
  have member : .resultSectionLeft index ∈ events := by
    rw [split]
    simp
  cases move with
  | @discard done madeRoom stopped =>
    obtain rfl := section_left_behind (by simp) split
    exact Or.inr ⟨done, madeRoom, rfl, stopped, rfl⟩
  | @push done madeRoom room =>
    obtain rfl := section_left_behind (by simp) split
    exact Or.inl ⟨done, rfl⟩
  | _ => simp at member

end Moves

section Runs

variable {config : PoolConfig pool T} {history : List (Event pool.numWorkers T)}

/-- In every run an active worker owes a result exactly while the section that it
is in has evicted. -/
theorem run_owes
    {allowed : PoolConfig pool T → ThreadId pool.numWorkers T × Choice pool.numWorkers T → Prop}
    (run : Run (poolProgram pool T).system allowed (fresh pool T) config history)
    (index : Fin pool.numWorkers) (active : (workerPc config index).active = true) :
    owes index history = (workerPc config index).madeRoom := by
  refine run_invariant (fun config history => ∀ index, (workerPc config index).active = true →
    owes index history = (workerPc config index).madeRoom) ?_ ?_ run index active
  · intro index _
    rfl
  · rintro config history ⟨thread, choice⟩ next events _ account _ stepped index active
    rw [owes_append]
    by_cases same : thread = .worker index
    · subst thread
      obtain ⟨was, own⟩ := worker_move_owes (worker_moves stepped).1
      rw [account index was]
      exact own active
    · have kept : workerPc next index = workerPc config index :=
        (system_step_cases stepped).2 (.worker index) (Ne.symm same)
      rw [owes_kept (fun _ member named => same (pool_step_emitter stepped member named))]
      rw [kept] at active ⊢
      exact account index active

/-- In every run that meets the condition evictions are replaced. -/
theorem run_evictions_replaced
    (run : Run (poolProgram pool T).system RunningAfterEviction (fresh pool T) config history) :
    EvictionsReplaced history := by
  refine run_invariant (fun _ history => EvictionsReplaced history) ?_ ?_ run
  · intro index before after split
    simp at split
  · rintro config history ⟨thread, choice⟩ next events before replaced permitted stepped
    refine evictions_replaced_append replaced ?_
    intro left earlier later split
    have leaves : .resultSectionLeft left ∈ events := by
      rw [split]
      simp
    obtain rfl := pool_step_emitter stepped leaves rfl
    rw [owes_append]
    rcases worker_move_section (worker_moves stepped).1 split with
      ⟨done, rfl⟩ | ⟨done, madeRoom, standing, stopped, rfl⟩
    · simp [owesAfter]
    · have account := run_owes before left (by rw [standing]; rfl)
      rw [standing] at account
      cases madeRoom with
      | false => exact account
      | true =>
        have running := permitted left done rfl standing
        exact absurd (stopped.symm.trans running) nofun

end Runs

/-- The exact condition under which a completed result is evicted only for a newer one.

Sufficiency: in every run in which each worker that has evicted finds the pool
running at its stop test, every result section that has evicted pushes before it
is left. Necessity: a stop test that breaks the condition, in any reached state,
leaves the section without a push. -/
theorem evictions_replaced_exact (pool : WorkerPool) (T : Type) [DecidableEq T] :
    (∀ (config : PoolConfig pool T) (history : List (Event pool.numWorkers T)),
      Run (poolProgram pool T).system RunningAfterEviction (fresh pool T) config history →
        EvictionsReplaced history) ∧
    (∀ (config next : PoolConfig pool T) (history events : List (Event pool.numWorkers T))
      (choice : ThreadId pool.numWorkers T × Choice pool.numWorkers T),
      Reached pool config history → ¬ RunningAfterEviction config choice →
        (poolProgram pool T).system.step config choice = some (next, events) →
        ¬ EvictionsReplaced (history ++ events)) := by
  refine ⟨fun config history run => run_evictions_replaced run, ?_⟩
  rintro config next history events ⟨thread, choice⟩ reached violated stepped replaced
  simp only [RunningAfterEviction, not_forall, Bool.not_eq_false] at violated
  obtain ⟨index, done, rfl, standing, stopped⟩ := violated
  have account := run_owes reached index (by rw [standing]; rfl)
  rw [standing] at account
  have emitted : events = [.discarded index done, .resultSectionLeft index] := by
    have move := (worker_moves stepped).1
    generalize workerPc next index = own at move
    rw [standing] at move
    generalize next.shared = after at move
    cases move with
    | discard again => rfl
    | goOn running => exact absurd (stopped.symm.trans running) nofun
  have kept := replaced index (history ++ [.discarded index done]) [] (by simp [emitted])
  rw [owes_append] at kept
  exact absurd (account.symm.trans kept) nofun

/-- The condition for the one worker of the runs below, so that they can be replayed.
-/
def runningAfterEviction (config : PoolConfig tightPool Unit) : Bool :=
  match workerPc config soleWorker with
  | .resultStopTest _ true => !config.shared.stop
  | _ => true

/-- The check of the condition is right. -/
theorem running_after_eviction_sound (config : PoolConfig tightPool Unit)
    (choice : ThreadId 1 Unit × Choice 1 Unit) (passed : runningAfterEviction config = true) :
    RunningAfterEviction config choice := by
  intro index done _ standing
  rw [sole_worker index] at standing
  simpa [runningAfterEviction, standing] using passed

/-- The worker completes two tasks; the second result replaces the first. -/
def replacedResult : List (ThreadId 1 Unit × Choice 1 Unit) :=
  steps .constructor 2 ++ calls () (.trySubmit ⟨1, []⟩) 4 ++ steps (.worker soleWorker) 12 ++
    calls () (.trySubmit ⟨2, []⟩) 4 ++ steps (.worker soleWorker) 11

/-- A run that meets the condition, in which an evicted result is replaced. -/
theorem evictions_replaced_once :
    ∃ (config : PoolConfig tightPool Unit) (history : List (Event 1 Unit)),
      Run (poolProgram tightPool Unit).system RunningAfterEviction (fresh tightPool Unit) config
        history ∧
      .resultEvicted soleWorker ⟨0, ⟨1, .ok []⟩⟩ ∈ history ∧
      config.shared.results = [⟨1, ⟨2, .ok []⟩⟩] ∧ EvictionsReplaced history := by
  obtain ⟨config, history, run, observed⟩ :=
    replay_exhibits_under (poolProgram tightPool Unit).system (fresh tightPool Unit)
      (fun config _ => runningAfterEviction config)
      (fun config choice passed => running_after_eviction_sound config choice passed)
      (fun final => decide (.resultEvicted soleWorker ⟨0, ⟨1, .ok []⟩⟩ ∈ final.2 ∧
        final.1.shared.results = [⟨1, ⟨2, .ok []⟩⟩])) replacedResult (by decide)
  obtain ⟨evicted, results⟩ := of_decide_eq_true observed
  exact ⟨config, history, run, evicted, results,
    (evictions_replaced_exact tightPool Unit).1 config history run⟩

/-- The worker completes one task, evicts its result for that of a second task, and
finds the stop flag set before it pushes. -/
def evictedAtShutdown : List (ThreadId 1 Unit × Choice 1 Unit) :=
  steps .constructor 2 ++ calls () (.trySubmit ⟨1, []⟩) 4 ++ steps (.worker soleWorker) 12 ++
    calls () (.trySubmit ⟨2, []⟩) 4 ++ steps (.worker soleWorker) 9 ++ calls () .shutdown 1 ++
    steps (.worker soleWorker) 1

/-- A completed result can disappear while shutdown is in progress without a newer
one taking its place. -/
theorem evictions_not_always_replaced :
    ¬ ∀ (config : PoolConfig tightPool Unit) (history : List (Event 1 Unit)),
      Reached tightPool config history → EvictionsReplaced history := by
  intro always
  obtain ⟨config, history, reached, observed⟩ :=
    replay_exhibits (poolProgram tightPool Unit).system (fresh tightPool Unit)
      (fun final => decide (owes soleWorker final.2.dropLast = true ∧
        final.2 = final.2.dropLast ++ [.resultSectionLeft soleWorker] ∧
        final.1.shared.results = [])) evictedAtShutdown (by decide)
  obtain ⟨owing, last, _⟩ := of_decide_eq_true observed
  have kept := always config history reached soleWorker history.dropLast [] last
  exact absurd (owing.symm.trans kept) nofun

end TcpServer.Runtime
