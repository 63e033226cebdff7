import Mathlib.Algebra.BigOperators.Fin
import Mathlib.Algebra.Order.BigOperators.Group.Finset
import TcpServer.Transition

/-!
# Runs that come to rest

Some steps of a system spend a budget: a measure of the state that each of them
decreases, as long as an invariant holds. Runs of such steps are no longer than
the budget of their start, and can always be continued to a state at rest, where
no such step is enabled. What has been achieved at rest is then achieved by every
maximal run, whatever the order of its steps.

The budget of a program of threads is often a sum over its threads; a step changes
one summand.
-/

namespace Transition

universe u v w
variable {State : Type u} {Choice : Type v} {Event : Type w}

/-- The runs of `Run`, with the number of their steps. A bound on the number is what
termination means here. -/
inductive CountedRun (system : System State Choice Event) (allowed : State → Choice → Prop)
    (start : State) : Nat → State → List Event → Prop
  | start : CountedRun system allowed start 0 start []
  | step {count : Nat} {state next : State} {history events : List Event} {choice : Choice}
      (before : CountedRun system allowed start count state history)
      (permitted : allowed state choice)
      (stepped : system.step state choice = some (next, events)) :
      CountedRun system allowed start (count + 1) next (history ++ events)

/-- No step that meets the condition is enabled. What holds at rest is what a run
leads to in the end. -/
def AtRest (system : System State Choice Event) (allowed : State → Choice → Prop)
    (state : State) : Prop :=
  ∀ choice, allowed state choice → system.step state choice = none

/-- A budget for the steps that meet `allowed`: each of them keeps the invariant
and decreases the measure. -/
structure Budget (system : System State Choice Event) (allowed : State → Choice → Prop) where
  invariant : State → Prop
  measure : State → Nat
  kept : ∀ state choice next events, invariant state → allowed state choice →
    system.step state choice = some (next, events) → invariant next
  spent : ∀ state choice next events, invariant state → allowed state choice →
    system.step state choice = some (next, events) → measure next < measure state

variable {system : System State Choice Event} {allowed : State → Choice → Prop} {start : State}

/-- Counting changes nothing: a counted run is a run, with the same states and the
same history. -/
theorem counted_run {count : Nat} {state : State} {history : List Event}
    (run : CountedRun system allowed start count state history) :
    Run system allowed start state history := by
  induction run with
  | start => exact Run.start
  | step before permitted stepped inductionHypothesis =>
    exact Run.step inductionHypothesis permitted stepped

/-- A counted run under a condition is one under each weaker condition, with the same
number of steps. -/
theorem counted_weaken {weaker : State → Choice → Prop}
    (implies : ∀ state choice, allowed state choice → weaker state choice) {count : Nat}
    {state : State} {history : List Event}
    (run : CountedRun system allowed start count state history) :
    CountedRun system weaker start count state history := by
  induction run with
  | start => exact CountedRun.start
  | step before permitted stepped inductionHypothesis =>
    exact CountedRun.step inductionHypothesis (implies _ _ permitted) stepped

/-- Every run can be counted, since it is a finite number of steps. -/
theorem run_counted {state : State} {history : List Event}
    (run : Run system allowed start state history) :
    ∃ count, CountedRun system allowed start count state history := by
  induction run with
  | start => exact ⟨0, CountedRun.start⟩
  | step before permitted stepped inductionHypothesis =>
    obtain ⟨count, counted⟩ := inductionHypothesis
    exact ⟨count + 1, CountedRun.step counted permitted stepped⟩

/-- A budget pays for every step of a run: the steps and what is left of the budget
are no more than it was at first. Proof: by induction on the run. -/
theorem budget_spent (budget : Budget system allowed) (initial : budget.invariant start)
    {count : Nat} {state : State} {history : List Event}
    (run : CountedRun system allowed start count state history) :
    budget.invariant state ∧ count + budget.measure state ≤ budget.measure start := by
  induction run with
  | start => exact ⟨initial, (Nat.zero_add _).le⟩
  | step before permitted stepped inductionHypothesis =>
    obtain ⟨holds, within⟩ := inductionHypothesis
    have less := budget.spent _ _ _ _ holds permitted stepped
    exact ⟨budget.kept _ _ _ _ holds permitted stepped, by omega⟩

/-- Every run within a budget can be continued until it rests. Proof: by strong
induction on the budget; where a step is enabled it leaves a smaller one. -/
theorem budget_rests (budget : Budget system allowed) (initial : budget.invariant start) :
    ∃ final history, Run system allowed start final history ∧ AtRest system allowed final := by
  generalize size : budget.measure start = bound
  induction bound using Nat.strongRecOn generalizing start with
  | ind bound inductionHypothesis =>
    by_cases rests : AtRest system allowed start
    · exact ⟨start, [], Run.start, rests⟩
    · simp only [AtRest, not_forall] at rests
      obtain ⟨choice, permitted, enabled⟩ := rests
      obtain ⟨⟨next, events⟩, stepped⟩ := Option.ne_none_iff_exists'.mp enabled
      have less : budget.measure next < bound :=
        size ▸ budget.spent start choice next events initial permitted stepped
      obtain ⟨final, history, run, final_rests⟩ :=
        inductionHypothesis (budget.measure next) less
          (budget.kept start choice next events initial permitted stepped) rfl
      exact ⟨final, _, run_append (Run.step Run.start permitted stepped) run, final_rests⟩

/-- Two replays one after the other, under a condition each, and an observation of
where they end. -/
theorem replay_exhibits_continued (system : System State Choice Event)
    (allowed later : State → Choice → Prop) (start : State)
    (check checkLater : State → Choice → Bool)
    (sound : ∀ state choice, check state choice = true → allowed state choice)
    (soundLater : ∀ state choice, checkLater state choice = true → later state choice)
    (observed : (State × List Event) × (State × List Event) → Bool) (choices others : List Choice)
    (exhibited : ((replay system check (start, []) choices).bind fun reached =>
      (replay system checkLater (reached.1, []) others).map (Prod.mk reached)).any observed =
        true) :
    ∃ state history final continued, Run system allowed start state history ∧
      Run system later state final continued ∧
      observed ((state, history), (final, continued)) = true := by
  cases replayed : replay system check (start, []) choices with
  | none => simp [replayed] at exhibited
  | some reached =>
    cases again : replay system checkLater (reached.1, []) others with
    | none => simp [replayed, again] at exhibited
    | some final =>
      refine ⟨reached.1, reached.2, final.1, final.2,
        replay_run sound choices (start, []) reached Run.start replayed,
        replay_run soundLater others (reached.1, []) final Run.start again, ?_⟩
      simpa only [replayed, again, Option.bind_some, Option.map_some, Option.any_some] using
        exhibited

/-- When one summand changes, the sum changes by as much. Stated without subtraction,
as budgets are natural numbers. -/
theorem sum_exchange {ι : Type u} [Fintype ι] [DecidableEq ι] (before after : ι → Nat) (index : ι)
    (others : ∀ other, other ≠ index → after other = before other) :
    (∑ other, after other) + before index = (∑ other, before other) + after index := by
  have same : ∑ other ∈ Finset.univ.erase index, after other =
      ∑ other ∈ Finset.univ.erase index, before other := by
    refine Finset.sum_congr rfl ?_
    intro other member
    exact others other (Finset.ne_of_mem_erase member)
  rw [← Finset.add_sum_erase Finset.univ after (Finset.mem_univ index),
    ← Finset.add_sum_erase Finset.univ before (Finset.mem_univ index), same]
  omega

/-- When the other summands do not grow, the sum changes by no more than the one in
question. -/
theorem sum_exchange_le {ι : Type u} [Fintype ι] [DecidableEq ι] (before after : ι → Nat)
    (index : ι) (others : ∀ other, other ≠ index → after other ≤ before other) :
    (∑ other, after other) + before index ≤ (∑ other, before other) + after index := by
  have smaller : ∑ other ∈ Finset.univ.erase index, after other ≤
      ∑ other ∈ Finset.univ.erase index, before other := by
    refine Finset.sum_le_sum ?_
    intro other member
    exact others other (Finset.ne_of_mem_erase member)
  rw [← Finset.add_sum_erase Finset.univ after (Finset.mem_univ index),
    ← Finset.add_sum_erase Finset.univ before (Finset.mem_univ index)]
  omega

end Transition
