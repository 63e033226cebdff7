import Mathlib.Logic.Function.Basic

/-!
# Transition systems with a recorded history

A step is a partial function of the state and of one choice, which holds all
that the state leaves open: the scheduled thread, the answer of a kernel, the
thread a notification wakes. A step may emit events. The history of a run is
the sequence of its events. It is kept beside the state and is never an
argument of the step function, so an account read from it cannot influence a run.

A run may be restricted by a condition on each step, stated on the state before
it. The unrestricted runs are the case of the condition that always holds.
-/

namespace Transition

universe u v w
variable {State : Type u} {Choice : Type v} {Event : Type w}

/-- An executable labelled step; `none` means that the step is not enabled. The choice
stands for everything that the environment decides. -/
structure System (State : Type u) (Choice : Type v) (Event : Type w) where
  step : State → Choice → Option (State × List Event)

/-- The states that steps meeting `allowed` reach from `start`, each with the
history of the run that reaches it. -/
inductive Run (system : System State Choice Event) (allowed : State → Choice → Prop)
    (start : State) : State → List Event → Prop
  | start : Run system allowed start start []
  | step {state next : State} {history events : List Event} {choice : Choice}
      (before : Run system allowed start state history) (permitted : allowed state choice)
      (stepped : system.step state choice = some (next, events)) :
      Run system allowed start next (history ++ events)

/-- Every run, with no condition on its steps. The history is what the steps have
told, in order. -/
def Reaches (system : System State Choice Event) (start : State) : State → List Event → Prop :=
  Run system (fun _ _ => True) start

variable {system : System State Choice Event} {allowed : State → Choice → Prop} {start : State}

/-- An inductive invariant of state and history holds along every run: induct
over the run and apply the step obligation at its last step. The obligation may
use that the state before the step is reached, and so every invariant known already. -/
theorem run_invariant (invariant : State → List Event → Prop)
    (initial : invariant start [])
    (preserved : ∀ state history choice next events, Run system allowed start state history →
      invariant state history → allowed state choice →
      system.step state choice = some (next, events) → invariant next (history ++ events))
    {state : State} {history : List Event} (run : Run system allowed start state history) :
    invariant state history := by
  induction run with
  | start => exact initial
  | step before permitted stepped inductionHypothesis =>
    exact preserved _ _ _ _ _ before inductionHypothesis permitted stepped

/-- A run under a condition is a run under each weaker condition, with the same
history. -/
theorem run_weaken {weaker : State → Choice → Prop}
    (implies : ∀ state choice, allowed state choice → weaker state choice)
    {state : State} {history : List Event} (run : Run system allowed start state history) :
    Run system weaker start state history := by
  induction run with
  | start => exact Run.start
  | step before permitted stepped inductionHypothesis =>
    exact Run.step inductionHypothesis (implies _ _ permitted) stepped

/-- Restricted runs are runs, so what holds of every run holds of them. -/
theorem run_reaches {state : State} {history : List Event}
    (run : Run system allowed start state history) : Reaches system start state history :=
  run_weaken (fun _ _ _ => trivial) run

/-- Runs compose and their histories concatenate. Proof: by induction on the second
run. -/
theorem run_append {middle final : State} {before after : List Event}
    (first : Run system allowed start middle before)
    (second : Run system allowed middle final after) :
    Run system allowed start final (before ++ after) := by
  induction second with
  | start => simpa only [List.append_nil] using first
  | step continued permitted stepped inductionHypothesis =>
    rw [← List.append_assoc]
    exact Run.step inductionHypothesis permitted stepped

/-- One enabled step extends an unrestricted run, whatever its choice. -/
theorem reaches_step {state next : State} {history events : List Event} {choice : Choice}
    (reached : Reaches system start state history)
    (stepped : system.step state choice = some (next, events)) :
    Reaches system start next (history ++ events) :=
  Run.step reached trivial stepped

/-- Each event of the history meets a condition on the events before it. This is how
laws about the order of events are stated. -/
def Justified (condition : List Event → Event → Prop) (history : List Event) : Prop :=
  ∀ earlier event later, history = earlier ++ event :: later → condition earlier event

/-- The empty history has no event to justify. -/
theorem justified_nil (condition : List Event → Event → Prop) : Justified condition [] := by
  intro earlier event later split
  simp at split

/-- A longer history stays justified when the new events are, each in view of the old
ones and of those before it. -/
theorem justified_append {condition : List Event → Event → Prop} {history events : List Event}
    (justified : Justified condition history)
    (added : ∀ earlier event later, events = earlier ++ event :: later →
      condition (history ++ earlier) event) :
    Justified condition (history ++ events) := by
  intro earlier event later split
  rcases List.append_eq_append_iff.mp split with ⟨middle, before, behind⟩ | ⟨middle, before, behind⟩
  · rw [before]
    exact added middle event later behind
  · cases middle with
    | nil =>
      rw [List.append_nil] at before
      have first := added [] event later behind.symm
      rwa [List.append_nil, before] at first
    | cons first rest =>
      obtain ⟨rfl, _⟩ := List.cons.inj behind
      exact justified earlier event rest before

/-- A history stays justified with one more event when that event is. This is the case
of most steps. -/
theorem justified_concat {condition : List Event → Event → Prop} {history : List Event}
    {event : Event} (justified : Justified condition history) (added : condition history event) :
    Justified condition (history ++ [event]) := by
  apply justified_append justified
  intro earlier other later split
  cases earlier with
  | nil =>
    obtain ⟨rfl, _⟩ := List.cons.inj split
    rwa [List.append_nil]
  | cons first rest => simp at split

/-- What a justified history says of its last event and of the events before it. It is
the converse of adding one. -/
theorem justified_of_concat {condition : List Event → Event → Prop} {history : List Event}
    {event : Event} (justified : Justified condition (history ++ [event])) :
    Justified condition history ∧ condition history event := by
  refine ⟨?_, justified history event [] rfl⟩
  rintro earlier other later rfl
  exact justified earlier other (later ++ [event]) (by simp)

/-- A system whose steps decrease a measure reaches a state where no step is
enabled, from every state. -/
theorem terminates_of_measure (system : System State Choice Event) (measure : State → Nat)
    (decreases : ∀ state choice next events, system.step state choice = some (next, events) →
      measure next < measure state) (start : State) :
    ∃ final history, Reaches system start final history ∧
      ∀ choice, system.step final choice = none := by
  generalize size : measure start = bound
  induction bound using Nat.strongRecOn generalizing start with
  | ind bound inductionHypothesis =>
    by_cases stuck : ∀ choice, system.step start choice = none
    · exact ⟨start, [], Run.start, stuck⟩
    · obtain ⟨choice, enabled⟩ := not_forall.mp stuck
      obtain ⟨⟨next, events⟩, stepped⟩ := Option.ne_none_iff_exists'.mp enabled
      obtain ⟨final, history, reached, done⟩ :=
        inductionHypothesis (measure next) (size ▸ decreases start choice next events stepped) next
          rfl
      exact ⟨final, _, run_append (reaches_step Run.start stepped) reached, done⟩

/-- Replay a finite list of choices, extending a state and its history. Every
choice must be enabled and pass `check` in the state before it. -/
def replay (system : System State Choice Event) (check : State → Choice → Bool) :
    State × List Event → List Choice → Option (State × List Event)
  | reached, [] => some reached
  | reached, choice :: rest =>
      if check reached.1 choice then
        match system.step reached.1 choice with
        | none => none
        | some (next, events) => replay system check (next, reached.2 ++ events) rest
      else none

/-- A replay that succeeds from a reached state ends in a reached state. Proof: by
induction on the choices, each of which is checked. -/
theorem replay_run {check : State → Choice → Bool}
    (sound : ∀ state choice, check state choice = true → allowed state choice)
    (choices : List Choice) (reached final : State × List Event)
    (origin : Run system allowed start reached.1 reached.2)
    (replayed : replay system check reached choices = some final) :
    Run system allowed start final.1 final.2 := by
  induction choices generalizing reached with
  | nil =>
    have same : reached = final := Option.some.inj replayed
    exact same ▸ origin
  | cons choice rest inductionHypothesis =>
    by_cases passed : check reached.1 choice = true
    · cases stepped : system.step reached.1 choice with
      | none => simp [replay, passed, stepped] at replayed
      | some result =>
        obtain ⟨next, events⟩ := result
        simp only [replay, passed, stepped, ↓reduceIte] at replayed
        exact inductionHypothesis (next, reached.2 ++ events)
          (Run.step origin (sound _ _ passed) stepped) replayed
    · simp [replay, passed] at replayed

/-- A decidable observation of the end of a replay is an observation of some
state reached under the checked condition. One concrete schedule exhibits it. -/
theorem replay_exhibits_under (system : System State Choice Event) (start : State)
    (check : State → Choice → Bool)
    (sound : ∀ state choice, check state choice = true → allowed state choice)
    (observed : State × List Event → Bool) (choices : List Choice)
    (exhibited : (replay system check (start, []) choices).any observed = true) :
    ∃ state history, Run system allowed start state history ∧ observed (state, history) = true := by
  cases replayed : replay system check (start, []) choices with
  | none => simp [replayed] at exhibited
  | some final =>
    refine ⟨final.1, final.2, replay_run sound choices (start, []) final Run.start replayed, ?_⟩
    simpa only [replayed, Option.any_some] using exhibited

/-- A replay without a condition shows that a state with the observed property is
reached. -/
theorem replay_exhibits (system : System State Choice Event) (start : State)
    (observed : State × List Event → Bool) (choices : List Choice)
    (exhibited :
      (replay system (fun _ _ => true) (start, []) choices).any observed = true) :
    ∃ state history, Reaches system start state history ∧ observed (state, history) = true :=
  replay_exhibits_under system start (fun _ _ => true) (fun _ _ _ => trivial) observed choices
    exhibited

end Transition
