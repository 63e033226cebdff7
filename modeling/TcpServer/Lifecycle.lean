import TcpServer.Threads

/-!
# The shutdown coordinator

`ShutdownCoordinator` keeps one atomic phase. Every member function is a short
sequence of loads, compare-exchanges and asserts on it, and any number of
threads may call any of them. Each atomic access is one step, together with the
local tests that follow it; the load inside an `assert` is a step of its own.

A failed assert leaves its thread in `aborted`. Atomic accesses are
sequentially consistent here: all of them are to one variable, whose values have
one modification order under any memory order.

The build with `NDEBUG` has no asserts, and so fewer loads. What an access can do
is stated once for both builds; everything else about their steps follows from it.
-/

namespace TcpServer.Lifecycle

open Transition Threads

universe u
variable {ι : Type u}

/-- The phases of a shutdown, in the order in which they may follow each other. None
is ever left out. -/
inductive ShutdownPhase where
  | running
  | draining
  | stopped
deriving DecidableEq, Repr

/-- The value `should_accept_new_connections` computes from a loaded phase, which may
have changed by then. -/
def shouldAcceptNewConnections (phase : ShutdownPhase) : Bool := phase == .running

/-- The value `should_poll_network` computes from a loaded phase, which may have
changed by then. -/
def shouldPollNetwork (phase : ShutdownPhase) : Bool := phase != .stopped

/-- The arguments of `try_advance_to_stopped_if_drained`: what the caller says of its
server. The coordinator does not check it. -/
structure DrainReport where
  listenerStopped : Bool
  activeConnectionCount : Nat
  anyConnectionHasPendingWrites : Bool
deriving DecidableEq, Repr

/-- The test that lets `try_advance_to_stopped_if_drained` go on to its CAS. All three
parts must be favourable. -/
def DrainReport.drained (report : DrainReport) : Bool :=
  !(!report.listenerStopped || decide (report.activeConnectionCount > 0) ||
    report.anyConnectionHasPendingWrites)

/-- The three asserts on the arguments restate the test just passed. -/
theorem drained_iff (report : DrainReport) : report.drained = true ↔
    report.listenerStopped = true ∧ report.activeConnectionCount = 0 ∧
      report.anyConnectionHasPendingWrites = false := by
  simp [DrainReport.drained, and_assoc]

/-- The calls on the coordinator, with their arguments. The two predicates are made of
the second. -/
inductive Call where
  | requestShutdown
  | phase
  | tryAdvanceToStoppedIfDrained (report : DrainReport)
deriving DecidableEq, Repr

/-- What the code leaves open: the call an idle thread makes, and whether a
weak compare-exchange fails without cause. -/
structure Choice where
  call : Option Call := none
  failsSpuriously : Bool := false

/-- Where a thread stands between two atomic accesses, with what it needs for the next
one. -/
inductive Local where
  | idle
  | requestLoad
  | requestCas
  | requestAssert
  | phaseLoad
  | advanceLoad (report : DrainReport)
  | advanceAssert (report : DrainReport)
  | advanceCas (report : DrainReport)
  | advanceFinal
  | aborted
deriving DecidableEq, Repr

/-- What the threads tell: the returns of their calls, and the writes of the phase. -/
inductive Event (ι : Type u) where
  | requestReturned (thread : ι)
  | phaseReturned (thread : ι) (phase : ShutdownPhase)
  | advanceLoaded (thread : ι) (phase : ShutdownPhase)
  | storedDraining (thread : ι)
  | storedStopped (thread : ι) (report : DrainReport)

/-- One atomic access of `phase_`, with the local control flow up to the next. The
weak CAS of a request may fail without a reason. -/
def step (thread : ι) (phase : ShutdownPhase) :
    Local → Choice → Option (ShutdownPhase × Local × List (Event ι))
  | .idle, choice =>
      match choice.call with
      | none => none
      | some .requestShutdown => some (phase, .requestLoad, [])
      | some .phase => some (phase, .phaseLoad, [])
      | some (.tryAdvanceToStoppedIfDrained report) => some (phase, .advanceLoad report, [])
  | .requestLoad, _ =>
      if phase ≠ .running then some (phase, .idle, [.requestReturned thread])
      else some (phase, .requestCas, [])
  | .requestCas, choice =>
      if phase = .running ∧ choice.failsSpuriously = false then
        some (.draining, .requestAssert, [.storedDraining thread])
      else some (phase, .requestLoad, [])
  | .requestAssert, _ =>
      if phase = .draining then some (phase, .idle, [.requestReturned thread])
      else some (phase, .aborted, [])
  | .phaseLoad, _ => some (phase, .idle, [.phaseReturned thread phase])
  | .advanceLoad report, _ =>
      if phase ≠ .draining then some (phase, .idle, [.advanceLoaded thread phase])
      else if report.drained then some (phase, .advanceAssert report, [.advanceLoaded thread phase])
      else some (phase, .idle, [.advanceLoaded thread phase])
  | .advanceAssert report, _ =>
      if phase = .draining ∧ report.listenerStopped = true ∧ report.activeConnectionCount = 0 ∧
          report.anyConnectionHasPendingWrites = false then
        some (phase, .advanceCas report, [])
      else some (phase, .aborted, [])
  | .advanceCas report, _ =>
      if phase = .draining then some (.stopped, .advanceFinal, [.storedStopped thread report])
      else some (phase, .advanceFinal, [])
  | .advanceFinal, _ =>
      if phase = .stopped then some (phase, .idle, []) else some (phase, .aborted, [])
  | .aborted, _ => none

/-- The coordinator as a program over its atomic phase, for any set of threads. -/
def coordinator (ι : Type u) : Program ι (fun _ => Local) ShutdownPhase Choice (Event ι) where
  step := step

/-- Whether the asserts are compiled in. With them there are more loads of the phase.
-/
inductive Build where
  | debug
  | release
deriving DecidableEq, Repr

/-- The coordinator without its asserts: each CAS is the last access of its call. The
rest is as in the other build. -/
def releaseStep (thread : ι) (phase : ShutdownPhase) :
    Local → Choice → Option (ShutdownPhase × Local × List (Event ι))
  | .idle, choice =>
      match choice.call with
      | none => none
      | some .requestShutdown => some (phase, .requestLoad, [])
      | some .phase => some (phase, .phaseLoad, [])
      | some (.tryAdvanceToStoppedIfDrained report) => some (phase, .advanceLoad report, [])
  | .requestLoad, _ =>
      if phase ≠ .running then some (phase, .idle, [.requestReturned thread])
      else some (phase, .requestCas, [])
  | .requestCas, choice =>
      if phase = .running ∧ choice.failsSpuriously = false then
        some (.draining, .idle, [.storedDraining thread, .requestReturned thread])
      else some (phase, .requestLoad, [])
  | .phaseLoad, _ => some (phase, .idle, [.phaseReturned thread phase])
  | .advanceLoad report, _ =>
      if phase ≠ .draining then some (phase, .idle, [.advanceLoaded thread phase])
      else if report.drained then some (phase, .advanceCas report, [.advanceLoaded thread phase])
      else some (phase, .idle, [.advanceLoaded thread phase])
  | .advanceCas report, _ =>
      if phase = .draining then some (.stopped, .idle, [.storedStopped thread report])
      else some (phase, .idle, [])
  | .requestAssert, _ | .advanceAssert _, _ | .advanceFinal, _ | .aborted, _ => none

/-- The coordinator of a build, as a program over its atomic phase. -/
def coordinatorOf (ι : Type u) :
    Build → Program ι (fun _ => Local) ShutdownPhase Choice (Event ι)
  | .debug => coordinator ι
  | .release => { step := releaseStep }

/-- All that one access can do, with the test that decided it, one rule for each
branch of either build. -/
inductive Access (thread : ι) (phase : ShutdownPhase) (choice : Choice) :
    Build → Local → ShutdownPhase → Local → List (Event ι) → Prop where
  | callsRequest {build : Build} (called : choice.call = some .requestShutdown) :
      Access thread phase choice build .idle phase .requestLoad []
  | callsPhase {build : Build} (called : choice.call = some .phase) :
      Access thread phase choice build .idle phase .phaseLoad []
  | callsAdvance {build : Build} {report : DrainReport}
      (called : choice.call = some (.tryAdvanceToStoppedIfDrained report)) :
      Access thread phase choice build .idle phase (.advanceLoad report) []
  | requestReturns {build : Build} (begun : phase ≠ .running) :
      Access thread phase choice build .requestLoad phase .idle [.requestReturned thread]
  | requestGoesOn {build : Build} (running : phase = .running) :
      Access thread phase choice build .requestLoad phase .requestCas []
  | requestStores (running : phase = .running) :
      Access thread phase choice .debug .requestCas .draining .requestAssert
        [.storedDraining thread]
  | requestStoresAndReturns (running : phase = .running) :
      Access thread phase choice .release .requestCas .draining .idle
        [.storedDraining thread, .requestReturned thread]
  | requestRetries {build : Build} :
      Access thread phase choice build .requestCas phase .requestLoad []
  | requestAsserts (draining : phase = .draining) :
      Access thread phase choice .debug .requestAssert phase .idle [.requestReturned thread]
  | requestAborts (other : phase ≠ .draining) :
      Access thread phase choice .debug .requestAssert phase .aborted []
  | phaseReturns {build : Build} :
      Access thread phase choice build .phaseLoad phase .idle [.phaseReturned thread phase]
  | advanceReturns {build : Build} {report : DrainReport} :
      Access thread phase choice build (.advanceLoad report) phase .idle
        [.advanceLoaded thread phase]
  | advanceGoesOn {report : DrainReport} (draining : phase = .draining)
      (drained : report.drained = true) :
      Access thread phase choice .debug (.advanceLoad report) phase (.advanceAssert report)
        [.advanceLoaded thread phase]
  | advanceSkipsAsserts {report : DrainReport} (draining : phase = .draining)
      (drained : report.drained = true) :
      Access thread phase choice .release (.advanceLoad report) phase (.advanceCas report)
        [.advanceLoaded thread phase]
  | advanceAsserts {report : DrainReport} :
      Access thread phase choice .debug (.advanceAssert report) phase (.advanceCas report) []
  | advanceAborts {report : DrainReport} (fails : ¬ (phase = .draining ∧ report.drained = true)) :
      Access thread phase choice .debug (.advanceAssert report) phase .aborted []
  | advanceStores {report : DrainReport} (draining : phase = .draining) :
      Access thread phase choice .debug (.advanceCas report) .stopped .advanceFinal
        [.storedStopped thread report]
  | advanceStoresAndReturns {report : DrainReport} (draining : phase = .draining) :
      Access thread phase choice .release (.advanceCas report) .stopped .idle
        [.storedStopped thread report]
  | advanceMisses {report : DrainReport} (other : phase ≠ .draining) :
      Access thread phase choice .debug (.advanceCas report) phase .advanceFinal []
  | advanceMissesAndReturns {report : DrainReport} (other : phase ≠ .draining) :
      Access thread phase choice .release (.advanceCas report) phase .idle []
  | finalAsserts :
      Access thread phase choice .debug .advanceFinal phase .idle []
  | finalAborts (other : phase ≠ .stopped) :
      Access thread phase choice .debug .advanceFinal phase .aborted []

section Accesses

variable {thread : ι} {phase after : ShutdownPhase} {before own : Local} {choice : Choice}
  {events : List (Event ι)}

/-- A step of the Debug build is one of these accesses to the phase, or none. This is
the one lemma that unfolds the step. -/
theorem step_access (stepped : step thread phase before choice = some (after, own, events)) :
    Access thread phase choice .debug before after own events := by
  cases before with
  | idle =>
    simp only [step] at stepped
    split at stepped <;> cases stepped
    · exact .callsRequest (by assumption)
    · exact .callsPhase (by assumption)
    · exact .callsAdvance (by assumption)
  | requestLoad =>
    simp only [step] at stepped
    split at stepped <;> cases stepped
    · exact .requestReturns (by assumption)
    · exact .requestGoesOn (Decidable.not_not.mp (by assumption))
  | requestCas =>
    simp only [step] at stepped
    split at stepped
    · rename_i exchanged
      cases stepped
      exact .requestStores exchanged.1
    · cases stepped
      exact .requestRetries
  | requestAssert =>
    simp only [step] at stepped
    split at stepped <;> cases stepped
    · exact .requestAsserts (by assumption)
    · exact .requestAborts (by assumption)
  | phaseLoad =>
    cases stepped
    exact .phaseReturns
  | advanceLoad report =>
    simp only [step] at stepped
    split at stepped
    · cases stepped
      exact .advanceReturns
    · split at stepped <;> cases stepped
      · exact .advanceGoesOn (Decidable.not_not.mp (by assumption)) (by assumption)
      · exact .advanceReturns
  | advanceAssert report =>
    simp only [step] at stepped
    split at stepped
    · cases stepped
      exact .advanceAsserts
    · rename_i fails
      cases stepped
      exact .advanceAborts fun held => fails ⟨held.1, (drained_iff report).mp held.2⟩
  | advanceCas report =>
    simp only [step] at stepped
    split at stepped <;> cases stepped
    · exact .advanceStores (by assumption)
    · exact .advanceMisses (by assumption)
  | advanceFinal =>
    simp only [step] at stepped
    split at stepped <;> cases stepped
    · exact .finalAsserts
    · exact .finalAborts (by assumption)
  | aborted => cases stepped

/-- A step of the build without asserts is one of these accesses. What the asserts
would have read is not read. -/
theorem release_step_access
    (stepped : releaseStep thread phase before choice = some (after, own, events)) :
    Access thread phase choice .release before after own events := by
  cases before with
  | idle =>
    simp only [releaseStep] at stepped
    split at stepped <;> cases stepped
    · exact .callsRequest (by assumption)
    · exact .callsPhase (by assumption)
    · exact .callsAdvance (by assumption)
  | requestLoad =>
    simp only [releaseStep] at stepped
    split at stepped <;> cases stepped
    · exact .requestReturns (by assumption)
    · exact .requestGoesOn (Decidable.not_not.mp (by assumption))
  | requestCas =>
    simp only [releaseStep] at stepped
    split at stepped
    · rename_i exchanged
      cases stepped
      exact .requestStoresAndReturns exchanged.1
    · cases stepped
      exact .requestRetries
  | phaseLoad =>
    cases stepped
    exact .phaseReturns
  | advanceLoad report =>
    simp only [releaseStep] at stepped
    split at stepped
    · cases stepped
      exact .advanceReturns
    · split at stepped <;> cases stepped
      · exact .advanceSkipsAsserts (Decidable.not_not.mp (by assumption)) (by assumption)
      · exact .advanceReturns
  | advanceCas report =>
    simp only [releaseStep] at stepped
    split at stepped <;> cases stepped
    · exact .advanceStoresAndReturns (by assumption)
    · exact .advanceMissesAndReturns (by assumption)
  | requestAssert | advanceAssert | advanceFinal | aborted => cases stepped

/-- Every step of either build is one of these accesses. -/
theorem build_access {build : Build}
    (stepped : (coordinatorOf ι build).step thread phase before choice =
      some (after, own, events)) : Access thread phase choice build before after own events := by
  cases build with
  | debug => exact step_access stepped
  | release => exact release_step_access stepped

end Accesses

/-- A fresh coordinator that no thread has called yet. It is running. -/
def fresh (ι : Type u) : Config (fun _ : ι => Local) ShutdownPhase where
  shared := .running
  locals := fun _ => .idle

/-- No assert has evaluated to false, in no thread. -/
def AssertionsHeld (config : Config (fun _ : ι => Local) ShutdownPhase) : Prop :=
  ∀ thread, config.locals thread ≠ .aborted

/-- A thread between a decision that found or made the phase `Draining` and the
assert that reads the phase again. -/
def inAssertWindow : Local → Bool
  | .requestAssert => true
  | .advanceAssert _ => true
  | _ => false

/-- The condition on one step: a compare-exchange that stores `Stopped` happens
only while no thread stands in front of an assert of `Draining`. -/
def StopsOutsideWindows (config : Config (fun _ : ι => Local) ShutdownPhase)
    (choice : ι × Choice) : Prop :=
  ∀ report, config.locals choice.1 = .advanceCas report → config.shared = .draining →
    ∀ other, inAssertWindow (config.locals other) = false

/-- All that one step can do to the phase: nothing, or one of the two CASes. -/
theorem step_phase_cases {thread : ι} {phase after : ShutdownPhase} {before own : Local}
    {choice : Choice} {events : List (Event ι)}
    (stepped : step thread phase before choice = some (after, own, events)) :
    after = phase ∨
      (phase = .running ∧ after = .draining ∧ before = .requestCas) ∨
      (phase = .draining ∧ after = .stopped ∧ ∃ report, before = .advanceCas report) := by
  cases step_access stepped with
  | requestStores running => exact Or.inr (Or.inl ⟨running, rfl, rfl⟩)
  | @advanceStores report draining => exact Or.inr (Or.inr ⟨draining, rfl, report, rfl⟩)
  | _ => exact Or.inl rfl

/-- What each thread may rely on where it stands, under the condition: what it has
stored or loaded is still so. -/
def assured (phase : ShutdownPhase) : Local → Prop
  | .requestAssert => phase = .draining
  | .advanceAssert report => phase = .draining ∧ report.drained = true
  | .advanceCas _ => phase ≠ .running
  | .advanceFinal => phase = .stopped
  | .aborted => False
  | _ => True

/-- A step establishes what is assured at the place it leads to. Only the places
behind an assert or a CAS rely on what was assured where they start. -/
theorem step_assured {thread : ι} {phase after : ShutdownPhase} {before own : Local}
    {choice : Choice} {events : List (Event ι)} (annotated : assured phase before)
    (stepped : step thread phase before choice = some (after, own, events)) :
    assured after own := by
  cases step_access stepped with
  | requestStores => rfl
  | requestAborts other => exact absurd annotated other
  | advanceGoesOn draining drained => exact ⟨draining, drained⟩
  | advanceAsserts =>
    intro running
    exact ShutdownPhase.noConfusion (running.symm.trans annotated.1)
  | advanceAborts fails => exact absurd annotated fails
  | advanceStores => rfl
  | advanceMisses other =>
    have begun : phase ≠ .running := annotated
    cases phase with
    | running => exact absurd rfl begun
    | draining => exact absurd rfl other
    | stopped => rfl
  | finalAborts other => exact absurd annotated other
  | _ => trivial

/-- A permitted step of one thread keeps what another is assured of. Storing
`Draining` contradicts what every window assures; storing `Stopped` keeps
the others, and the condition says that no thread is in a window then. -/
theorem step_interference {thread : ι} {phase after : ShutdownPhase} {before own other : Local}
    {choice : Choice} {events : List (Event ι)} (annotated : assured phase other)
    (permitted : ∀ report, before = .advanceCas report → phase = .draining →
      inAssertWindow other = false)
    (stepped : step thread phase before choice = some (after, own, events)) :
    assured after other := by
  rcases step_phase_cases stepped with same | ⟨running, stored, _⟩ |
    ⟨draining, stored, report, standing⟩
  · exact same ▸ annotated
  · subst running stored
    cases other <;> simp_all [assured]
  · have outside : inAssertWindow other = false := permitted report standing draining
    subst draining stored
    cases other <;> simp_all [assured, inAssertWindow]

section Interleavings

variable [DecidableEq ι]

/-- Every interleaving of any number of threads, each making any calls, with its
history. -/
abbrev Reached (config : Config (fun _ : ι => Local) ShutdownPhase) (history : List (Event ι)) :=
  Reaches (coordinator ι).system (fresh ι) config history

/-- In every run that stores `Stopped` outside the windows, each thread is
assured of what its place says; in particular no thread has aborted. -/
theorem assertions_held_of_condition {config : Config (fun _ : ι => Local) ShutdownPhase}
    {history : List (Event ι)}
    (run : Run (coordinator ι).system StopsOutsideWindows (fresh ι) config history) :
    AssertionsHeld config := by
  have annotated : True ∧ ∀ thread, assured config.shared (config.locals thread) := by
    refine annotations_hold (fun _ _ => True) (fun _ phase _ own => assured phase own)
      trivial ?_ ?_ ?_ run
    · intro thread
      trivial
    · intro config history thread choice phase after events _ _ annotated _ stepped
      exact ⟨trivial, step_assured (annotated thread) stepped⟩
    · intro config history thread choice phase after events other _ _ _ annotated permitted stepped
      refine step_interference (annotated other) ?_ stepped
      intro report standing draining
      exact permitted report standing draining other
  intro thread failed
  have stands := annotated.2 thread
  rw [failed] at stands
  exact stands

/-- A thread that stands in a window while the phase is `Stopped` aborts when it
is scheduled next. -/
theorem window_aborts {config : Config (fun _ : ι => Local) ShutdownPhase} {thread : ι}
    (standing : inAssertWindow (config.locals thread) = true) (stopped : config.shared = .stopped) :
    ∃ next events, (coordinator ι).system.step config (thread, {}) = some (next, events) ∧
      ¬ AssertionsHeld next := by
  have aborts : (coordinator ι).step thread config.shared (config.locals thread) {} =
      some (config.shared, .aborted, []) := by
    cases place : config.locals thread <;>
      simp_all [inAssertWindow, coordinator, step]
  refine ⟨_, _, system_step_of aborts, ?_⟩
  intro held
  exact held thread (by simp)

/-- The exact condition for assertion safety of `ShutdownCoordinator`.

Sufficiency: in every interleaving whose steps store `Stopped` only outside the
windows, no assert evaluates to false. Necessity: from any reached
configuration, a step that stores `Stopped` while another thread stands in a
window leads to a configuration in which that thread's next step is a failed
assert. -/
theorem assertions_held_exact :
    (∀ (config : Config (fun _ : ι => Local) ShutdownPhase) (history : List (Event ι)),
      Run (coordinator ι).system StopsOutsideWindows (fresh ι) config history →
        AssertionsHeld config) ∧
    (∀ (config next : Config (fun _ : ι => Local) ShutdownPhase) (history events : List (Event ι))
      (choice : ι × Choice), Reached config history → ¬ StopsOutsideWindows config choice →
        (coordinator ι).system.step config choice = some (next, events) →
        ∃ thread final emitted,
          (coordinator ι).system.step next (thread, {}) = some (final, emitted) ∧
            ¬ AssertionsHeld final) := by
  refine ⟨fun config history run => assertions_held_of_condition run, ?_⟩
  rintro config next history events ⟨thread, choice⟩ _ violated stepped
  simp only [StopsOutsideWindows, not_forall, Bool.not_eq_false] at violated
  obtain ⟨report, standing, draining, other, inside⟩ := violated
  obtain ⟨taken, kept⟩ := system_step_cases stepped
  have different : other ≠ thread := by
    intro same
    rw [same, standing] at inside
    exact Bool.noConfusion inside
  have stopped : next.shared = .stopped := by
    simp only [coordinator, standing, step, draining, ↓reduceIte, Option.some.injEq,
      Prod.mk.injEq] at taken
    exact taken.1.symm
  have still : inAssertWindow (next.locals other) = true := by
    rw [kept other different]
    exact inside
  exact ⟨other, window_aborts still stopped⟩

/-- The condition for the two threads of the runs below. -/
def stopsOutsideWindows (config : Config (fun _ : Bool => Local) ShutdownPhase)
    (choice : Bool × Choice) : Bool :=
  match config.locals choice.1 with
  | .advanceCas _ => !(inAssertWindow (config.locals false) || inAssertWindow (config.locals true))
  | _ => true

/-- The check of the condition is right. -/
theorem stops_outside_windows_sound (config : Config (fun _ : Bool => Local) ShutdownPhase)
    (choice : Bool × Choice) (passed : stopsOutsideWindows config choice = true) :
    StopsOutsideWindows config choice := by
  intro report standing _ other
  simp only [stopsOutsideWindows, standing, Bool.not_eq_true', Bool.or_eq_false_iff] at passed
  cases other with
  | false => exact passed.1
  | true => exact passed.2

/-- One thread requests the shutdown; the other completes it afterwards. -/
def orderlyShutdown : List (Bool × Choice) :=
  [(false, { call := some .requestShutdown }), (false, {}), (false, {}), (false, {}),
    (true, { call := some (.tryAdvanceToStoppedIfDrained ⟨true, 0, false⟩) }),
    (true, {}), (true, {}), (true, {}), (true, {})]

/-- A run that meets the condition and stops the server. -/
theorem assertions_held_orderly :
    ∃ (config : Config (fun _ : Bool => Local) ShutdownPhase) (history : List (Event Bool)),
      Run (coordinator Bool).system StopsOutsideWindows (fresh Bool) config history ∧
      config.shared = .stopped ∧ config.locals true = .idle ∧ AssertionsHeld config := by
  obtain ⟨config, history, run, observed⟩ :=
    replay_exhibits_under (coordinator Bool).system (fresh Bool) stopsOutsideWindows
      stops_outside_windows_sound
      (fun final => decide (final.1.shared = .stopped ∧ final.1.locals true = .idle))
      orderlyShutdown (by decide)
  obtain ⟨stopped, returned⟩ := of_decide_eq_true observed
  exact ⟨config, history, run, stopped, returned, assertions_held_exact.1 config history run⟩

/-- Three calls of two threads: the second thread's CAS stores `Stopped` between
the first thread's own CAS and the assert that reads the phase again. -/
def overtakenRequest : List (Bool × Choice) :=
  [(false, { call := some .requestShutdown }), (false, {}), (false, {}),
    (true, { call := some (.tryAdvanceToStoppedIfDrained ⟨true, 0, false⟩) }),
    (true, {}), (true, {}), (true, {}), (false, {})]

/-- Assertion safety fails for two threads: the assert behind the successful CAS
of `request_shutdown` reads `Stopped`. -/
theorem assertions_not_always_held :
    ¬ ∀ (config : Config (fun _ : Bool => Local) ShutdownPhase) (history : List (Event Bool)),
      Reached config history → AssertionsHeld config := by
  intro always
  obtain ⟨config, history, reached, failed⟩ :=
    replay_exhibits (coordinator Bool).system (fresh Bool)
      (fun final => decide (final.1.locals false = .aborted)) overtakenRequest (by decide)
  exact always config history reached false (of_decide_eq_true failed)

end Interleavings

end TcpServer.Lifecycle
