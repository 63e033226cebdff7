import TcpServer.Lifecycle

/-!
# The history of the shutdown phase

The phase goes from `Running` over `Draining` to `Stopped`, and only a call that
found `Draining` on its first load stores `Stopped`. Neither law depends on the
asserts of the coordinator. They are proved for its Debug build, in which the
assert reads the phase again and a false one ends its thread, and for the build
with `NDEBUG`, in which the call goes on without that load.

Both builds make the same moves as far as these laws are concerned: each access of
either build is one of them.
-/

namespace TcpServer.Lifecycle

open Transition Threads

universe u
variable {ι : Type u}

/-- The thread that an event belongs to: the one that has made the access. -/
def Event.thread : Event ι → ι
  | .requestReturned thread | .phaseReturned thread _ | .advanceLoaded thread _
  | .storedDraining thread | .storedStopped thread _ => thread

/-- The phase an event stores, if it stores one. The other events leave the phase as
it is. -/
def Event.stored : Event ι → Option ShutdownPhase
  | .storedDraining _ => some .draining
  | .storedStopped _ _ => some .stopped
  | _ => none

/-- The values of `phase_` in modification order, the initial one first. Every load
reads the last of them. -/
def phases (history : List (Event ι)) : List ShutdownPhase :=
  .running :: history.filterMap Event.stored

/-- The report of a call that has passed its drained test and has not made its CAS
yet. -/
def Local.advancing : Local → Option DrainReport
  | .advanceAssert report | .advanceCas report => some report
  | _ => none

/-- The moves of a thread, up to what the laws on the phase speak of. Both builds make
no others. -/
inductive Move (thread : ι) :
    ShutdownPhase → Local → ShutdownPhase → Local → List (Event ι) → Prop where
  | silent {phase : ShutdownPhase} {before own : Local}
      (kept : own.advancing = none ∨ own.advancing = before.advancing) :
      Move thread phase before phase own []
  | returned {phase : ShutdownPhase} {before : Local} (begun : phase ≠ .running) :
      Move thread phase before phase .idle [.requestReturned thread]
  | sampled {phase : ShutdownPhase} {before : Local} :
      Move thread phase before phase .idle [.phaseReturned thread phase]
  | refused {phase : ShutdownPhase} {before : Local} :
      Move thread phase before phase .idle [.advanceLoaded thread phase]
  | entered {before own : Local} {report : DrainReport} (drained : report.drained = true)
      (advancing : own.advancing = some report) :
      Move thread .draining before .draining own [.advanceLoaded thread .draining]
  | drains {before own : Local} (outside : own.advancing = none) :
      Move thread .running before .draining own [.storedDraining thread]
  | drainsAndReturns {before : Local} :
      Move thread .running before .draining .idle [.storedDraining thread, .requestReturned thread]
  | stops {before own : Local} {report : DrainReport} (advancing : before.advancing = some report)
      (outside : own.advancing = none) :
      Move thread .draining before .stopped own [.storedStopped thread report]

section Moves

variable {thread : ι} {phase after : ShutdownPhase} {before own : Local} {choice : Choice}
  {events : List (Event ι)}

/-- Every access is a move. -/
theorem access_moves {build : Build}
    (access : Access thread phase choice build before after own events) :
    Move thread phase before after own events := by
  cases access with
  | requestReturns begun => exact .returned begun
  | requestStores running =>
    subst running
    exact .drains rfl
  | requestStoresAndReturns running =>
    subst running
    exact .drainsAndReturns
  | requestAsserts draining =>
    subst draining
    exact .returned nofun
  | phaseReturns => exact .sampled
  | advanceReturns => exact .refused
  | advanceGoesOn draining drained | advanceSkipsAsserts draining drained =>
    subst draining
    exact .entered drained rfl
  | advanceAsserts => exact .silent (Or.inr rfl)
  | advanceStores draining | advanceStoresAndReturns draining =>
    subst draining
    exact .stops rfl rfl
  | _ => exact .silent (Or.inl rfl)

/-- Every step of either build is a move. -/
theorem build_moves (build : Build)
    (stepped : (coordinatorOf ι build).step thread phase before choice =
      some (after, own, events)) : Move thread phase before after own events :=
  access_moves (build_access stepped)

/-- A thread emits events of its own. -/
theorem move_thread (move : Move thread phase before after own events) :
    ∀ event ∈ events, event.thread = thread := by
  cases move <;> simp [Event.thread]

end Moves

/-- The first load of the thread's current call found `Draining`, after some
request had stored it: nothing the thread emitted stands behind that load. -/
def EnteredDraining (thread : ι) (history : List (Event ι)) : Prop :=
  ∃ first last requester, history = first ++ .advanceLoaded thread .draining :: last ∧
    .storedDraining requester ∈ first ∧ ∀ event ∈ last, event.thread ≠ thread

/-- What must precede an event: `Stopped` is stored for a drained report only, by
a call whose first load found `Draining`. -/
def Gated (earlier : List (Event ι)) (event : Event ι) : Prop :=
  ∀ thread report, event = .storedStopped thread report →
    report = ⟨true, 0, false⟩ ∧ EnteredDraining thread earlier

/-- The phase and the history of a run agree: the stores are those that lead to this
phase, in order. -/
structure PhaseRecord (phase : ShutdownPhase) (history : List (Event ι)) : Prop where
  modifications : history.filterMap Event.stored =
    match phase with
    | .running => []
    | .draining => [.draining]
    | .stopped => [.draining, .stopped]
  requested : ∀ thread, .requestReturned thread ∈ history → phase ≠ .running
  drained : phase ≠ .running → ∃ requester, .storedDraining requester ∈ history
  gated : Justified Gated history

/-- What a thread may rely on while it advances: a drained report, and a draining that
it has seen itself. -/
def Advances (thread : ι) (history : List (Event ι)) (own : Local) : Prop :=
  ∀ report, own.advancing = some report →
    report.drained = true ∧ EnteredDraining thread history

/-- Events of other threads keep the last load of a thread's call in place. -/
theorem entered_draining_append {thread : ι} {history events : List (Event ι)}
    (entered : EnteredDraining thread history) (others : ∀ event ∈ events, event.thread ≠ thread) :
    EnteredDraining thread (history ++ events) := by
  obtain ⟨first, last, requester, rfl, stored, silent⟩ := entered
  refine ⟨first, last ++ events, requester, by simp, stored, ?_⟩
  intro event member
  exact (List.mem_append.mp member).elim (silent event) (others event)

/-- Only the three drained arguments pass the test. -/
theorem drained_report {report : DrainReport} (drained : report.drained = true) :
    report = ⟨true, 0, false⟩ := by
  obtain ⟨stopped, active, pending⟩ := report
  obtain ⟨rfl, rfl, rfl⟩ := (drained_iff _).mp drained
  rfl

/-- An event that stores nothing `Stopped` needs no call before it. -/
theorem gated_other {earlier : List (Event ι)} {event : Event ι}
    (other : event.stored ≠ some .stopped) : Gated earlier event := by
  rintro thread report rfl
  exact False.elim (other rfl)

/-- A move keeps the record, given what its own thread relies on: a thread that stores
`Stopped` has a drained report and has loaded `Draining` in the same call. -/
theorem move_record {thread : ι} {phase after : ShutdownPhase} {before own : Local}
    {events history : List (Event ι)} (move : Move thread phase before after own events)
    (kept : PhaseRecord phase history) (advances : Advances thread history before) :
    PhaseRecord after (history ++ events) := by
  obtain ⟨modifications, requested, drained, gated⟩ := kept
  cases move with
  | silent =>
    rw [List.append_nil]
    exact ⟨modifications, requested, drained, gated⟩
  | returned begun =>
    refine ⟨by simpa [List.filterMap_cons, Event.stored] using modifications, fun _ _ => begun,
      ?_, ?_⟩
    · intro again
      obtain ⟨requester, member⟩ := drained again
      exact ⟨requester, List.mem_append_left _ member⟩
    · exact justified_concat gated (gated_other (by simp [Event.stored]))
  | sampled | refused | entered =>
    refine ⟨by simpa [List.filterMap_cons, Event.stored] using modifications, ?_, ?_, ?_⟩
    · intro requester member
      exact requested requester (by simpa using member)
    · intro begun
      obtain ⟨requester, member⟩ := drained begun
      exact ⟨requester, List.mem_append_left _ member⟩
    · exact justified_concat gated (gated_other (by simp [Event.stored]))
  | drains =>
    refine ⟨by simp [Event.stored, modifications], by simp, fun _ => ⟨thread, by simp⟩, ?_⟩
    exact justified_concat gated (gated_other (by simp [Event.stored]))
  | drainsAndReturns =>
    refine ⟨by simp [List.filterMap_cons, Event.stored, modifications], by simp,
      fun _ => ⟨thread, by simp⟩, ?_⟩
    rw [List.append_cons]
    exact justified_concat (justified_concat gated (gated_other (by simp [Event.stored])))
      (gated_other (by simp [Event.stored]))
  | @stops _ own report advancing =>
    refine ⟨by simp [Event.stored, modifications], by simp, ?_, ?_⟩
    · intro _
      obtain ⟨requester, member⟩ := drained (by simp)
      exact ⟨requester, List.mem_append_left _ member⟩
    · apply justified_concat gated
      intro caller reported same
      injection same with sameThread sameReport
      subst sameThread sameReport
      obtain ⟨passed, entered⟩ := advances report advancing
      exact ⟨drained_report passed, entered⟩

/-- A move establishes what its thread relies on afterwards. -/
theorem move_advances {thread : ι} {phase after : ShutdownPhase} {before own : Local}
    {events history : List (Event ι)} (move : Move thread phase before after own events)
    (kept : PhaseRecord phase history) (advances : Advances thread history before) :
    Advances thread (history ++ events) own := by
  intro report standing
  cases move with
  | silent kept =>
    rw [List.append_nil]
    cases kept with
    | inl outside => simp [outside] at standing
    | inr same => exact advances report (same ▸ standing)
  | returned | sampled | refused | drainsAndReturns => simp [Local.advancing] at standing
  | drains outside => simp [outside] at standing
  | stops advancing outside => simp [outside] at standing
  | entered drained advancing =>
    obtain rfl := Option.some.inj (standing.symm.trans advancing)
    obtain ⟨requester, member⟩ := kept.drained (by simp)
    exact ⟨drained, history, [], requester, rfl, member, by simp⟩

variable [DecidableEq ι]

/-- Along every run of either build the phase agrees with its history, and each
advancing call has found `Draining` on its first load. -/
theorem run_phase_record {build : Build} {config : Config (fun _ : ι => Local) ShutdownPhase}
    {history : List (Event ι)}
    (reached : Reaches (coordinatorOf ι build).system (fresh ι) config history) :
    PhaseRecord config.shared history ∧
      ∀ thread, Advances thread history (config.locals thread) := by
  refine annotations_hold PhaseRecord (fun thread _ history own => Advances thread history own)
    ⟨rfl, by simp, by simp [fresh], justified_nil _⟩ ?_ ?_ ?_ reached
  · intro thread report standing
    simp [fresh, Local.advancing] at standing
  · intro config history thread choice phase after events _ kept advances _ stepped
    have move := build_moves build stepped
    exact ⟨move_record move kept (advances thread), move_advances move kept (advances thread)⟩
  · intro config history thread choice phase after events other _ different kept advances _ stepped
      report standing
    obtain ⟨drained, entered⟩ := advances other report standing
    refine ⟨drained, entered_draining_append entered ?_⟩
    intro event member same
    exact different (same.symm.trans (move_thread (build_moves build stepped) event member))

/-- Phase monotonicity and gated stop. For any number of threads and calls with
any arguments, in every interleaving of either build: the values of the phase in
modification order are a prefix of `Running`, `Draining`, `Stopped`, the last of
them the current phase; after a `request_shutdown` has returned the phase is not
`Running`; and every store of `Stopped` is made by a call whose arguments were
drained and whose first load found `Draining`, after a request had stored it. -/
theorem phase_monotone_gated (ι : Type u) [DecidableEq ι] (build : Build)
    (config : Config (fun _ : ι => Local) ShutdownPhase) (history : List (Event ι))
    (reached : Reaches (coordinatorOf ι build).system (fresh ι) config history) :
    phases history <+: [.running, .draining, .stopped] ∧
      (phases history).getLast? = some config.shared ∧
      (∀ thread, .requestReturned thread ∈ history → config.shared ≠ .running) ∧
      ∀ earlier thread report later, history = earlier ++ .storedStopped thread report :: later →
        report = ⟨true, 0, false⟩ ∧
          ∃ first last requester, earlier = first ++ .advanceLoaded thread .draining :: last ∧
            .storedDraining requester ∈ first ∧ ∀ event ∈ last, event.thread ≠ thread := by
  obtain ⟨⟨modifications, requested, _, gated⟩, _⟩ := run_phase_record reached
  refine ⟨?_, ?_, requested, ?_⟩
  · rw [phases, modifications]
    cases config.shared <;> decide
  · rw [phases, modifications]
    cases config.shared <;> rfl
  · intro earlier thread report later split
    exact gated earlier _ later split thread report rfl

/-- The law on the run of two threads that stops the server. -/
theorem phase_monotone_gated_orderly :
    ∃ (config : Config (fun _ : Bool => Local) ShutdownPhase) (history : List (Event Bool)),
      Reaches (coordinatorOf Bool .debug).system (fresh Bool) config history ∧
      config.shared = .stopped ∧ phases history <+: [.running, .draining, .stopped] := by
  obtain ⟨config, history, reached, observed⟩ :=
    replay_exhibits (coordinatorOf Bool .debug).system (fresh Bool)
      (fun final => decide (final.1.shared = .stopped)) orderlyShutdown (by decide)
  exact ⟨config, history, reached, of_decide_eq_true observed,
    (phase_monotone_gated Bool .debug config history reached).1⟩

end TcpServer.Lifecycle
