import TcpServer.Transition

/-!
# Threads over shared memory

A program gives each thread its own local states and one atomic step as a
function of the shared memory and the thread's local state. The threads of one
program may run different code, so local states depend on the thread. The
interleaving semantics schedules one thread at a time.

The proof rule is the annotation rule of Owicki and Gries. Each thread carries
an assertion on the shared memory, the history and its own local state. A step
must establish its own next assertion and may not falsify another thread's.
-/

namespace Threads

open Transition

universe u v w x y
variable {ι : Type u} {Local : ι → Type v} {Shared : Type w} {Choice : Type x} {Event : Type y}

/-- One atomic step of each thread; `none` means that the thread is blocked or done. A
thread sees the shared part and its own. -/
structure Program (ι : Type u) (Local : ι → Type v) (Shared : Type w) (Choice : Type x)
    (Event : Type y) where
  step : (thread : ι) → Shared → Local thread → Choice →
    Option (Shared × Local thread × List Event)

/-- Shared memory and the local state of every thread. -/
structure Config (Local : ι → Type v) (Shared : Type w) where
  shared : Shared
  locals : (thread : ι) → Local thread

variable [DecidableEq ι]

/-- The interleaving semantics: one choice names the thread that steps. -/
def Program.system (program : Program ι Local Shared Choice Event) :
    System (Config Local Shared) (ι × Choice) Event where
  step config choice :=
    match program.step choice.1 config.shared (config.locals choice.1) choice.2 with
    | none => none
    | some (shared, own, events) =>
        some (⟨shared, Function.update config.locals choice.1 own⟩, events)

variable {program : Program ι Local Shared Choice Event}

/-- A step of the system is a step of its thread; the other local states stay. -/
theorem system_step_cases {config next : Config Local Shared} {thread : ι} {choice : Choice}
    {events : List Event}
    (stepped : program.system.step config (thread, choice) = some (next, events)) :
    program.step thread config.shared (config.locals thread) choice =
        some (next.shared, next.locals thread, events) ∧
      ∀ other, other ≠ thread → next.locals other = config.locals other := by
  cases taken : program.step thread config.shared (config.locals thread) choice with
  | none => simp [Program.system, taken] at stepped
  | some result =>
    obtain ⟨shared, own, emitted⟩ := result
    simp only [Program.system, taken, Option.some.injEq, Prod.mk.injEq] at stepped
    obtain ⟨rfl, rfl⟩ := stepped
    refine ⟨by simp, ?_⟩
    intro other different
    exact Function.update_of_ne different own config.locals

/-- A step of a thread is a step of the system. -/
theorem system_step_of {config : Config Local Shared} {thread : ι} {choice : Choice}
    {shared : Shared} {own : Local thread} {events : List Event}
    (taken : program.step thread config.shared (config.locals thread) choice =
      some (shared, own, events)) :
    program.system.step config (thread, choice) =
      some (⟨shared, Function.update config.locals thread own⟩, events) := by
  simp only [Program.system, taken]

/-- The annotation rule. The common assertion on memory and history and the
assertion of every thread hold in each reached configuration when a step
establishes its own annotations and interferes with no other thread's. Both
obligations may use that the configuration before the step is reached.

Induct over the run. The stepping thread's obligation is `own`; every other
thread keeps its local state, and its obligation is `free`. -/
theorem annotations_hold {allowed : Config Local Shared → ι × Choice → Prop}
    {start : Config Local Shared} (common : Shared → List Event → Prop)
    (assertion : (thread : ι) → Shared → List Event → Local thread → Prop)
    (initialCommon : common start.shared [])
    (initial : ∀ thread, assertion thread start.shared [] (start.locals thread))
    (own : ∀ (config : Config Local Shared) history thread choice shared after events,
      Run program.system allowed start config history → common config.shared history →
      (∀ other, assertion other config.shared history (config.locals other)) →
      allowed config (thread, choice) →
      program.step thread config.shared (config.locals thread) choice =
        some (shared, after, events) →
      common shared (history ++ events) ∧ assertion thread shared (history ++ events) after)
    (free : ∀ (config : Config Local Shared) history thread choice shared after events other,
      Run program.system allowed start config history → other ≠ thread →
      common config.shared history →
      (∀ any, assertion any config.shared history (config.locals any)) →
      allowed config (thread, choice) →
      program.step thread config.shared (config.locals thread) choice =
        some (shared, after, events) →
      assertion other shared (history ++ events) (config.locals other))
    {config : Config Local Shared} {history : List Event}
    (run : Run program.system allowed start config history) :
    common config.shared history ∧
      ∀ thread, assertion thread config.shared history (config.locals thread) := by
  refine run_invariant (fun config history => common config.shared history ∧
      ∀ thread, assertion thread config.shared history (config.locals thread))
    ⟨initialCommon, initial⟩ ?_ run
  rintro config history ⟨thread, choice⟩ next events before ⟨shared, asserted⟩ permitted stepped
  obtain ⟨taken, kept⟩ := system_step_cases stepped
  obtain ⟨nextCommon, nextOwn⟩ := own config history thread choice next.shared
    (next.locals thread) events before shared asserted permitted taken
  refine ⟨nextCommon, ?_⟩
  intro other
  by_cases same : other = thread
  · subst other
    exact nextOwn
  · rw [kept other same]
    exact free config history thread choice next.shared (next.locals thread) events other before
      same shared asserted permitted taken

end Threads
