import Mathlib.Data.Finset.Card
import TcpServer.Threads

/-!
# Monitors

A monitor is a mutex with one condition variable. Waiting releases the mutex and
joins the sleepers in one step. A notification removes sleepers; a notified
thread, or one that wakes without cause, takes the mutex again before it goes
on. A notification that finds no sleeper has no effect.

A program is disciplined when each step keeps the mutex, takes it while it is
free or gives up what the stepping thread holds. Mutual exclusion follows, and
with it that data which only holders write does not change under a holder.

That no notification is lost is a matter of counting: each unit of demand needs
a thread of its own that will serve it without being notified again.
-/

namespace Monitors

open Transition Threads

universe u v w x y
variable {ι : Type u}

/-- The holder of the mutex, and the waiting threads that no notification has reached.
Who was notified competes like anyone else. -/
structure Monitor (ι : Type u) where
  holder : Option ι := none
  asleep : Finset ι := ∅

namespace Monitor

/-- Take the mutex if it is free. A thread that cannot take it is not enabled. -/
def lock (monitor : Monitor ι) (thread : ι) : Option (Monitor ι) :=
  if monitor.holder = none then some { monitor with holder := some thread } else none

/-- `unlock`: nobody holds the mutex, and the sleepers sleep on. -/
def unlock (monitor : Monitor ι) : Monitor ι := { monitor with holder := none }

/-- `notify_all`: nobody sleeps any more, and whoever did competes for the mutex. The
caller need not hold it. -/
def notifyAll (monitor : Monitor ι) : Monitor ι := { monitor with asleep := ∅ }

/-- Locking succeeds on a free mutex and leaves the sleepers alone. -/
theorem lock_cases {monitor next : Monitor ι} {thread : ι}
    (locked : monitor.lock thread = some next) :
    monitor.holder = none ∧ next.holder = some thread ∧ next.asleep = monitor.asleep := by
  unfold lock at locked
  split at locked
  · cases locked
    exact ⟨by assumption, rfl, rfl⟩
  · cases locked

variable [DecidableEq ι]

/-- Release the mutex and become a sleeping waiter, atomically. No notification can
fall in between. -/
def sleep (monitor : Monitor ι) (thread : ι) : Monitor ι where
  holder := none
  asleep := insert thread monitor.asleep

/-- Return from waiting with the mutex, if it is free: after a notification, or
spuriously. -/
def wake (monitor : Monitor ι) (thread : ι) (spurious : Bool) : Option (Monitor ι) :=
  if monitor.holder = none ∧ (thread ∈ monitor.asleep → spurious = true) then
    some { holder := some thread, asleep := monitor.asleep.erase thread }
  else none

/-- Wake the chosen sleeper. Without sleepers the notification is lost; a choice
of a thread that does not sleep is none of the behaviours. -/
def notifyOne (monitor : Monitor ι) (pick : ι) : Option (Monitor ι) :=
  if monitor.asleep = ∅ then some monitor
  else if pick ∈ monitor.asleep then some { monitor with asleep := monitor.asleep.erase pick }
  else none

/-- Waking takes a free mutex; the thread is no sleeper any more. -/
theorem wake_cases {monitor next : Monitor ι} {thread : ι} {spurious : Bool}
    (woken : monitor.wake thread spurious = some next) :
    monitor.holder = none ∧ next.holder = some thread ∧
      next.asleep = monitor.asleep.erase thread ∧
      (thread ∈ monitor.asleep → spurious = true) := by
  unfold wake at woken
  split at woken
  · rename_i ready
    cases woken
    exact ⟨ready.1, rfl, rfl, ready.2⟩
  · cases woken

/-- A single notification leaves the mutex alone and wakes the chosen sleeper, if
there is any. -/
theorem notify_one_cases {monitor next : Monitor ι} {pick : ι}
    (notified : monitor.notifyOne pick = some next) :
    next.holder = monitor.holder ∧
      ((monitor.asleep = ∅ ∧ next.asleep = ∅) ∨
        (pick ∈ monitor.asleep ∧ next.asleep = monitor.asleep.erase pick)) := by
  unfold notifyOne at notified
  split at notified
  · rename_i nobody
    cases notified
    exact ⟨rfl, Or.inl ⟨nobody, nobody⟩⟩
  · split at notified
    · cases notified
      exact ⟨rfl, Or.inr ⟨by assumption, rfl⟩⟩
    · cases notified

/-- Waking adds no sleeper. -/
theorem wake_subset {monitor next : Monitor ι} {thread : ι} {spurious : Bool}
    (woken : monitor.wake thread spurious = some next) : next.asleep ⊆ monitor.asleep := by
  rw [(wake_cases woken).2.2.1]
  exact Finset.erase_subset _ _

/-- Neither does a notification. -/
theorem notify_one_subset {monitor next : Monitor ι} {pick : ι}
    (notified : monitor.notifyOne pick = some next) : next.asleep ⊆ monitor.asleep := by
  rcases (notify_one_cases notified).2 with ⟨_, nobody⟩ | ⟨_, erased⟩
  · rw [nobody]
    exact Finset.empty_subset _
  · rw [erased]
    exact Finset.erase_subset _ _

end Monitor

variable [DecidableEq ι]

section Demand

variable {serves serving : ι → Prop} {demand : Nat}

/-- There are at least `demand` different threads that serve. Which ones may change
from step to step. -/
def Covered (demand : Nat) (serves : ι → Prop) : Prop :=
  ∃ servers : Finset ι, demand ≤ servers.card ∧ ∀ thread ∈ servers, serves thread

omit [DecidableEq ι] in
/-- No demand is always covered. -/
theorem covered_zero (serves : ι → Prop) : Covered 0 serves := by
  refine ⟨∅, Nat.zero_le _, ?_⟩
  intro thread member
  exact absurd member (Finset.notMem_empty thread)

omit [DecidableEq ι] in
/-- Demand stays covered as long as the serving threads go on to serve. -/
theorem covered_mono (covered : Covered demand serves)
    (remain : ∀ thread, serves thread → serving thread) : Covered demand serving := by
  obtain ⟨servers, enough, all⟩ := covered
  exact ⟨servers, enough, fun thread member => remain thread (all thread member)⟩

/-- A thread that takes up serving covers one more. -/
theorem covered_gain {thread : ι} (covered : Covered demand serves) (absent : ¬ serves thread)
    (joins : serving thread) (remain : ∀ other, serves other → serving other) :
    Covered (demand + 1) serving := by
  obtain ⟨servers, enough, all⟩ := covered
  have fresh : thread ∉ servers := fun member => absent (all thread member)
  refine ⟨insert thread servers, ?_, ?_⟩
  · rw [Finset.card_insert_of_notMem fresh]
    exact Nat.succ_le_succ enough
  · intro other member
    cases Finset.mem_insert.mp member with
    | inl same => exact same ▸ joins
    | inr earlier => exact remain other (all other earlier)

/-- When one thread stops serving, one less is covered. -/
theorem covered_lose {thread : ι} (covered : Covered (demand + 1) serves)
    (remain : ∀ other, other ≠ thread → serves other → serving other) :
    Covered demand serving := by
  obtain ⟨servers, enough, all⟩ := covered
  refine ⟨servers.erase thread, ?_, ?_⟩
  · have left := Finset.pred_card_le_card_erase (s := servers) (a := thread)
    omega
  · intro other member
    obtain ⟨different, earlier⟩ := Finset.mem_erase.mp member
    exact remain other different (all other earlier)

/-- One thread may hand its service over to another that did not serve. -/
theorem covered_exchange {giver taker : ι} (covered : Covered demand serves)
    (absent : ¬ serves taker) (joins : serving taker)
    (remain : ∀ other, other ≠ giver → serves other → serving other) : Covered demand serving := by
  cases demand with
  | zero => exact covered_zero serving
  | succ fewer =>
    have others : Covered fewer (fun other => other ≠ giver ∧ serves other) :=
      covered_lose covered (fun other different serves => ⟨different, serves⟩)
    exact covered_gain others (fun serves => absent serves.2) joins
      (fun other serves => remain other serves.1 serves.2)

end Demand

omit [DecidableEq ι] in
/-- While one thread is inside a mutex, every other is outside. -/
theorem exclusive_outside {inside : ι → Bool} {holder : Option ι}
    (exclusive : ∀ thread, inside thread = true ↔ holder = some thread) (thread : ι)
    (within : inside thread = true) {other : ι} (different : other ≠ thread) :
    inside other = false := by
  apply Bool.eq_false_iff.mpr
  intro also
  have holds := (exclusive other).mp also
  rw [(exclusive thread).mp within] at holds
  exact different (Option.some.inj holds).symm

/-- What a step of `thread` may do to a mutex, given whether the thread is inside
before and after: nothing, enter while it is free, or leave. -/
def Disciplined (holder after : Option ι) (thread : ι) (inside stays : Bool) : Prop :=
  (after = holder ∧ stays = inside) ∨
  (holder = none ∧ after = some thread ∧ inside = false ∧ stays = true) ∨
  (after = none ∧ inside = true ∧ stays = false)

omit [DecidableEq ι] in
/-- What the holder of a mutex has, before and behind a disciplined step of `thread`: what
this thread has wherever it is inside, and what there was when it stays outside. -/
theorem held_step {α : Type v} (nothing : α) (had has : ι → α) {holder after : Option ι}
    {thread : ι} {inside stays : Bool} (exclusive : inside = true ↔ holder = some thread)
    (disciplined : Disciplined holder after thread inside stays)
    (others : inside = false → stays = false → ∀ other, other ≠ thread → has other = had other) :
    if inside || stays then
      holder.elim nothing had = (if inside then had thread else nothing) ∧
        after.elim nothing has = if stays then has thread else nothing
    else after.elim nothing has = holder.elim nothing had := by
  rcases disciplined with ⟨rfl, rfl⟩ | ⟨rfl, rfl, rfl, rfl⟩ | ⟨rfl, rfl, rfl⟩
  · cases within : stays with
    | true =>
      have holds := exclusive.mp within
      subst holds
      exact ⟨rfl, rfl⟩
    | false =>
      cases held : after with
      | none => rfl
      | some other =>
        have different : other ≠ thread := by
          rintro rfl
          simp [exclusive.mpr held] at within
        exact others within within other different
  · exact ⟨rfl, rfl⟩
  · rw [exclusive.mp rfl]
    exact ⟨rfl, rfl⟩

variable {Local : ι → Type v} {Shared : Type w} {Choice : Type x} {Event : Type y}
  {program : Program ι Local Shared Choice Event}
  {allowed : Config Local Shared → ι × Choice → Prop} {start : Config Local Shared}

/-- Mutual exclusion: in every run of a disciplined program the threads inside
are exactly the holder of the mutex.

Induct over the run. A thread that stays outside of a step of another can only
be disturbed by that other taking a mutex it holds itself, or giving up a mutex
that the other does not hold; the discipline excludes both. -/
theorem mutual_exclusion (holder : Shared → Option ι)
    (inside : (thread : ι) → Local thread → Bool)
    (initial : ∀ thread, inside thread (start.locals thread) = true ↔
      holder start.shared = some thread)
    (disciplined : ∀ thread shared own choice after next events,
      program.step thread shared own choice = some (after, next, events) →
      Disciplined (holder shared) (holder after) thread (inside thread own) (inside thread next))
    {config : Config Local Shared} {history : List Event}
    (run : Run program.system allowed start config history) (thread : ι) :
    inside thread (config.locals thread) = true ↔ holder config.shared = some thread := by
  refine run_invariant (fun config _ => ∀ thread,
    inside thread (config.locals thread) = true ↔ holder config.shared = some thread)
    initial ?_ run thread
  rintro config history ⟨stepping, choice⟩ next events _ exclusive _ stepped thread
  obtain ⟨taken, kept⟩ := system_step_cases stepped
  have stepper := exclusive stepping
  by_cases same : thread = stepping
  · subst thread
    rcases disciplined _ _ _ _ _ _ _ taken with ⟨unchanged, stays⟩ | ⟨_, entered, _, stays⟩ |
      ⟨left, _, stays⟩
    · rw [unchanged, stays]
      exact stepper
    · simp [entered, stays]
    · simp [left, stays]
  · have others := exclusive thread
    rw [kept thread same]
    rcases disciplined _ _ _ _ _ _ _ taken with ⟨unchanged, _⟩ | ⟨free, entered, _, _⟩ |
      ⟨left, was, _⟩
    · rw [unchanged]
      exact others
    · rw [free] at others
      rw [entered]
      simpa [Ne.symm same] using others
    · rw [stepper.mp was] at others
      rw [left]
      simpa [Ne.symm same] using others

end Monitors
