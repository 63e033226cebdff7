import Mathlib.Algebra.Group.Int.Defs
import Mathlib.Data.List.AList
import Mathlib.Data.List.Induction
import TcpServer.Transition

/-!
# The idle timeout manager

`IdleTimeoutManager` maps sockets to the time of their last activity, and
`poll_expired` erases the entries that are idle for too long while it traverses
the map. Time points are counts of nanoseconds and the limit is a count of
milliseconds; both are signed 64-bit numbers, and a value outside that range is
undefined behaviour, as is a step of an iterator whose entry is gone.

The order in which the map is traversed is not fixed by the language. It is an
argument here, any arrangement of the keys.

What the manager should know is stated on the history of the calls alone.
-/

namespace TcpServer.IdleTimeout

open Transition

/-- What the source leaves undefined: a difference of stamps that does not fit, and an
iterator behind an erased entry. -/
inductive Undefined where
  | signedOverflow
  | danglingIterator
deriving DecidableEq, Repr

/-- The value of a computation in a signed 64-bit representation. Outside of the range
the behaviour is undefined. -/
def int64 (value : Int) : Except Undefined Int :=
  if -2 ^ 63 ≤ value ∧ value < 2 ^ 63 then .ok value else .error .signedOverflow

/-- The limit in milliseconds, and for each registered socket the time of its last
activity in nanoseconds. -/
structure IdleTimeoutManager where
  idleAfter : Int
  lastActivity : AList (fun _ : Int => Int) := ∅

/-- `now - it->second >= idle_after_`: the difference is in nanoseconds, and the
milliseconds are converted to them. -/
def idleFor (idleAfter now stamp : Int) : Except Undefined Bool := do
  let elapsed ← int64 (now - stamp)
  let limit ← int64 (idleAfter * 1000000)
  return decide (elapsed ≥ limit)

/-- The loop of `poll_expired` over the entries that are still to be visited. An
expired one is reported and erased. -/
def sweep (idleAfter now : Int) :
    List Int → AList (fun _ : Int => Int) → List Int →
      Except Undefined (List Int × AList (fun _ : Int => Int))
  | [], lastActivity, expired => .ok (expired, lastActivity)
  | socket :: later, lastActivity, expired =>
      match lastActivity.lookup socket with
      | none => .error .danglingIterator
      | some stamp => do
          if ← idleFor idleAfter now stamp then
            sweep idleAfter now later (lastActivity.erase socket) (expired ++ [socket])
          else sweep idleAfter now later lastActivity expired

namespace IdleTimeoutManager

/-- `register_connection`: the time of registration counts as activity, also for a
socket that was registered before. -/
def registerConnection (manager : IdleTimeoutManager) (socket now : Int) : IdleTimeoutManager :=
  { manager with lastActivity := manager.lastActivity.insert socket now }

/-- `unregister_connection`: forget a socket, or do nothing where it is not
registered. -/
def unregisterConnection (manager : IdleTimeoutManager) (socket : Int) : IdleTimeoutManager :=
  { manager with lastActivity := manager.lastActivity.erase socket }

/-- `touch_activity`: set the stamp of a registered socket. Any other is ignored, an
expired one too. -/
def touchActivity (manager : IdleTimeoutManager) (socket now : Int) : IdleTimeoutManager :=
  match manager.lastActivity.lookup socket with
  | some _ => { manager with lastActivity := manager.lastActivity.insert socket now }
  | none => manager

/-- `poll_expired`, with the order in which it traverses the map. A limit of zero
turns it off. -/
def pollExpired (manager : IdleTimeoutManager) (now : Int) (order : List Int) :
    Except Undefined (List Int × IdleTimeoutManager) := do
  if manager.idleAfter = 0 then
    return ([], manager)
  let (expired, lastActivity) ← sweep manager.idleAfter now order manager.lastActivity []
  return (expired, { manager with lastActivity })

end IdleTimeoutManager

/-- The calls on the manager. The order of a poll is that of the hash map, which is
left open. -/
inductive Call where
  | registerConnection (socket now : Int)
  | unregisterConnection (socket : Int)
  | touchActivity (socket now : Int)
  | pollExpired (now : Int) (order : List Int)
deriving DecidableEq, Repr

/-- What the calls do, as the history has it, with the times that they were given. -/
inductive Event where
  | registered (socket now : Int)
  | unregistered (socket : Int)
  | touched (socket now : Int)
  | polled (now : Int) (expired : List Int)
deriving DecidableEq, Repr

/-- One call on the manager. Undefined behaviour ends the run. -/
def step (state : Except Undefined IdleTimeoutManager) (call : Call) :
    Option (Except Undefined IdleTimeoutManager × List Event) :=
  match state with
  | .error _ => none
  | .ok manager =>
      match call with
      | .registerConnection socket now =>
          some (.ok (manager.registerConnection socket now), [.registered socket now])
      | .unregisterConnection socket =>
          some (.ok (manager.unregisterConnection socket), [.unregistered socket])
      | .touchActivity socket now =>
          some (.ok (manager.touchActivity socket now), [.touched socket now])
      | .pollExpired now order =>
          if order.Perm manager.lastActivity.keys then
            match manager.pollExpired now order with
            | .error undefined => some (.error undefined, [])
            | .ok (expired, after) => some (.ok after, [.polled now expired])
          else none

/-- All sequences of such calls, on one manager. -/
def idleTracker : System (Except Undefined IdleTimeoutManager) Call Event where
  step := step

/-- A non-negative time point that fits into 64 bits. Between two of these the
difference cannot overflow. -/
def TimePoint (now : Int) : Prop := 0 ≤ now ∧ now < 2 ^ 63

/-- The condition on a call: its time point, if any, is in range. It is a condition on
the clock. -/
def InRange (_state : Except Undefined IdleTimeoutManager) : Call → Prop
  | .registerConnection _ now | .touchActivity _ now | .pollExpired now _ => TimePoint now
  | .unregisterConnection _ => True

/-- The events that decide whether a socket is tracked: it is registered or
unregistered, or a poll returns it. -/
def Event.decides (socket : Int) : Event → Bool
  | .registered other _ | .unregistered other => decide (other = socket)
  | .touched _ _ => false
  | .polled _ expired => decide (socket ∈ expired)

/-- The time at which the event touches the socket, if it does. -/
def Event.touch (socket : Int) : Event → Option Int
  | .touched other now => if other = socket then some now else none
  | _ => none

/-- The latest event that decides about the socket is a registration, and `stamp`
is the time of the latest touch since then, or of the registration itself. -/
def Tracked (history : List Event) (socket stamp : Int) : Prop :=
  ∃ earlier now since, history = earlier ++ .registered socket now :: since ∧
    (∀ event ∈ since, event.decides socket = false) ∧
    stamp = (since.filterMap (Event.touch socket)).getLast?.getD now

section Histories

variable {history : List Event} {socket stamp now : Int}

/-- A registration tracks its socket from then on. -/
theorem tracked_registered : Tracked (history ++ [.registered socket now]) socket stamp ↔
    stamp = now := by
  constructor
  · rintro ⟨earlier, registered, since, shape, undecided, latest⟩
    cases since using List.reverseRecOn with
    | nil =>
      obtain ⟨_, same⟩ := List.append_inj' shape rfl
      injection same with same
      injection same with _ same
      exact latest.trans same.symm
    | append_singleton since last =>
      rw [← List.cons_append, ← List.append_assoc] at shape
      obtain ⟨_, same⟩ := List.append_inj' shape rfl
      injection same with same
      subst same
      have decided := undecided _ (List.mem_append_right _ (List.mem_singleton.mpr rfl))
      simp [Event.decides] at decided
  · rintro rfl
    exact ⟨history, stamp, [], rfl, nofun, rfl⟩

/-- What is tracked after an event that is no registration of the socket was
tracked before it, and the event does not decide about it. -/
theorem tracked_concat {event : Event} (other : ∀ time, event ≠ .registered socket time) :
    Tracked (history ++ [event]) socket stamp ↔
      event.decides socket = false ∧ ∃ former, Tracked history socket former ∧
        stamp = (event.touch socket).getD former := by
  constructor
  · rintro ⟨earlier, registered, since, shape, undecided, latest⟩
    cases since using List.reverseRecOn with
    | nil =>
      obtain ⟨_, same⟩ := List.append_inj' shape rfl
      injection same with same
      exact absurd same (other registered)
    | append_singleton since last =>
      rw [← List.cons_append, ← List.append_assoc] at shape
      obtain ⟨before, same⟩ := List.append_inj' shape rfl
      injection same with same
      subst same
      refine ⟨undecided _ (List.mem_append_right _ (List.mem_singleton.mpr rfl)), _,
        ⟨earlier, registered, since, before, ?_, rfl⟩, ?_⟩
      · intro past member
        exact undecided past (List.mem_append_left _ member)
      · rw [latest, List.filterMap_append]
        cases touched : event.touch socket <;> simp [touched]
  · rintro ⟨undecided, former, ⟨earlier, registered, since, rfl, past, rfl⟩, rfl⟩
    refine ⟨earlier, registered, since ++ [event], by simp, ?_, ?_⟩
    · intro decided member
      cases List.mem_append.mp member with
      | inl before => exact past decided before
      | inr last => exact (List.mem_singleton.mp last) ▸ undecided
    · rw [List.filterMap_append]
      cases touched : event.touch socket <;> simp [touched]

end Histories

/-- The limits that the configuration can set, in milliseconds: all numbers of 32
bits. -/
def LimitRange (idleAfter : Int) : Prop := 0 ≤ idleAfter ∧ idleAfter ≤ 2 ^ 32 - 1

/-- The comparison does not overflow for time points and limits in their ranges. -/
theorem idle_for_exact {idleAfter now stamp : Int} (limit : LimitRange idleAfter)
    (current : TimePoint now) (past : TimePoint stamp) :
    idleFor idleAfter now stamp = .ok (decide (idleAfter * 1000000 ≤ now - stamp)) := by
  obtain ⟨limitLow, limitHigh⟩ := limit
  obtain ⟨currentLow, currentHigh⟩ := current
  obtain ⟨pastLow, pastHigh⟩ := past
  have elapsed : int64 (now - stamp) = .ok (now - stamp) := by
    apply if_pos
    omega
  have nanoseconds : int64 (idleAfter * 1000000) = .ok (idleAfter * 1000000) := by
    apply if_pos
    omega
  simp [idleFor, elapsed, nanoseconds, bind, Except.bind, pure, Except.pure]

/-- The traversal finds the sockets among those it visits that are idle for too
long and erases exactly these. Induct on the sockets still to be visited: erasing
one leaves the entries of the others alone. -/
theorem sweep_exact {idleAfter now : Int} (limit : LimitRange idleAfter) (current : TimePoint now)
    (order : List Int) (entries : AList (fun _ : Int => Int)) (expired : List Int)
    (distinct : order.Nodup)
    (present : ∀ socket ∈ order, ∃ stamp, entries.lookup socket = some stamp ∧ TimePoint stamp) :
    ∃ found after, sweep idleAfter now order entries expired = .ok (expired ++ found, after) ∧
      found.Sublist order ∧
      (∀ socket, socket ∈ found ↔ socket ∈ order ∧
        ∃ stamp, entries.lookup socket = some stamp ∧ idleAfter * 1000000 ≤ now - stamp) ∧
      ∀ socket, after.lookup socket = if socket ∈ found then none else entries.lookup socket := by
  induction order generalizing entries expired with
  | nil => exact ⟨[], entries, by simp [sweep], List.Sublist.refl [], by simp, by simp⟩
  | cons first later inductionHypothesis =>
    obtain ⟨absent, distinctLater⟩ := List.nodup_cons.mp distinct
    obtain ⟨stamp, stands, past⟩ := present first List.mem_cons_self
    have compared := idle_for_exact limit current past
    by_cases idle : idleAfter * 1000000 ≤ now - stamp
    · have others : ∀ socket ∈ later, (entries.erase first).lookup socket =
          entries.lookup socket := by
        intro socket member
        apply AList.lookup_erase_ne
        rintro rfl
        exact absent member
      have presentLater : ∀ socket ∈ later, ∃ stamp,
          (entries.erase first).lookup socket = some stamp ∧ TimePoint stamp := by
        intro socket member
        rw [others socket member]
        exact present socket (List.mem_cons_of_mem first member)
      obtain ⟨found, after, swept, part, exactly, left⟩ :=
        inductionHypothesis (entries.erase first) (expired ++ [first]) distinctLater presentLater
      refine ⟨first :: found, after, ?_, part.cons_cons first, ?_, ?_⟩
      · simp [sweep, stands, compared, idle, bind, Except.bind, swept]
      · intro socket
        by_cases same : socket = first
        · subst socket
          simp [stands, idle]
        · have kept : (entries.erase first).lookup socket = entries.lookup socket :=
            AList.lookup_erase_ne same
          simp [same, exactly socket, kept]
      · intro socket
        rw [left socket]
        by_cases same : socket = first
        · subst socket
          simp [AList.lookup_erase]
        · have kept : (entries.erase first).lookup socket = entries.lookup socket :=
            AList.lookup_erase_ne same
          simp [same, kept]
    · have presentLater : ∀ socket ∈ later, ∃ stamp,
          entries.lookup socket = some stamp ∧ TimePoint stamp := fun socket member =>
        present socket (List.mem_cons_of_mem first member)
      obtain ⟨found, after, swept, part, exactly, left⟩ :=
        inductionHypothesis entries expired distinctLater presentLater
      refine ⟨found, after, ?_, part.cons first, ?_, left⟩
      · simp [sweep, stands, compared, idle, bind, Except.bind, swept]
      · intro socket
        rw [exactly socket]
        constructor
        · rintro ⟨member, due⟩
          exact ⟨List.mem_cons_of_mem first member, due⟩
        · rintro ⟨member, former, held, due⟩
          cases List.mem_cons.mp member with
          | inl same =>
            subst same
            obtain rfl := Option.some.inj (stands.symm.trans held)
            exact absurd due idle
          | inr behind => exact ⟨behind, former, held, due⟩

/-- The manager knows exactly what its history says it should: which sockets are
tracked, and since when. -/
structure Knows (idleAfter : Int) (manager : IdleTimeoutManager) (history : List Event) : Prop where
  limit : manager.idleAfter = idleAfter
  tracked : ∀ socket stamp,
    manager.lastActivity.lookup socket = some stamp ↔ Tracked history socket stamp
  stamps : ∀ socket stamp, manager.lastActivity.lookup socket = some stamp → TimePoint stamp

section Calls

variable {idleAfter now : Int} {manager : IdleTimeoutManager} {history : List Event}

/-- A poll with a limit returns, without an overflow, each tracked socket that is
idle for too long once, and forgets these only. -/
theorem poll_expired_exact (limit : LimitRange idleAfter) (positive : 0 < idleAfter)
    (knows : Knows idleAfter manager history) (current : TimePoint now) {order : List Int}
    (whole : order.Perm manager.lastActivity.keys) :
    ∃ expired after, manager.pollExpired now order = .ok (expired, after) ∧ expired.Nodup ∧
      (∀ socket, socket ∈ expired ↔
        ∃ stamp, Tracked history socket stamp ∧ idleAfter * 1000000 ≤ now - stamp) ∧
      after.idleAfter = idleAfter ∧
      ∀ socket, after.lastActivity.lookup socket =
        if socket ∈ expired then none else manager.lastActivity.lookup socket := by
  have distinct : order.Nodup := whole.nodup_iff.mpr manager.lastActivity.keys_nodup
  have inside : ∀ socket, socket ∈ order ↔ ∃ stamp,
      manager.lastActivity.lookup socket = some stamp := by
    intro socket
    rw [whole.mem_iff, ← AList.mem_keys, ← AList.lookup_isSome, Option.isSome_iff_exists]
  have present : ∀ socket ∈ order, ∃ stamp,
      manager.lastActivity.lookup socket = some stamp ∧ TimePoint stamp := by
    intro socket member
    obtain ⟨stamp, stands⟩ := (inside socket).mp member
    exact ⟨stamp, stands, knows.stamps socket stamp stands⟩
  obtain ⟨found, after, swept, part, exactly, left⟩ :=
    sweep_exact limit current order manager.lastActivity [] distinct present
  have nonzero : ¬ idleAfter = 0 := by omega
  refine ⟨found, { manager with lastActivity := after }, ?_, part.nodup distinct, ?_, knows.limit,
    left⟩
  · simp [IdleTimeoutManager.pollExpired, knows.limit, nonzero, swept, bind, Except.bind, pure,
      Except.pure]
  · intro socket
    rw [exactly socket]
    constructor
    · rintro ⟨_, stamp, stands, due⟩
      exact ⟨stamp, (knows.tracked socket stamp).mp stands, due⟩
    · rintro ⟨stamp, tracked, due⟩
      have stands := (knows.tracked socket stamp).mpr tracked
      exact ⟨(inside socket).mpr ⟨stamp, stands⟩, stamp, stands, due⟩

/-- A registration is known. -/
theorem register_known (socket : Int) (knows : Knows idleAfter manager history)
    (current : TimePoint now) :
    Knows idleAfter (manager.registerConnection socket now)
      (history ++ [.registered socket now]) := by
  refine ⟨knows.limit, ?_, ?_⟩
  · intro other stamp
    by_cases same : other = socket
    · subst other
      rw [tracked_registered]
      simp [IdleTimeoutManager.registerConnection, AList.lookup_insert, eq_comm]
    · have kept : (manager.lastActivity.insert socket now).lookup other =
          manager.lastActivity.lookup other := AList.lookup_insert_ne same
      rw [tracked_concat (by simp [Ne.symm same])]
      simp [IdleTimeoutManager.registerConnection, kept, knows.tracked, Event.decides,
        Event.touch, Ne.symm same]
  · intro other stamp stands
    by_cases same : other = socket
    · subst other
      simp only [IdleTimeoutManager.registerConnection, AList.lookup_insert,
        Option.some.injEq] at stands
      exact stands ▸ current
    · have kept : (manager.lastActivity.insert socket now).lookup other =
          manager.lastActivity.lookup other := AList.lookup_insert_ne same
      simp only [IdleTimeoutManager.registerConnection, kept] at stands
      exact knows.stamps other stamp stands

/-- Unregistering is known. -/
theorem unregister_known (socket : Int) (knows : Knows idleAfter manager history) :
    Knows idleAfter (manager.unregisterConnection socket)
      (history ++ [.unregistered socket]) := by
  have others : ∀ other, other ≠ socket → (manager.lastActivity.erase socket).lookup other =
      manager.lastActivity.lookup other := fun other different => AList.lookup_erase_ne different
  refine ⟨knows.limit, ?_, ?_⟩
  · intro other stamp
    rw [tracked_concat (by simp)]
    by_cases same : other = socket
    · subst other
      simp [IdleTimeoutManager.unregisterConnection, AList.lookup_erase, Event.decides]
    · simp [IdleTimeoutManager.unregisterConnection, others other same, knows.tracked,
        Event.decides, Event.touch, Ne.symm same]
  · intro other stamp stands
    by_cases same : other = socket
    · subst other
      simp [IdleTimeoutManager.unregisterConnection, AList.lookup_erase] at stands
    · simp only [IdleTimeoutManager.unregisterConnection, others other same] at stands
      exact knows.stamps other stamp stands

/-- Touching a socket that is not tracked changes nothing. -/
theorem touch_untracked {socket : Int} (knows : Knows idleAfter manager history)
    (untracked : ∀ stamp, ¬ Tracked history socket stamp) :
    manager.touchActivity socket now = manager := by
  cases stands : manager.lastActivity.lookup socket with
  | none => simp [IdleTimeoutManager.touchActivity, stands]
  | some stamp => exact absurd ((knows.tracked socket stamp).mp stands) (untracked stamp)

/-- A touch is known, also where it changes nothing: a socket that is not registered
is not tracked by the history either, and stays so. -/
theorem touch_known (socket : Int) (knows : Knows idleAfter manager history)
    (current : TimePoint now) :
    Knows idleAfter (manager.touchActivity socket now) (history ++ [.touched socket now]) := by
  cases stands : manager.lastActivity.lookup socket with
  | none =>
    have unchanged : manager.touchActivity socket now = manager := by
      simp [IdleTimeoutManager.touchActivity, stands]
    rw [unchanged]
    refine ⟨knows.limit, ?_, knows.stamps⟩
    intro other stamp
    rw [tracked_concat (by simp)]
    by_cases same : other = socket
    · subst other
      simp [stands, Event.decides, ← knows.tracked]
    · simp [Event.decides, Event.touch, Ne.symm same, knows.tracked]
  | some former =>
    have changed : manager.touchActivity socket now =
        { manager with lastActivity := manager.lastActivity.insert socket now } := by
      simp [IdleTimeoutManager.touchActivity, stands]
    rw [changed]
    have others : ∀ other, other ≠ socket →
        (manager.lastActivity.insert socket now).lookup other =
          manager.lastActivity.lookup other := fun other different =>
      AList.lookup_insert_ne different
    refine ⟨knows.limit, ?_, ?_⟩
    · intro other stamp
      rw [tracked_concat (by simp)]
      by_cases same : other = socket
      · subst other
        simp [AList.lookup_insert, Event.decides, Event.touch, ← knows.tracked, stands, eq_comm]
      · simp [others other same, Event.decides, Event.touch, Ne.symm same, knows.tracked]
    · intro other stamp holds
      by_cases same : other = socket
      · subst other
        simp only [AList.lookup_insert, Option.some.injEq] at holds
        exact holds ▸ current
      · simp only [others other same] at holds
        exact knows.stamps other stamp holds

end Calls

/-- One call keeps the manager's knowledge. Polling is the only call that can fail,
and within the range of its stamps it does not. -/
theorem step_known {idleAfter : Int} {manager : IdleTimeoutManager} {history : List Event}
    {call : Call} {next : Except Undefined IdleTimeoutManager} {events : List Event}
    (limit : LimitRange idleAfter) (knows : Knows idleAfter manager history)
    (permitted : InRange (.ok manager) call)
    (stepped : step (.ok manager) call = some (next, events)) :
    ∃ after, next = .ok after ∧ Knows idleAfter after (history ++ events) := by
  cases call with
  | registerConnection socket now =>
    cases stepped
    exact ⟨_, rfl, register_known socket knows permitted⟩
  | unregisterConnection socket =>
    cases stepped
    exact ⟨_, rfl, unregister_known socket knows⟩
  | touchActivity socket now =>
    cases stepped
    exact ⟨_, rfl, touch_known socket knows permitted⟩
  | pollExpired now order =>
    by_cases whole : order.Perm manager.lastActivity.keys
    · by_cases disabled : idleAfter = 0
      · have returned : manager.pollExpired now order = .ok ([], manager) := by
          simp [IdleTimeoutManager.pollExpired, knows.limit, disabled, pure, Except.pure]
        simp only [step, whole, returned, ↓reduceIte] at stepped
        cases stepped
        refine ⟨manager, rfl, knows.limit, ?_, knows.stamps⟩
        intro socket stamp
        rw [tracked_concat (by simp)]
        simp [Event.decides, Event.touch, knows.tracked]
      · have positive : 0 < idleAfter := by
          have low := limit.1
          omega
        obtain ⟨expired, after, returned, _, exactly, kept, left⟩ :=
          poll_expired_exact limit positive knows permitted whole
        simp only [step, whole, returned, ↓reduceIte] at stepped
        cases stepped
        refine ⟨after, rfl, kept, ?_, ?_⟩
        · intro socket stamp
          rw [tracked_concat (by simp), left socket]
          by_cases gone : socket ∈ expired
          · simp [gone, Event.decides]
          · simp [gone, Event.decides, Event.touch, knows.tracked]
        · intro socket stamp stands
          rw [left socket] at stands
          by_cases gone : socket ∈ expired
          · simp [gone] at stands
          · rw [if_neg gone] at stands
            exact knows.stamps socket stamp stands
    · simp [step, whole] at stepped

/-- In every run in range the manager knows what its history says it should. -/
theorem run_known {idleAfter : Int} (limit : LimitRange idleAfter)
    {state : Except Undefined IdleTimeoutManager} {history : List Event}
    (run : Run idleTracker InRange (.ok { idleAfter }) state history) :
    ∃ manager, state = .ok manager ∧ Knows idleAfter manager history := by
  apply run_invariant (fun state history => ∃ manager, state = .ok manager ∧
    Knows idleAfter manager history) ?_ ?_ run
  · refine ⟨{ idleAfter }, rfl, rfl, ?_, ?_⟩
    · intro socket stamp
      constructor
      · intro stands
        simp at stands
      · rintro ⟨earlier, now, since, shape, _⟩
        simp at shape
    · intro socket stamp stands
      simp at stands
  · rintro state history call next events _ ⟨manager, rfl, knows⟩ permitted stepped
    exact step_known limit knows permitted stepped

/-- Idle tracking is exact over whole histories. For every limit that can be
configured and after any calls with non-negative 64-bit time points in any order,
nothing has overflowed and the map holds exactly the tracked sockets with their
latest stamps. A poll with a positive limit, in whatever order it traverses the
map, returns without duplicates exactly the tracked sockets that are idle for the
limit at least, and keeps all others with their stamps. Touching an untracked
socket changes nothing. A poll with limit zero returns and changes nothing. -/
theorem idle_tracking_exact (idleAfter : Int) (limit : 0 ≤ idleAfter ∧ idleAfter ≤ 2 ^ 32 - 1)
    (state : Except Undefined IdleTimeoutManager) (history : List Event)
    (run : Run idleTracker InRange (.ok { idleAfter }) state history) :
    ∃ manager, state = .ok manager ∧
      (∀ socket stamp, manager.lastActivity.lookup socket = some stamp ↔
        Tracked history socket stamp) ∧
      (0 < idleAfter → ∀ now order, 0 ≤ now ∧ now < 2 ^ 63 →
        order.Perm manager.lastActivity.keys →
        ∃ expired after, manager.pollExpired now order = .ok (expired, after) ∧ expired.Nodup ∧
          (∀ socket, socket ∈ expired ↔
            ∃ stamp, Tracked history socket stamp ∧ idleAfter * 1000000 ≤ now - stamp) ∧
          ∀ socket, socket ∉ expired →
            after.lastActivity.lookup socket = manager.lastActivity.lookup socket) ∧
      (∀ socket now, (∀ stamp, ¬ Tracked history socket stamp) →
        manager.touchActivity socket now = manager) ∧
      (idleAfter = 0 → ∀ now order, manager.pollExpired now order = .ok ([], manager)) := by
  obtain ⟨manager, rfl, knows⟩ := run_known limit run
  refine ⟨manager, rfl, knows.tracked, ?_, fun socket now => touch_untracked knows, ?_⟩
  · intro positive now order current whole
    obtain ⟨expired, after, returned, distinct, exactly, _, left⟩ :=
      poll_expired_exact limit positive knows current whole
    refine ⟨expired, after, returned, distinct, exactly, ?_⟩
    intro socket kept
    rw [left socket, if_neg kept]
  · intro disabled now order
    simp [IdleTimeoutManager.pollExpired, knows.limit, disabled, pure, Except.pure]

/-- Whether a call is in range can be computed. -/
def inRange (_state : Except Undefined IdleTimeoutManager) : Call → Bool
  | .registerConnection _ now | .touchActivity _ now | .pollExpired now _ =>
      decide (0 ≤ now ∧ now < 2 ^ 63)
  | .unregisterConnection _ => true

/-- The check of the condition on the stamps is right. -/
theorem in_range_sound (state : Except Undefined IdleTimeoutManager) (call : Call)
    (passed : inRange state call = true) : InRange state call := by
  cases call with
  | unregisterConnection socket => trivial
  | registerConnection socket now | touchActivity socket now | pollExpired now order =>
    have inside : 0 ≤ now ∧ now < 2 ^ 63 := of_decide_eq_true passed
    exact inside

/-- Two sockets; the descriptor of the first is used again after it has expired. -/
def recycledDescriptor : List Call :=
  [.registerConnection 101 0, .registerConnection 102 80000000, .touchActivity 101 5000000,
    .pollExpired 105000000 [102, 101], .touchActivity 101 106000000,
    .registerConnection 101 200000000]

/-- Tracking with a limit of 100 milliseconds on such a run. The poll comes exactly
at the limit of the first socket; the touch after it does not revive the socket. -/
theorem idle_tracking_exact_recycled :
    ∃ (manager : IdleTimeoutManager) (history : List Event),
      Run idleTracker InRange (.ok { idleAfter := 100 }) (.ok manager) history ∧
        Tracked history 101 200000000 ∧ Tracked history 102 80000000 := by
  obtain ⟨state, history, run, observed⟩ :=
    replay_exhibits_under idleTracker (.ok { idleAfter := 100 }) inRange in_range_sound
      (fun final => match final.1 with
        | .ok manager => decide (manager.lastActivity.lookup 101 = some 200000000 ∧
            manager.lastActivity.lookup 102 = some 80000000)
        | .error _ => false) recycledDescriptor (by decide)
  obtain ⟨manager, rfl, tracked, _⟩ :=
    idle_tracking_exact 100 (by decide) state history run
  obtain ⟨first, second⟩ := of_decide_eq_true observed
  exact ⟨manager, history, run, (tracked 101 _).mp first, (tracked 102 _).mp second⟩

end TcpServer.IdleTimeout
