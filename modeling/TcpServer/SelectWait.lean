import Mathlib.Data.Finset.Card
import TcpServer.BoundedFill
import TcpServer.EventLoop

/-!
# Waiting with `select`

`SelectPoller::wait` on POSIX. It builds three descriptor sets from the interest
map, passes them to `::select`, and writes one event for each socket that the
answer names, as long as there is room in the caller's span. `FD_SET` and
`FD_ISSET` outside the range of an `fd_set` and the overflow of `max_fd + 1` are
faults. The iteration order of the interest map is left open; both loops use the
same one.

What `wait` requests is described by the interest map alone, and what it reports
by the map and the answer.
-/

namespace TcpServer.SelectWait

open EventLoop (PollEvent)
open BoundedFill

/-- One registered socket with its mask, as a traversal of the map yields it. -/
abbrev Entry := Sigma fun _ : Int => EventMask

/-- An `fd_set` as the set of its descriptors. That it holds only some of them is a
test of `FD_SET`. -/
abbrev FdSet := Finset Int

/-- `FD_SETSIZE`: how many descriptors an `fd_set` has a bit for. -/
def fdSetSize : Int := 1024

/-- `INT_MAX`: the number behind which `max_fd + 1` overflows. -/
def intMax : Int := 2147483647

/-- What the source leaves undefined: a descriptor outside of an `fd_set`, and a sum
outside of `int`. -/
inductive WaitFault where
  | fdOutOfRange (fd : Int)
  | intOverflow
deriving DecidableEq, Repr

/-- The three sets of a call of `::select`, before the call or behind it. The call
overwrites them in place. -/
structure FdSets where
  readfds : FdSet := ∅
  writefds : FdSet := ∅
  exceptfds : FdSet := ∅

/-- A timeout of `::select`, in seconds and microseconds. -/
structure Timeval where
  tvSec : Int
  tvUsec : Int
deriving DecidableEq, Repr

/-- The arguments of `::select` as `wait` prepares them. Without a timeout the call
waits as long as it takes. -/
structure SelectCall where
  nfds : Int
  sets : FdSets
  timeout : Option Timeval

/-- The answer of `::select`: a failure, or the returned count with the sets as
the call leaves them. -/
inductive SelectAnswer where
  | failed (errno : Int)
  | returned (count : Nat) (sets : FdSets)

/-- The entries of the interest map in the order of one traversal. The map is not
changed in between, so both loops see the same order. -/
structure Traversal (poller : SelectPoller) where
  entries : List Entry
  perm : entries.Perm poller.interest.entries

/-- What a call of `wait` leaves behind: its result, the span of the caller, and the
poller. -/
structure Waited where
  result : Except PollError Nat
  outEvents : List PollEvent
  poller : SelectPoller

/-- The descriptors that fit into an `fd_set`. For any other, `FD_SET` writes outside
of it. -/
def InRange (fd : Int) : Prop := 0 ≤ fd ∧ fd < fdSetSize

/-- Whether a descriptor fits can be computed. -/
instance (fd : Int) : Decidable (InRange fd) := inferInstanceAs (Decidable (_ ∧ _))

/-- `FD_SET`. Outside the range of the set its behaviour is undefined, and the model
stops. -/
def fdSet (fd : Int) (set : FdSet) : Except WaitFault FdSet :=
  if InRange fd then .ok (insert fd set) else .error (.fdOutOfRange fd)

/-- `FD_ISSET`. Outside the range of the set its behaviour is undefined as well. -/
def fdIsset (fd : Int) (set : FdSet) : Except WaitFault Bool :=
  if InRange fd then .ok (decide (fd ∈ set)) else .error (.fdOutOfRange fd)

/-- `if (has(mask, bit)) { FD_SET(sock, &set); }`. A socket that does not ask for the
bit may be any number. -/
def setIfHas (sock : Int) (mask bit : EventMask) (set : FdSet) : Except WaitFault FdSet :=
  if mask.has bit then fdSet sock set else .ok set

/-- `if (FD_ISSET(sock, &set) != 0) { fired = fired | bit; }`. The test is made for
every socket, whatever it asked for. -/
def addIfSet (sock : Int) (set : FdSet) (bit fired : EventMask) : Except WaitFault EventMask := do
  if ← fdIsset sock set then return fired ||| bit else return fired

/-- The loop that fills the descriptor sets and finds `max_fd`, in the order of the
traversal. -/
def buildSets : List Entry → FdSets → Int → Except WaitFault (FdSets × Int)
  | [], sets, maxFd => .ok (sets, maxFd)
  | ⟨sock, mask⟩ :: rest, sets, maxFd => do
      let readfds ← setIfHas sock mask .read sets.readfds
      let writefds ← setIfHas sock mask .write sets.writefds
      let exceptfds ← setIfHas sock mask .error sets.exceptfds
      buildSets rest { readfds, writefds, exceptfds } (if sock > maxFd then sock else maxFd)

/-- `tvp`: no timeout where `timeout_ms` is negative, and the milliseconds split into
two fields otherwise. -/
def timeval (timeoutMs : Int) : Option Timeval :=
  if timeoutMs ≥ 0 then some ⟨timeoutMs / 1000, timeoutMs % 1000 * 1000⟩ else none

/-- `max_fd + 1` in `int`. The addition overflows for the largest descriptor only. -/
def nextFd (maxFd : Int) : Except WaitFault Int :=
  if maxFd < intMax then .ok (maxFd + 1) else .error .intOverflow

/-- What `wait` does up to its call of `::select`. It reads the map and the timeout,
and nothing else. -/
def selectCall (entries : List Entry) (timeoutMs : Int) : Except WaitFault SelectCall := do
  let (sets, maxFd) ← buildSets entries {} 0
  let nfds ← nextFd maxFd
  return { nfds, sets, timeout := timeval timeoutMs }

/-- `fired` for one socket: the bits of the sets that the call has left it in. -/
def firedMask (sock : Int) (sets : FdSets) : Except WaitFault EventMask := do
  let fired ← addIfSet sock sets.readfds .read .none
  let fired ← addIfSet sock sets.writefds .write fired
  addIfSet sock sets.exceptfds .error fired

/-- The loop that writes the events, in the order of the traversal, until the span of
the caller is full. -/
def writeEvents (sets : FdSets) :
    List Entry → Nat → List PollEvent → Except WaitFault (Nat × List PollEvent)
  | [], written, outEvents => .ok (written, outEvents)
  | ⟨sock, _⟩ :: rest, written, outEvents =>
      if written ≥ outEvents.length then .ok (written, outEvents)
      else do
        let fired ← firedMask sock sets
        if fired ≠ .none then
          writeEvents sets rest (written + 1) (outEvents.set written ⟨sock, fired⟩)
        else writeEvents sets rest written outEvents

/-- `SelectPoller::wait`. The sets are built from the map, `::select` answers, and
behind a positive count the events are written. The map itself is only read. -/
def wait (poller : SelectPoller) (traversal : Traversal poller) (outEvents : List PollEvent)
    (timeoutMs : Int) (select : SelectCall → SelectAnswer) : Except WaitFault Waited :=
  if outEvents = [] then
    .ok ⟨.error ⟨"out_events must not be empty", 0⟩, outEvents, poller⟩
  else do
    let call ← selectCall traversal.entries timeoutMs
    match select call with
    | .failed errno => return ⟨.error ⟨"select() failed", errno⟩, outEvents, poller⟩
    | .returned 0 _ => return ⟨.ok 0, outEvents, poller⟩
    | .returned _ sets =>
        let (written, outEvents) ← writeEvents sets traversal.entries 0 outEvents
        return ⟨.ok written, outEvents, poller⟩

/-- The sockets among the entries whose mask has the bit, which is what the set for
this bit should hold. -/
def requested (bit : EventMask) (entries : List Entry) : FdSet :=
  ((entries.filter fun entry => entry.snd.has bit).map Sigma.fst).toFinset

/-- The bits of a mask that were requested and are ready. This is what a caller should
be told of a socket. -/
def readyBits (sets : FdSets) (entry : Entry) : EventMask :=
  (if entry.snd.has .read ∧ entry.fst ∈ sets.readfds then .read else .none) |||
    (if entry.snd.has .write ∧ entry.fst ∈ sets.writefds then .write else .none) |||
    (if entry.snd.has .error ∧ entry.fst ∈ sets.exceptfds then .error else .none)

/-- The event of a socket with a ready requested bit. A socket without one has no
event. -/
def readyEvent (sets : FdSets) (entry : Entry) : Option PollEvent :=
  if readyBits sets entry ≠ .none then some ⟨entry.fst, readyBits sets entry⟩ else none

/-- `::select` only leaves bits that were set on entry and returns how many it left,
as its documentation says. -/
structure Honest (call : SelectCall) (count : Nat) (sets : FdSets) : Prop where
  readfds : sets.readfds ⊆ call.sets.readfds
  writefds : sets.writefds ⊆ call.sets.writefds
  exceptfds : sets.exceptfds ⊆ call.sets.exceptfds
  total : count = sets.readfds.card + sets.writefds.card + sets.exceptfds.card

/-- The call asks for exactly the bits of each registered mask, and its bound
covers every registered descriptor. -/
structure Requests (poller : SelectPoller) (call : SelectCall) : Prop where
  readfds : ∀ fd, fd ∈ call.sets.readfds ↔
    ∃ mask, poller.interest.lookup fd = some mask ∧ mask.has .read = true
  writefds : ∀ fd, fd ∈ call.sets.writefds ↔
    ∃ mask, poller.interest.lookup fd = some mask ∧ mask.has .write = true
  exceptfds : ∀ fd, fd ∈ call.sets.exceptfds ↔
    ∃ mask, poller.interest.lookup fd = some mask ∧ mask.has .error = true
  covers : ∀ fd ∈ poller.interest, fd < call.nfds

/-- The first `written` slots hold the ready sockets, each once and with its
ready bits, as many as fit; the other slots are as before. -/
structure Reports (poller : SelectPoller) (sets : FdSets) (before after : List PollEvent)
    (written : Nat) : Prop where
  count : written =
    min before.length (poller.interest.entries.countP fun entry => readyBits sets entry ≠ .none)
  distinct : ((after.take written).map PollEvent.socket).Nodup
  exact : ∀ event ∈ after.take written, ∃ mask,
    poller.interest.lookup event.socket = some mask ∧ event.mask ≠ .none ∧
      event.mask = readyBits sets ⟨event.socket, mask⟩
  untouched : after.drop written = before.drop written
  length : after.length = before.length

/-- Waiting leaves the poller as it is, whatever the answer. -/
theorem wait_poller {poller : SelectPoller} {traversal : Traversal poller}
    {outEvents : List PollEvent} {timeoutMs : Int} {select : SelectCall → SelectAnswer}
    {waited : Waited} (returned : wait poller traversal outEvents timeoutMs select = .ok waited) :
    waited.poller = poller := by
  unfold wait at returned
  split at returned
  · cases returned
    rfl
  · cases called : selectCall traversal.entries timeoutMs with
    | error fault => simp [called, bind, Except.bind] at returned
    | ok call =>
      simp only [called, bind, Except.bind] at returned
      split at returned
      · cases returned
        rfl
      · cases returned
        rfl
      · rename_i sets _ _
        cases filled : writeEvents sets traversal.entries 0 outEvents with
        | error fault => simp [filled] at returned
        | ok outcome =>
          simp only [filled, pure, Except.pure] at returned
          cases returned
          rfl

/-- A wait on a nonempty span reports an error only where `::select` fails. -/
theorem wait_succeeds {poller : SelectPoller} {traversal : Traversal poller}
    {outEvents : List PollEvent} {timeoutMs : Int} {select : SelectCall → SelectAnswer}
    {waited : Waited} (room : outEvents ≠ [])
    (selects : ∀ call errno, select call ≠ .failed errno)
    (returned : wait poller traversal outEvents timeoutMs select = .ok waited) :
    ∃ written, waited.result = .ok written := by
  unfold wait at returned
  rw [if_neg room] at returned
  cases called : selectCall traversal.entries timeoutMs with
  | error fault => simp [called, bind, Except.bind] at returned
  | ok call =>
    simp only [called, bind, Except.bind] at returned
    split at returned
    · rename_i errno failed
      exact absurd failed (selects call errno)
    · cases returned
      exact ⟨0, rfl⟩
    · rename_i sets _ _
      cases filled : writeEvents sets traversal.entries 0 outEvents with
      | error fault => simp [filled] at returned
      | ok outcome =>
        simp only [filled, pure, Except.pure] at returned
        cases returned
        exact ⟨outcome.fst, rfl⟩

/-- No bit adds nothing to a mask. -/
theorem or_none (mask : EventMask) : (mask ||| EventMask.none) = mask := by
  change EventMask.mk (mask.bits ||| 0) = mask
  rw [UInt8.or_zero]

/-- A mask starts from no bit. -/
theorem none_or (mask : EventMask) : (EventMask.none ||| mask) = mask := by
  change EventMask.mk (0 ||| mask.bits) = mask
  rw [UInt8.zero_or]

/-- A socket is requested when some entry of it has the bit. In a map there is only
one entry of it. -/
theorem mem_requested (bit : EventMask) (entries : List Entry) (fd : Int) :
    fd ∈ requested bit entries ↔ ∃ mask, ⟨fd, mask⟩ ∈ entries ∧ mask.has bit = true := by
  simp only [requested, List.mem_toFinset, List.mem_map, List.mem_filter]
  constructor
  · rintro ⟨⟨sock, mask⟩, ⟨member, asked⟩, rfl⟩
    exact ⟨mask, member, asked⟩
  · rintro ⟨mask, member, asked⟩
    exact ⟨⟨fd, mask⟩, ⟨member, asked⟩, rfl⟩

/-- One bit of an entry is set, where the socket is in range, and nothing else is. -/
theorem set_if_has_requested {entry : Entry} (inRange : InRange entry.fst) (bit : EventMask)
    (set : FdSet) :
    setIfHas entry.fst entry.snd bit set = .ok (requested bit [entry] ∪ set) := by
  cases asked : entry.snd.has bit with
  | false => simp [setIfHas, requested, asked]
  | true => simp [setIfHas, requested, asked, fdSet, inRange]

/-- With all sockets in range, the first loop adds the requested sockets to each
set and raises `max_fd` to the largest descriptor. -/
theorem build_sets_exact (entries : List Entry)
    (inRange : ∀ entry ∈ entries, InRange entry.fst) (sets : FdSets) (maxFd : Int) :
    buildSets entries sets maxFd =
      .ok ({ readfds := requested .read entries ∪ sets.readfds
             writefds := requested .write entries ∪ sets.writefds
             exceptfds := requested .error entries ∪ sets.exceptfds },
        (entries.map Sigma.fst).foldl max maxFd) := by
  induction entries generalizing sets maxFd with
  | nil => simp [buildSets, requested]
  | cons entry rest inductionHypothesis =>
    have first : InRange entry.fst := inRange entry List.mem_cons_self
    have later (other) (member : other ∈ rest) : InRange other.fst :=
      inRange other (List.mem_cons_of_mem entry member)
    have raised : (if entry.fst > maxFd then entry.fst else maxFd) = max maxFd entry.fst := by
      split
      · omega
      · omega
    have merged (bit : EventMask) (set : FdSet) :
        requested bit rest ∪ (requested bit [entry] ∪ set) = requested bit (entry :: rest) ∪ set := by
      ext fd
      simp only [Finset.mem_union, mem_requested, List.mem_cons, List.not_mem_nil, or_false]
      constructor
      · rintro (⟨mask, member, asked⟩ | ⟨mask, same, asked⟩ | old)
        · exact Or.inl ⟨mask, Or.inr member, asked⟩
        · exact Or.inl ⟨mask, Or.inl same, asked⟩
        · exact Or.inr old
      · rintro (⟨mask, same | member, asked⟩ | old)
        · exact Or.inr (Or.inl ⟨mask, same, asked⟩)
        · exact Or.inl ⟨mask, member, asked⟩
        · exact Or.inr (Or.inr old)
    simp only [buildSets, set_if_has_requested first, bind, Except.bind, raised]
    rw [inductionHypothesis later, merged, merged, merged]
    rfl

/-- The largest descriptor bounds all of them, the initial value included. -/
theorem foldl_max_bounds (fds : List Int) (maxFd : Int) :
    maxFd ≤ fds.foldl max maxFd ∧ ∀ fd ∈ fds, fd ≤ fds.foldl max maxFd := by
  induction fds generalizing maxFd with
  | nil => simp
  | cons fd rest inductionHypothesis =>
    obtain ⟨start, others⟩ := inductionHypothesis (max maxFd fd)
    constructor
    · exact le_trans (le_max_left maxFd fd) start
    · intro other member
      rcases List.mem_cons.mp member with rfl | later
      · exact le_trans (le_max_right maxFd other) start
      · exact others other later

/-- The largest of descriptors below a bound is below it, if the initial value is. -/
theorem foldl_max_below {bound : Int} (fds : List Int) (maxFd : Int) (start : maxFd < bound)
    (below : ∀ fd ∈ fds, fd < bound) : fds.foldl max maxFd < bound := by
  induction fds generalizing maxFd with
  | nil => exact start
  | cons fd rest inductionHypothesis =>
    apply inductionHypothesis
    · exact max_lt start (below fd List.mem_cons_self)
    · exact fun other member => below other (List.mem_cons_of_mem fd member)

/-- With all sockets in range the call of `::select` is reached, and asks for exactly
what the entries ask for. -/
theorem select_call_exact (entries : List Entry)
    (inRange : ∀ entry ∈ entries, InRange entry.fst) (timeoutMs : Int) :
    ∃ call, selectCall entries timeoutMs = .ok call ∧
      call.sets = ⟨requested .read entries, requested .write entries,
        requested .error entries⟩ ∧
      call.timeout = timeval timeoutMs ∧ ∀ entry ∈ entries, entry.fst < call.nfds := by
  have below : (entries.map Sigma.fst).foldl max 0 < fdSetSize := by
    apply foldl_max_below
    · decide
    · intro fd member
      obtain ⟨entry, listed, rfl⟩ := List.mem_map.mp member
      exact (inRange entry listed).2
  have fits : (entries.map Sigma.fst).foldl max 0 < intMax := by
    unfold fdSetSize at below
    unfold intMax
    omega
  refine ⟨⟨(entries.map Sigma.fst).foldl max 0 + 1, _, _⟩, ?_, rfl, rfl, ?_⟩
  · simp only [selectCall, build_sets_exact entries inRange, nextFd, fits, bind, Except.bind, pure,
      Except.pure, Finset.union_empty, ↓reduceIte]
    rfl
  · intro entry member
    have bounded := (foldl_max_bounds (entries.map Sigma.fst) 0).2 entry.fst
      (List.mem_map_of_mem member)
    simp only
    omega

/-- Among entries with unique keys, a ready bit is ready and requested when the
answer leaves only requested bits. -/
theorem fired_mask_exact {entries : List Entry} (unique : entries.NodupKeys) {sets : FdSets}
    (readfds : sets.readfds ⊆ requested .read entries)
    (writefds : sets.writefds ⊆ requested .write entries)
    (exceptfds : sets.exceptfds ⊆ requested .error entries) {entry : Entry}
    (listed : entry ∈ entries) (inRange : InRange entry.fst) :
    firedMask entry.fst sets = .ok (readyBits sets entry) := by
  have asked (bit : EventMask) (set : FdSet) (within : set ⊆ requested bit entries)
      (member : entry.fst ∈ set) : entry.snd.has bit = true := by
    obtain ⟨mask, other, asked⟩ := (mem_requested bit entries entry.fst).mp (within member)
    have same : mask = entry.snd := List.NodupKeys.eq_of_mk_mem unique other listed
    exact same ▸ asked
  have added (bit fired : EventMask) (set : FdSet) (within : set ⊆ requested bit entries) :
      addIfSet entry.fst set bit fired =
        .ok (fired ||| if entry.snd.has bit ∧ entry.fst ∈ set then bit else .none) := by
    by_cases ready : entry.fst ∈ set
    · simp [addIfSet, fdIsset, inRange, ready, asked bit set within ready, bind, Except.bind, pure,
        Except.pure]
    · simp [addIfSet, fdIsset, inRange, ready, bind, Except.bind, pure, Except.pure,
        or_none]
  simp only [firedMask, added .read _ _ readfds, added .write _ _ writefds,
    added .error _ _ exceptfds, bind, Except.bind, none_or, readyBits]

/-- Where the fired mask of each entry is its ready bits, the second loop fills
the span with the ready events. -/
theorem write_events_exact {sets : FdSets} (entries : List Entry)
    (fires : ∀ entry ∈ entries, firedMask entry.fst sets = .ok (readyBits sets entry))
    (written : Nat) (outEvents : List PollEvent) :
    writeEvents sets entries written outEvents =
      .ok (fill (readyEvent sets) entries written outEvents) := by
  induction entries generalizing written outEvents with
  | nil => rfl
  | cons entry rest inductionHypothesis =>
    have first := fires entry List.mem_cons_self
    have later (other) (member : other ∈ rest) : firedMask other.fst sets = _ :=
      fires other (List.mem_cons_of_mem entry member)
    by_cases full : outEvents.length ≤ written
    · simp [writeEvents, fill, full]
    · by_cases ready : readyBits sets entry = .none
      · have skipped : readyEvent sets entry = none := by simp [readyEvent, ready]
        simp only [writeEvents, fill, full, first, ready, skipped, bind, Except.bind, ne_eq,
          not_true_eq_false, ↓reduceIte]
        exact inductionHypothesis later written outEvents
      · have chosen : readyEvent sets entry = some ⟨entry.fst, readyBits sets entry⟩ := by
          simp [readyEvent, ready]
        simp only [writeEvents, fill, full, first, ready, chosen, bind, Except.bind, ne_eq,
          not_false_eq_true, ↓reduceIte]
        exact inductionHypothesis later (written + 1) _

/-- The read bit is reported only where it was requested and is ready. -/
theorem ready_bits_read {sets : FdSets} {entry : Entry}
    (reported : (readyBits sets entry).has .read = true) :
    entry.snd.has .read = true ∧ entry.fst ∈ sets.readfds := by
  unfold readyBits at reported
  split at reported
  · rename_i ready
    exact ready
  · split at reported <;> split at reported <;> exact absurd reported (by decide)

/-- The write bit is reported only where it was requested and is ready. -/
theorem ready_bits_write {sets : FdSets} {entry : Entry}
    (reported : (readyBits sets entry).has .write = true) :
    entry.snd.has .write = true ∧ entry.fst ∈ sets.writefds := by
  unfold readyBits at reported
  split at reported <;> split at reported
  · rename_i ready
    exact ready
  · split at reported <;> exact absurd reported (by decide)
  · rename_i ready
    exact ready
  · split at reported <;> exact absurd reported (by decide)

/-- Of a socket that is not registered for errors, the read bit or the write bit is
reported, if anything is. -/
theorem ready_bits_cases {sets : FdSets} {entry : Entry}
    (reported : readyBits sets entry ≠ .none) (quiet : entry.snd.has .error = false) :
    (readyBits sets entry).has .read = true ∨ (readyBits sets entry).has .write = true := by
  unfold readyBits at reported ⊢
  simp only [quiet, Bool.false_eq_true, false_and, ↓reduceIte] at reported ⊢
  split <;> split
  · exact Or.inl (by decide)
  · exact Or.inl (by decide)
  · exact Or.inr (by decide)
  · rename_i unread unwritten
    rw [if_neg unread, if_neg unwritten] at reported
    exact absurd rfl reported

/-- A ready event is that of an entry with a ready requested bit, and has exactly
these bits. -/
theorem ready_event_some {sets : FdSets} {entry : Entry} {event : PollEvent}
    (chosen : readyEvent sets entry = some event) :
    event = ⟨entry.fst, readyBits sets entry⟩ ∧ readyBits sets entry ≠ .none := by
  unfold readyEvent at chosen
  split at chosen
  · rename_i ready
    cases chosen
    exact ⟨rfl, ready⟩
  · cases chosen

/-- The ready events of the entries are as many as there are ready sockets. -/
theorem ready_events_count (sets : FdSets) (entries : List Entry) :
    (entries.filterMap (readyEvent sets)).length =
      entries.countP fun entry => readyBits sets entry ≠ .none := by
  induction entries with
  | nil => rfl
  | cons entry rest inductionHypothesis =>
    by_cases ready : readyBits sets entry = .none
    · have skipped : readyEvent sets entry = none := by simp [readyEvent, ready]
      simp [skipped, ready, inductionHypothesis]
    · have chosen : readyEvent sets entry = some ⟨entry.fst, readyBits sets entry⟩ := by
        simp [readyEvent, ready]
      simp [chosen, ready, inductionHypothesis]

/-- The sockets of the ready events are sockets of the entries, in their order, so
none is reported twice. -/
theorem ready_events_sockets (sets : FdSets) (entries : List Entry) :
    ((entries.filterMap (readyEvent sets)).map PollEvent.socket).Sublist
      (entries.map Sigma.fst) := by
  induction entries with
  | nil => exact List.Sublist.refl _
  | cons entry rest inductionHypothesis =>
    cases chosen : readyEvent sets entry with
    | none =>
      rw [List.filterMap_cons_none chosen]
      exact inductionHypothesis.cons entry.fst
    | some event =>
      obtain ⟨rfl, _⟩ := ready_event_some chosen
      rw [List.filterMap_cons_some chosen, List.map_cons, List.map_cons]
      exact inductionHypothesis.cons_cons entry.fst

section Waiting

variable {poller : SelectPoller}

/-- A traversal visits each socket once. -/
theorem traversal_unique (traversal : Traversal poller) : traversal.entries.NodupKeys :=
  (List.perm_nodupKeys traversal.perm).mpr poller.interest.nodupKeys

/-- What a traversal visits is what is registered, with the mask of the registration.
-/
theorem traversal_mem (traversal : Traversal poller) (fd : Int) (mask : EventMask) :
    ⟨fd, mask⟩ ∈ traversal.entries ↔ poller.interest.lookup fd = some mask := by
  rw [traversal.perm.mem_iff]
  exact AList.mem_lookup_iff.symm

/-- The call of `::select` over a traversal requests what is registered, whatever the
order of the traversal. -/
theorem traversal_requests (traversal : Traversal poller)
    (inRange : ∀ fd ∈ poller.interest, InRange fd) (timeoutMs : Int) :
    ∃ call, selectCall traversal.entries timeoutMs = .ok call ∧ Requests poller call ∧
      call.sets = ⟨requested .read traversal.entries, requested .write traversal.entries,
        requested .error traversal.entries⟩ := by
  have entryRange (entry) (listed : entry ∈ traversal.entries) : InRange entry.fst := by
    apply inRange
    rw [← AList.lookup_isSome, (traversal_mem traversal entry.fst entry.snd).mp listed]
    rfl
  obtain ⟨call, called, sets, _, covers⟩ := select_call_exact traversal.entries entryRange timeoutMs
  have requests (bit : EventMask) (fd : Int) : fd ∈ requested bit traversal.entries ↔
      ∃ mask, poller.interest.lookup fd = some mask ∧ mask.has bit = true := by
    simp only [mem_requested, traversal_mem]
  refine ⟨call, called, ⟨?_, ?_, ?_, ?_⟩, sets⟩
  · rw [sets]
    exact requests .read
  · rw [sets]
    exact requests .write
  · rw [sets]
    exact requests .error
  · intro fd registered
    obtain ⟨mask, known⟩ := Option.isSome_iff_exists.mp (AList.lookup_isSome.mpr registered)
    exact covers ⟨fd, mask⟩ ((traversal_mem traversal fd mask).mpr known)

/-- Filling the span with the ready events of a traversal reports exactly, as many as
fit. -/
theorem fill_reports (traversal : Traversal poller) (sets : FdSets) (outEvents : List PollEvent) :
    ∃ written after, fill (readyEvent sets) traversal.entries 0 outEvents = (written, after) ∧
      Reports poller sets outEvents after written := by
  obtain ⟨written, after, filled, count, front, behind, length⟩ :=
    fill_from_front (readyEvent sets) traversal.entries outEvents
  refine ⟨written, after, filled, ?_, ?_, ?_, behind, length⟩
  · rw [count, ready_events_count, traversal.perm.countP_eq]
  · have visited : (traversal.entries.map Sigma.fst).Nodup := traversal_unique traversal
    rw [front, List.map_take]
    apply List.Sublist.nodup _ visited
    exact (List.take_sublist _ _).trans (ready_events_sockets sets traversal.entries)
  · intro event member
    rw [front] at member
    obtain ⟨entry, listed, chosen⟩ := List.mem_filterMap.mp (List.mem_of_mem_take member)
    obtain ⟨rfl, ready⟩ := ready_event_some chosen
    exact ⟨entry.snd, (traversal_mem traversal entry.fst entry.snd).mp listed, ready, rfl⟩

/-- An answer that leaves no bit makes no socket ready, so the span stays as it was.
-/
theorem nothing_ready {call : SelectCall} {sets : FdSets} (honest : Honest call 0 sets)
    (outEvents : List PollEvent) : Reports poller sets outEvents outEvents 0 := by
  have total := honest.total
  have readfds : sets.readfds = ∅ := Finset.card_eq_zero.mp (by omega)
  have writefds : sets.writefds = ∅ := Finset.card_eq_zero.mp (by omega)
  have exceptfds : sets.exceptfds = ∅ := Finset.card_eq_zero.mp (by omega)
  have unready (entry : Entry) : readyBits sets entry = .none := by
    simp [readyBits, readfds, writefds, exceptfds, or_none]
  constructor
  · simp [unready]
  · exact List.nodup_nil
  · intro event member
    simp at member
  · rfl
  · rfl

end Waiting

/-- Waiting reports readiness exactly. For descriptors that fit into an `fd_set`
and a nonempty span, whatever the order of the traversal: the call of `::select`
asks for the bits of each registered mask, and after every honest answer the span
holds exactly as many ready sockets as there are or as fit, each once and with its
ready bits. The interest map stays as it was. -/
theorem wait_exact (poller : SelectPoller) (inRange : ∀ fd ∈ poller.interest, InRange fd)
    (traversal : Traversal poller) (outEvents : List PollEvent) (room : outEvents ≠ [])
    (timeoutMs : Int) (select : SelectCall → SelectAnswer) :
    ∃ call, selectCall traversal.entries timeoutMs = .ok call ∧ Requests poller call ∧
      ∀ count sets, select call = .returned count sets → Honest call count sets →
        ∃ written after, wait poller traversal outEvents timeoutMs select =
            .ok ⟨.ok written, after, poller⟩ ∧
          Reports poller sets outEvents after written := by
  obtain ⟨call, called, requests, asked⟩ := traversal_requests traversal inRange timeoutMs
  refine ⟨call, called, requests, ?_⟩
  intro count sets answered honest
  cases count with
  | zero =>
    refine ⟨0, outEvents, ?_, nothing_ready honest outEvents⟩
    simp [wait, room, called, answered, bind, Except.bind, pure, Except.pure]
  | succ others =>
    have fires (entry) (listed : entry ∈ traversal.entries) :
        firedMask entry.fst sets = .ok (readyBits sets entry) := by
      obtain ⟨readfds, writefds, exceptfds, _⟩ := honest
      rw [asked] at readfds writefds exceptfds
      apply fired_mask_exact (traversal_unique traversal) readfds writefds exceptfds listed
      apply inRange
      rw [← AList.lookup_isSome, (traversal_mem traversal entry.fst entry.snd).mp listed]
      rfl
    obtain ⟨written, after, filled, reports⟩ := fill_reports traversal sets outEvents
    refine ⟨written, after, ?_, reports⟩
    simp [wait, room, called, answered, write_events_exact traversal.entries fires, filled, bind,
      Except.bind, pure, Except.pure]

/-- Four registered sockets, the last of them for nothing. -/
def fourSockets : SelectPoller :=
  ((((SelectPoller.upsert {} 3 .read).2.upsert 4 (.read ||| .write)).2.upsert 5
    (.write ||| .error)).2.upsert 6 .none).2

/-- Socket 3 is readable, socket 4 readable and writable, and socket 5 has an error. -/
def threeReady : FdSets := { readfds := {3, 4}, writefds := {4}, exceptfds := {5} }

/-- Three of four sockets are ready, with four bits of all three kinds, and the span has room
for two of them. Two events are written, each with the ready bits of its socket. -/
theorem wait_exact_truncated :
    ∃ written after,
      wait fourSockets ⟨fourSockets.interest.entries, .refl _⟩ [⟨-1, .none⟩, ⟨-1, .none⟩] 0
          (fun _ => .returned 4 threeReady) = .ok ⟨.ok written, after, fourSockets⟩ ∧
      Reports fourSockets threeReady [⟨-1, .none⟩, ⟨-1, .none⟩] after written ∧
      written = 2 ∧ ∀ event ∈ after.take written,
        event ∈ ([⟨3, .read⟩, ⟨4, .read ||| .write⟩, ⟨5, .error⟩] : List PollEvent) := by
  have inRange : ∀ fd ∈ fourSockets.interest, InRange fd := by decide
  obtain ⟨call, _, requests, reported⟩ := wait_exact fourSockets inRange
    ⟨fourSockets.interest.entries, .refl _⟩ [⟨-1, .none⟩, ⟨-1, .none⟩] (by simp) 0
    (fun _ => .returned 4 threeReady)
  have honest : Honest call 4 threeReady := by
    refine ⟨?_, ?_, ?_, by decide⟩
    · intro fd member
      simp only [threeReady, Finset.mem_insert, Finset.mem_singleton] at member
      rcases member with rfl | rfl
      · exact (requests.readfds 3).mpr ⟨.read, rfl, rfl⟩
      · exact (requests.readfds 4).mpr ⟨.read ||| .write, rfl, rfl⟩
    · intro fd member
      obtain rfl := Finset.mem_singleton.mp member
      exact (requests.writefds 4).mpr ⟨.read ||| .write, rfl, rfl⟩
    · intro fd member
      obtain rfl := Finset.mem_singleton.mp member
      exact (requests.exceptfds 5).mpr ⟨.write ||| .error, rfl, rfl⟩
  obtain ⟨written, after, returned, reports⟩ := reported 4 threeReady rfl honest
  refine ⟨written, after, returned, reports, reports.count.trans (by decide), ?_⟩
  rintro ⟨socket, mask⟩ member
  obtain ⟨registered, found, some_bit, ready⟩ := reports.exact _ member
  simp only at found some_bit ready
  subst ready
  have entries : fourSockets.interest.entries =
      [⟨6, .none⟩, ⟨5, .write ||| .error⟩, ⟨4, .read ||| .write⟩, ⟨3, .read⟩] := rfl
  have listed := AList.mem_lookup_iff.mp found
  simp only [entries, List.mem_cons, List.not_mem_nil, or_false] at listed
  rcases listed with same | same | same | same <;> cases same
  · exact absurd rfl some_bit
  · decide
  · decide
  · decide

end TcpServer.SelectWait
