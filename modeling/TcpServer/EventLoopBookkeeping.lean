import Mathlib.Data.List.Infix
import TcpServer.EventLoop
import TcpServer.InterestTracking

/-!
# The bookkeeping of the event loop

The interest map of the poller mirrors the slots: between two events it lists
the listener and, for each slot, its descriptor with the interest that its write
buffer calls for, and nothing else. While a handler is at work this holds of
all other slots, and the handler's own descriptor is registered.

The slots matter up to their order only. Handling an index takes its slot out of
the list; a removal by moving the last slot into the hole is a removal.
-/

namespace TcpServer.EventLoop

open EchoConnection Acceptor InterestTracking Registry Transition

/-- The entry of the listener in the interest map. It stays there from its
registration on. -/
def listening (listener : Socket) : Registration := ⟨listener.nativeHandle, .read⟩

/-- The entries that the slots call for, each with the mask that its write buffer
calls for. -/
def registrations (slots : List ConnSlot) : List Registration :=
  slots.map fun slot => registration slot.conn

/-- The interest map is exactly what listener and slots call for, and every slot has
an open socket. -/
structure Bookkept (server : Server) : Prop where
  valid : ∀ slot ∈ server.slots, slot.conn.socket.valid = true
  lists : Lists server.poller.interest (listening server.listener :: registrations server.slots)

/-- The same while a handler works on the slot at `index`, whose entry follows the
phase of the handler instead. -/
structure BookkeptBut (server : Server) (index : Nat) (phase : Phase) : Prop where
  valid : ∀ slot ∈ server.slots, slot.conn.socket.valid = true
  tracked : ∃ slot, server.slots[index]? = some slot ∧
    Tracked (listening server.listener :: registrations (server.slots.eraseIdx index))
      ⟨slot, server.poller, server.completions, phase⟩

/-- What holds at each place of the loop over a batch. An abort ends the process; a
fault cannot be reached. -/
def HandlingKept (server : Server) : Handling → Prop
  | .dispatching _ | .accepting _ => Bookkept server
  | .serving index _ phase _ => BookkeptBut server index phase
  | .aborted _ => True
  | .faulted _ => False

/-- What holds at each place of `run_server`. Behind the cleaning up there is nothing
to keep. -/
def Kept (state : State) : Prop :=
  match state.place with
  | .top | .cleaning => Bookkept state.server
  | .handling place => HandlingKept state.server place
  | .finished => True

/-- The descriptors that the server holds open: that of its listener, and those of its
slots. -/
def openDescriptors (server : Server) : List Int :=
  server.listener.nativeHandle :: handles server.slots

/-- The kernel hands out only descriptors that are not open. It may hand out one that
was closed a moment ago. -/
def HandsOutClosed (state : State) (choice : Choice) : Prop :=
  ∀ descriptor : Nat, choice.accept = .accepted descriptor →
    (descriptor : Int) ∉ openDescriptors state.server

section Slots

variable {slots : List ConnSlot} {slot : ConnSlot} {index : Nat}

/-- The keys of the entries are the descriptors. -/
theorem registrations_keys (slots : List ConnSlot) : (registrations slots).keys = handles slots := by
  simp [registrations, handles, List.keys, registration]

/-- The entries of the slots, with the slot at an index in front. -/
theorem registrations_focus (found : slots[index]? = some slot) :
    (registrations slots).Perm (registration slot.conn :: registrations (slots.eraseIdx index)) := by
  obtain ⟨inside, rfl⟩ := List.getElem?_eq_some_iff.mp found
  exact ((List.getElem_cons_eraseIdx_perm inside).map _).symm

/-- The same after the slot at the index has been overwritten. -/
theorem registrations_set (found : slots[index]? = some slot) (served : ConnSlot) :
    (registrations (slots.set index served)).Perm
      (registration served.conn :: registrations (slots.eraseIdx index)) := by
  obtain ⟨inside, _⟩ := List.getElem?_eq_some_iff.mp found
  exact (List.set_perm_cons_eraseIdx inside served).map _

/-- Removing an overwritten slot leaves the others. -/
theorem removed_perm (found : slots[index]? = some slot) (served : ConnSlot) :
    (swapPop (slots.set index served) index).Perm (slots.eraseIdx index) := by
  obtain ⟨inside, _⟩ := List.getElem?_eq_some_iff.mp found
  have popped : (swapPop (slots.set index served) index).Perm
      ((slots.set index served).eraseIdx index) := swap_pop_perm (by simpa)
  rwa [List.eraseIdx_set_eq] at popped

/-- The index that was found holds a slot with the descriptor. -/
theorem found_slot {h : Int} (found : findSlotIndex slots h = some index) :
    ∃ slot, slots[index]? = some slot ∧ slot.conn.nativeHandle = h := by
  obtain ⟨inside, matching, _⟩ := List.findIdx?_eq_some_iff_getElem.mp found
  exact ⟨slots[index], List.getElem?_eq_getElem inside, by simpa using matching⟩

end Slots

/-- The server after a pass whose handler goes on or returns with its slot. The slot
is stored back at its index. -/
def stored (server : Server) (index : Nat) (served : ServerState) : Server :=
  { server with
    slots := server.slots.set index served.slot
    poller := served.poller
    completions := served.completions }

/-- All that a pass of a handler can do to the server: the connection's own effect,
and where the loop goes on. -/
inductive HandlerMove (server : Server) (index : Nat) (socket : Int) (phase : Phase)
    (rest : List PollEvent) : Server → Handling → List Event → Prop where
  | outOfRange (missing : server.slots[index]? = none) :
      HandlerMove server index socket phase rest server (.faulted .outOfBounds) []
  | closed {slot : ConnSlot} {served : ServerState} (found : server.slots[index]? = some slot)
      (effect : Effect ⟨slot, server.poller, server.completions, phase⟩ served)
      (after : served.phase = .peerClosed) :
      HandlerMove server index socket phase rest
        { stored server index served with
          slots := swapPop (stored server index served).slots index }
        (.dispatching rest) [.removed slot.conn.nativeHandle]
  | returned {slot : ConnSlot} {served : ServerState} (found : server.slots[index]? = some slot)
      (effect : Effect ⟨slot, server.poller, server.completions, phase⟩ served)
      (after : served.phase = .waiting) :
      HandlerMove server index socket phase rest (stored server index served)
        (.dispatching rest) []
  | leaves {slot : ConnSlot} {served : ServerState} (found : server.slots[index]? = some slot)
      (effect : Effect ⟨slot, server.poller, server.completions, phase⟩ served)
      (before : settled phase = true) (after : served.phase = .flushing .eventLoop) :
      HandlerMove server index socket phase rest (stored server index served)
        (writeEvent (stored server index served) socket rest) []
  | goesOn {slot : ConnSlot} {served : ServerState} (found : server.slots[index]? = some slot)
      (effect : Effect ⟨slot, server.poller, server.completions, phase⟩ served) :
      HandlerMove server index socket phase rest (stored server index served)
        (.serving index socket served.phase rest) []
  | aborted {slot : ConnSlot} {served : ServerState} {cause : EchoConnection.Abort}
      (found : server.slots[index]? = some slot)
      (effect : Effect ⟨slot, server.poller, server.completions, phase⟩ served) :
      HandlerMove server index socket phase rest (stored server index served)
        (.aborted (.handler cause)) []
  | faulted {slot : ConnSlot} {served : ServerState} {fault : Fault}
      (found : server.slots[index]? = some slot)
      (effect : Effect ⟨slot, server.poller, server.completions, phase⟩ served)
      (after : served.phase = .faulted fault) :
      HandlerMove server index socket phase rest (stored server index served) (.faulted fault) []

section Batch

variable {endian : Endian} {maxPayloadBytes : UInt64} {scratchSize : Nat} {server next : Server}
  {index : Nat} {slot : ConnSlot}

/-- A handler may start on any slot whose index was found. -/
theorem bookkept_focus (bookkept : Bookkept server) (found : server.slots[index]? = some slot) :
    Lists server.poller.interest (registration slot.conn :: listening server.listener ::
      registrations (server.slots.eraseIdx index)) := by
  apply lists_perm bookkept.lists
  exact ((registrations_focus found).cons _).trans (List.Perm.swap _ _ _)

/-- The handlers find the bookkeeping in order for the slot they start on. -/
theorem bookkept_but {phase : Phase} (bookkept : Bookkept server)
    (found : server.slots[index]? = some slot)
    (starts : settled phase = true ∨ flushing phase = true) :
    BookkeptBut server index phase := by
  refine ⟨bookkept.valid, slot, found, ?_⟩
  have lists := bookkept_focus bookkept found
  cases starts with
  | inl before => exact (tracked_settled before).mpr lists
  | inr before => exact (tracked_flushing before).mpr ⟨_, lists⟩

/-- The write handler starts on a slot that was found, or not at all. -/
theorem write_event_kept (bookkept : Bookkept server) (socket : Int) (rest : List PollEvent) :
    HandlingKept server (writeEvent server socket rest) := by
  unfold writeEvent
  cases found : findSlotIndex server.slots socket with
  | none => exact bookkept
  | some widx =>
    obtain ⟨slot, standing, _⟩ := found_slot found
    exact bookkept_but bookkept standing (Or.inr rfl)

/-- An event of a connection starts a handler on a slot that was found, or none. -/
theorem connection_event_kept (bookkept : Bookkept server) (event : PollEvent)
    (rest : List PollEvent) : HandlingKept server (connectionEvent server event rest) := by
  unfold connectionEvent
  cases found : findSlotIndex server.slots event.socket with
  | none => exact bookkept
  | some idx =>
    obtain ⟨slot, standing, _⟩ := found_slot found
    simp only
    split
    · exact bookkept_but bookkept standing (Or.inl rfl)
    · split
      · exact write_event_kept bookkept event.socket rest
      · exact bookkept

/-- An event of the listener leaves the bookkeeping alone. -/
theorem listener_event_kept (bookkept : Bookkept server) (event : PollEvent)
    (rest : List PollEvent) : HandlingKept server (listenerEvent event rest) := by
  unfold listenerEvent
  split <;> exact bookkept

/-- All that a pass of the accept loop can do: end the burst or the server, or add
a slot for a new descriptor together with its registration. -/
theorem accept_pass_cases (server : Server) (rest : List PollEvent) (choice : Choice) :
    (∃ place events, acceptPass server rest choice = (server, place, events) ∧
      (place = .dispatching rest ∨ ∃ cause, place = .aborted cause)) ∨
    ∃ socket poller, acceptOne server.listener choice.accept = .ok socket ∧
      poller.interest = server.poller.interest.insert socket.nativeHandle .read ∧
      acceptPass server rest choice =
        ({ server with slots := server.slots ++ [{ conn := { socket } }], poller },
          .accepting rest, [.accepted socket.nativeHandle, .added socket.nativeHandle]) := by
  unfold acceptPass
  cases returned : acceptAndRegister SelectPoller.upsert server.listener server.poller
      choice.accept choice.flags with
  | mk result poller =>
    cases accept_and_register_cases returned with
    | inl failed =>
      obtain ⟨error, rfl, rfl⟩ := failed
      refine Or.inl ⟨_, _, rfl, ?_⟩
      split
      · exact Or.inl rfl
      · exact Or.inr ⟨_, rfl⟩
    | inr registered =>
      obtain ⟨socket, accepted, rfl, inserted⟩ := registered
      refine Or.inr ⟨socket, poller, accepted, inserted, ?_⟩
      simp only [accepted]
      rfl

/-- A pass of the accept loop keeps the bookkeeping: the new descriptor is not
open, so it is no key yet. -/
theorem accept_pass_kept {choice : Choice} (bookkept : Bookkept server)
    (fresh : ∀ descriptor : Nat, choice.accept = .accepted descriptor →
      (descriptor : Int) ∉ openDescriptors server) (rest : List PollEvent) :
    HandlingKept (acceptPass server rest choice).1 (acceptPass server rest choice).2.1 := by
  cases accept_pass_cases server rest choice with
  | inl ends =>
    obtain ⟨place, events, same, ended⟩ := ends
    rw [same]
    cases ended with
    | inl returns =>
      rw [returns]
      exact bookkept
    | inr aborts =>
      obtain ⟨cause, aborts⟩ := aborts
      rw [aborts]
      trivial
  | inr adds =>
    obtain ⟨socket, poller, accepted, inserted, same⟩ := adds
    obtain ⟨valid, descriptor, answered, handle⟩ := accepted_valid accepted
    rw [same]
    refine ⟨?_, ?_⟩
    · intro slot member
      cases List.mem_append.mp member with
      | inl old => exact bookkept.valid slot old
      | inr new =>
        rw [List.mem_singleton.mp new]
        exact valid
    · have absent : socket.nativeHandle ∉
          (listening server.listener :: registrations server.slots).keys := by
        rw [List.keys_cons, registrations_keys, handle]
        exact fresh descriptor answered
      have lists := lists_insert bookkept.lists absent EventMask.read
      simp only [inserted]
      apply lists_perm lists
      simp only [registrations, List.map_append, List.map_cons, List.map_nil]
      exact (List.perm_append_singleton _ (listening server.listener ::
        List.map (fun slot => registration slot.conn) server.slots)).symm

/-- Storing a slot back on its descriptor keeps every slot valid. -/
theorem stored_valid {served : ServerState} (valid : ∀ slot ∈ server.slots,
      slot.conn.socket.valid = true) (found : server.slots[index]? = some slot)
    (handle : served.slot.conn.nativeHandle = slot.conn.nativeHandle) :
    ∀ slot ∈ (stored server index served).slots, slot.conn.socket.valid = true := by
  have own := (valid_iff slot.conn).mp (valid slot (List.mem_of_getElem? found))
  intro other member
  cases List.mem_or_eq_of_mem_set member with
  | inl old => exact valid other old
  | inr new =>
    rw [new, valid_iff, handle]
    exact own

/-- A handler that returns with its interest up to date leaves everything in order. -/
theorem stored_bookkept {served : ServerState}
    (valid : ∀ slot ∈ (stored server index served).slots, slot.conn.socket.valid = true)
    (found : server.slots[index]? = some slot)
    (lists : Lists served.poller.interest (registration served.slot.conn ::
      listening server.listener :: registrations (server.slots.eraseIdx index))) :
    Bookkept (stored server index served) := by
  refine ⟨valid, lists_perm lists ?_⟩
  apply List.Perm.trans (List.Perm.swap _ _ _)
  exact ((registrations_set found served.slot).symm).cons _

/-- A handler that goes on leaves the bookkeeping in order but for its slot. -/
theorem stored_bookkept_but {served : ServerState}
    (valid : ∀ slot ∈ (stored server index served).slots, slot.conn.socket.valid = true)
    (found : server.slots[index]? = some slot)
    (tracked : Tracked (listening server.listener ::
      registrations (server.slots.eraseIdx index)) served) :
    BookkeptBut (stored server index served) index served.phase := by
  obtain ⟨inside, _⟩ := List.getElem?_eq_some_iff.mp found
  refine ⟨valid, served.slot, List.getElem?_set_self inside, ?_⟩
  simp only [stored, List.eraseIdx_set_eq]
  exact tracked

/-- The peer has closed: the slot goes together with its registration. -/
theorem removed_bookkept {served : ServerState}
    (valid : ∀ slot ∈ (stored server index served).slots, slot.conn.socket.valid = true)
    (found : server.slots[index]? = some slot)
    (lists : Lists served.poller.interest
      (listening server.listener :: registrations (server.slots.eraseIdx index))) :
    Bookkept { stored server index served with
      slots := swapPop (stored server index served).slots index } := by
  have removed := removed_perm found served.slot
  refine ⟨?_, lists_perm lists ((removed.map _).symm.cons _)⟩
  intro other member
  have left : other ∈ (server.slots.set index served.slot).eraseIdx index := by
    rw [List.eraseIdx_set_eq]
    exact removed.mem_iff.mp member
  exact valid other (List.mem_of_mem_eraseIdx left)

/-- Only the receive loop leaves for the write handler. -/
theorem leaves_read_handler {before after : Phase} (leaves : leavesReadHandler before after = true) :
    settled before = true ∧ after = .flushing .eventLoop := by
  unfold leavesReadHandler at leaves
  split at leaves
  · exact ⟨rfl, rfl⟩
  · cases leaves

/-- A pass of a handler makes one of these moves. Whether the slot is stored or
removed depends on where the handler stands behind the pass. -/
theorem serve_pass_move {socket : Int} {phase : Phase} {rest : List PollEvent} {choice : Choice}
    {place : Handling} {events : List Event}
    (passed : servePass endian maxPayloadBytes scratchSize server index socket phase rest choice =
      some (next, place, events)) :
    HandlerMove server index socket phase rest next place events := by
  unfold servePass at passed
  cases found : server.slots[index]? with
  | none =>
    simp only [found] at passed
    cases passed
    exact .outOfRange found
  | some slot =>
    simp only [found] at passed
    cases stepped : serverStep endian maxPayloadBytes scratchSize
        ⟨slot, server.poller, server.completions, phase⟩
        { recv := choice.recv, send := choice.send } with
    | none => simp [stepped] at passed
    | some result =>
      obtain ⟨served, emitted⟩ := result
      have effect := server_step_effect stepped
      simp only [stepped] at passed
      cases after : served.phase with
      | waiting =>
        simp only [after] at passed
        cases passed
        exact .returned found effect after
      | peerClosed =>
        obtain ⟨inside, _⟩ := List.getElem?_eq_some_iff.mp found
        simp only [after, removeSlot, List.getElem?_set_self inside,
          ← effect_closed effect after] at passed
        cases passed
        exact .closed found effect after
      | aborted cause =>
        simp only [after] at passed
        cases passed
        exact .aborted found effect
      | faulted fault =>
        simp only [after] at passed
        cases passed
        exact .faulted found effect after
      | receiving thenWrite | decoding thenWrite | flushing caller =>
        simp only [after] at passed
        split at passed
        · rename_i leaving
          obtain ⟨before, onward⟩ := leaves_read_handler leaving
          cases passed
          exact .leaves found effect before (after.trans onward)
        · cases passed
          rw [← after]
          exact .goesOn found effect

/-- A pass of a handler keeps the bookkeeping of the other slots, and returns with
that of its own slot in order. In front of the write handler the slot is looked up
again; the read handler has left everything in order there. -/
theorem handler_move_kept {socket : Int} {phase : Phase} {rest : List PollEvent}
    {place : Handling} {events : List Event} (bookkept : BookkeptBut server index phase)
    (move : HandlerMove server index socket phase rest next place events) :
    HandlingKept next place := by
  obtain ⟨allValid, slot, found, tracked⟩ := bookkept
  have own : slot.conn.socket.valid = true := allValid slot (List.mem_of_getElem? found)
  cases move with
  | outOfRange missing => simp [found] at missing
  | aborted => trivial
  | closed same effect after =>
    obtain rfl := Option.some.inj (found.symm.trans same)
    have left := effect_tracked tracked own effect
    simp only [Tracked, after] at left
    exact removed_bookkept (stored_valid allValid found (effect_handle effect)) found left
  | returned same effect after =>
    obtain rfl := Option.some.inj (found.symm.trans same)
    have left := effect_tracked tracked own effect
    apply stored_bookkept (stored_valid allValid found (effect_handle effect)) found
    exact (tracked_settled (by rw [after]; rfl)).mp left
  | leaves same effect before after =>
    obtain rfl := Option.some.inj (found.symm.trans same)
    have left := effect_leaves ((tracked_settled before).mp tracked) effect before after
    apply write_event_kept
    exact stored_bookkept (stored_valid allValid found (effect_handle effect)) found left
  | goesOn same effect =>
    obtain rfl := Option.some.inj (found.symm.trans same)
    exact stored_bookkept_but (stored_valid allValid found (effect_handle effect)) found
      (effect_tracked tracked own effect)
  | faulted same effect after =>
    obtain rfl := Option.some.inj (found.symm.trans same)
    have left := effect_tracked tracked own effect
    simp only [Tracked, after] at left

/-- Accepting keeps the listener, whatever `accept_one` answers. Only the slots and
the interest map grow. -/
theorem accept_pass_listener (server : Server) (rest : List PollEvent) (choice : Choice) :
    (acceptPass server rest choice).1.listener = server.listener := by
  cases accept_pass_cases server rest choice with
  | inl ends =>
    obtain ⟨place, events, same, _⟩ := ends
    rw [same]
  | inr adds =>
    obtain ⟨socket, poller, _, _, same⟩ := adds
    rw [same]

/-- A handler keeps the listener as well: it works on the slot that it serves, and at
its end drops or keeps it. -/
theorem handler_move_listener {socket : Int} {phase : Phase} {rest : List PollEvent}
    {place : Handling} {events : List Event}
    (move : HandlerMove server index socket phase rest next place events) :
    next.listener = server.listener := by
  cases move <;> rfl

/-- The cleaning up behind the loop keeps the listener too. It closes the connections
only. -/
theorem pop_slot_listener (server : Server) : (popSlot server).listener = server.listener := by
  unfold popSlot
  split <;> rfl

/-- Popping the last slot after the main loop erases its registration. -/
theorem pop_slot_kept (bookkept : Bookkept server) : Bookkept (popSlot server) := by
  unfold popSlot
  cases last : server.slots.getLast? with
  | none => exact bookkept
  | some back =>
    obtain ⟨front, split⟩ := List.getLast?_eq_some_iff.mp last
    refine ⟨?_, ?_⟩
    · intro slot member
      exact bookkept.valid slot (List.mem_of_mem_dropLast member)
    · have popped : Lists server.poller.interest
          (registration back.conn :: listening server.listener :: registrations front) := by
        apply lists_perm bookkept.lists
        rw [split]
        simp only [registrations, List.map_append, List.map_cons, List.map_nil]
        exact List.perm_append_singleton _ (listening server.listener ::
          List.map (fun slot => registration slot.conn) front)
      simp only [split, List.dropLast_concat]
      exact lists_erase popped

end Batch

/-- All that a step of the server can do, one rule for each. Every invariant of the
loop is proved over these rules. -/
inductive ServerMove (choice : Choice) : State → State → List Event → Prop where
  | leaves (server : Server) : ServerMove choice ⟨server, .top⟩ ⟨server, .cleaning⟩ []
  | waitFails (server : Server) {error : PollError} (answered : choice.batch = .error error) :
      ServerMove choice ⟨server, .top⟩ ⟨server, .handling (.aborted (.waitFailed error))⟩ []
  | waits (server : Server) {batch : List PollEvent} (answered : choice.batch = .ok batch) :
      ServerMove choice ⟨server, .top⟩ ⟨server, .handling (.dispatching batch)⟩ []
  | batchEnds (server : Server) :
      ServerMove choice ⟨server, .handling (.dispatching [])⟩ ⟨server, .top⟩ []
  | listenerReady {server : Server} {event : PollEvent} (rest : List PollEvent)
      (own : event.socket = server.listener.nativeHandle) :
      ServerMove choice ⟨server, .handling (.dispatching (event :: rest))⟩
        ⟨server, .handling (listenerEvent event rest)⟩ []
  | connectionReady {server : Server} {event : PollEvent} (rest : List PollEvent)
      (other : event.socket ≠ server.listener.nativeHandle) :
      ServerMove choice ⟨server, .handling (.dispatching (event :: rest))⟩
        ⟨server, .handling (connectionEvent server event rest)⟩ []
  | accepts (server : Server) (rest : List PollEvent) :
      ServerMove choice ⟨server, .handling (.accepting rest)⟩
        ⟨(acceptPass server rest choice).1, .handling (acceptPass server rest choice).2.1⟩
        (acceptPass server rest choice).2.2
  | handles {server served : Server} {index : Nat} {socket : Int} {phase : Phase}
      {rest : List PollEvent} {place : Handling} {events : List Event}
      (move : HandlerMove server index socket phase rest served place events) :
      ServerMove choice ⟨server, .handling (.serving index socket phase rest)⟩
        ⟨served, .handling place⟩ events
  | pops (server : Server) :
      ServerMove choice ⟨server, .cleaning⟩ ⟨popSlot server, .cleaning⟩ []
  | finishes (server : Server) :
      ServerMove choice ⟨server, .cleaning⟩
        ⟨{ server with poller := (unregisterListener server.listener server.poller).2 },
          .finished⟩ []

section Runs

variable {endian : Endian} {state next : State} {choice : Choice} {events : List Event}

/-- The loop starts with the listener registered, or not at all. -/
theorem opened_kept (listener : Socket) : Kept (opened listener) := by
  unfold opened registerListener SelectPoller.upsert
  by_cases invalid : listener.nativeHandle = kInvalidSocket
  · simp only [invalid, ↓reduceIte]
    trivial
  · simp only [invalid, ↓reduceIte]
    refine ⟨by simp, ?_⟩
    apply lists_insert lists_empty
    exact List.not_mem_nil

/-- A step of the server is one of the moves at the place where it stands. This is the
one lemma that unfolds `runServer`; all invariants are read off the moves. -/
theorem run_server_move (stepped : runServer endian state choice = some (next, events)) :
    ServerMove choice state next events := by
  obtain ⟨server, place⟩ := state
  cases place with
  | top =>
    simp only [runServer] at stepped
    split at stepped
    · cases stepped
      exact .leaves server
    · split at stepped
      · cases stepped
        exact .leaves server
      · cases answered : choice.batch with
        | error error =>
          simp only [answered] at stepped
          cases stepped
          exact .waitFails server answered
        | ok batch =>
          simp only [answered] at stepped
          cases stepped
          exact .waits server answered
  | handling handling =>
    cases handling with
    | dispatching batch =>
      cases batch with
      | nil =>
        cases stepped
        exact .batchEnds server
      | cons event rest =>
        simp only [runServer] at stepped
        split at stepped
        · rename_i own
          cases stepped
          exact .listenerReady rest own
        · rename_i other
          cases stepped
          exact .connectionReady rest other
    | accepting rest =>
      cases stepped
      exact .accepts server rest
    | serving index socket phase rest =>
      simp only [runServer] at stepped
      cases passed : servePass endian kMaxPayload scratchSize server index socket phase rest
          choice with
      | none => simp [passed] at stepped
      | some result =>
        simp only [passed] at stepped
        cases stepped
        exact .handles (serve_pass_move passed)
    | aborted cause => cases stepped
    | faulted fault => cases stepped
  | cleaning =>
    simp only [runServer] at stepped
    split at stepped
    · cases stepped
      exact .finishes server
    · cases stepped
      exact .pops server
  | finished => cases stepped

/-- A step of the server keeps the bookkeeping. -/
theorem step_kept (kept : Kept state) (fresh : HandsOutClosed state choice)
    (stepped : runServer endian state choice = some (next, events)) : Kept next := by
  cases run_server_move stepped with
  | leaves | waits | batchEnds => exact kept
  | waitFails | finishes => trivial
  | listenerReady rest own => exact listener_event_kept kept _ rest
  | connectionReady rest other => exact connection_event_kept kept _ rest
  | accepts server rest => exact accept_pass_kept kept fresh rest
  | handles move => exact handler_move_kept kept move
  | pops server => exact pop_slot_kept kept

/-- No step of the server changes its listener. -/
theorem step_listener (stepped : runServer endian state choice = some (next, events)) :
    next.server.listener = state.server.listener := by
  cases run_server_move stepped with
  | leaves | waits | waitFails | batchEnds | listenerReady | connectionReady | finishes => rfl
  | accepts server rest => exact accept_pass_listener server rest choice
  | handles move => exact handler_move_listener move
  | pops server => exact pop_slot_listener server

/-- Along every run the bookkeeping is kept, for the listener the run started with. -/
theorem run_kept {listener : Socket} {history : List Event}
    (run : Run (echoServer endian) HandsOutClosed (opened listener) state history) :
    Kept state ∧ state.server.listener = listener := by
  apply run_invariant (fun state _ => Kept state ∧ state.server.listener = listener) ?_ ?_ run
  · refine ⟨opened_kept listener, ?_⟩
    unfold opened
    split <;> rfl
  · rintro state history choice next events _ ⟨kept, same⟩ fresh stepped
    exact ⟨step_kept kept fresh stepped, (step_listener stepped).trans same⟩

/-- The places where no handler is at work: before and after each event, and
between two connections of an accept burst. -/
def Place.betweenEvents : Place → Bool
  | .top | .handling (.dispatching _) | .handling (.accepting _) | .cleaning => true
  | .handling (.serving ..) | .handling (.aborted _) | .handling (.faulted _) | .finished => false

/-- Between events everything is in order. -/
theorem kept_between (kept : Kept state) (between : state.place.betweenEvents = true) :
    Bookkept state.server := by
  obtain ⟨server, place⟩ := state
  cases place with
  | top | cleaning => exact kept
  | finished => cases between
  | handling handling =>
    cases handling with
    | dispatching batch | accepting rest => exact kept
    | serving index socket phase rest => cases between
    | aborted cause => cases between
    | faulted fault => cases between

/-- The bookkeeping of the event loop. In every run of the server, with any
batches of events, any answers of the kernel to its calls, and only closed
descriptors handed out by `accept`: the server never reaches outside its slots or
fails an assert of its buffers. Whenever no handler is at work, the descriptors of
the slots are pairwise distinct; the keys of the interest map are exactly the
listener and these descriptors; and each connection is registered for reading and
writing when its write buffer has bytes, and exactly for reading when it is empty. -/
theorem bookkeeping_exact (endian : Endian) (listener : Socket) (state : State)
    (history : List Event)
    (run : Run (echoServer endian) HandsOutClosed (opened listener) state history) :
    (∀ fault, state.place ≠ .handling (.faulted fault)) ∧
    (state.place.betweenEvents = true →
      (handles state.server.slots).Nodup ∧
      (∀ socket, socket ∈ state.server.poller.interest ↔
        socket = listener.nativeHandle ∨ socket ∈ handles state.server.slots) ∧
      ∀ slot ∈ state.server.slots,
        state.server.poller.interest.lookup slot.conn.nativeHandle =
          some (if slot.conn.writeBuf = [] then .read else .read ||| .write)) := by
  obtain ⟨kept, same⟩ := run_kept run
  refine ⟨?_, ?_⟩
  · intro fault standing
    rw [Kept, standing] at kept
    exact kept
  · intro between
    have bookkept := kept_between kept between
    have keys : (listening state.server.listener :: registrations state.server.slots).keys =
        listener.nativeHandle :: handles state.server.slots := by
      rw [List.keys_cons, registrations_keys, ← same]
      rfl
    have distinct := lists_nodup bookkept.lists
    rw [keys] at distinct
    refine ⟨distinct.of_cons, ?_, ?_⟩
    · intro socket
      rw [lists_mem bookkept.lists, keys]
      exact List.mem_cons
    · intro slot member
      apply lists_lookup bookkept.lists
      exact List.mem_cons_of_mem _ (List.mem_map_of_mem member)

/-- The condition on the kernel, for a choice that is replayed. It is decidable, so
that a run can be checked step by step. -/
def handsOutClosed (state : State) (choice : Choice) : Bool :=
  match choice.accept with
  | .accepted descriptor => decide ((descriptor : Int) ∉ openDescriptors state.server)
  | .failed _ => true

/-- The check of the condition on the kernel is right. -/
theorem hands_out_closed_sound (state : State) (choice : Choice)
    (passed : handsOutClosed state choice = true) : HandsOutClosed state choice := by
  intro descriptor answered
  rw [handsOutClosed, answered] at passed
  exact of_decide_eq_true passed

/-- Two connections are accepted, the first is closed by its peer, and its
descriptor is handed out again while the second sits in its slot. -/
def recycledDescriptor : List Choice :=
  [{ batch := .ok [⟨3, .read⟩] }, {}, { accept := .accepted 5 }, { accept := .accepted 6 }, {}, {},
    { batch := .ok [⟨5, .read⟩, ⟨3, .read⟩] }, {}, { recv := [.received []] }, {},
    { accept := .accepted 5 }]

/-- The bookkeeping on such a run, between two connections of its last burst. -/
theorem bookkeeping_exact_recycled :
    ∃ (state : State) (history : List Event),
      Run (echoServer .little) HandsOutClosed (opened ⟨3⟩) state history ∧
        handles state.server.slots = [6, 5] ∧ (handles state.server.slots).Nodup := by
  obtain ⟨state, history, run, observed⟩ :=
    replay_exhibits_under (echoServer .little) (opened ⟨3⟩) handsOutClosed hands_out_closed_sound
      (fun final => decide (handles final.1.server.slots = [6, 5]) &&
        final.1.place.betweenEvents) recycledDescriptor (by decide)
  obtain ⟨left, between⟩ := (Bool.and_eq_true _ _).mp observed
  obtain ⟨distinct, _⟩ := (bookkeeping_exact .little ⟨3⟩ state history run).2 between
  exact ⟨state, history, run, of_decide_eq_true left, distinct⟩

end Runs

end TcpServer.EventLoop
