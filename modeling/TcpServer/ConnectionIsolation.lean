import TcpServer.ConnectionTraces

/-!
# Isolation of the connections

The event loop keeps all connections in one vector, moves their slots about, and is
given descriptors again that it has closed. To each connection it is a server of its
own: from the moment it was accepted, what the handlers have done for it is a run of
the echo server on that connection alone, with the same deliveries and the same
acceptances in the same order, and the interest map says of it what that run says.

What is proved of one connection so holds of each of them in the loop. The bytes of a
connection are accounted for whatever the others send; but a handler that aborts ends
the loop for all of them.
-/

namespace TcpServer.EventLoop

open EchoConnection EchoConservation Acceptor FrameCodec FrameDecoder FrameEncoder InterestTracking
  Registry SocketIo Transition PrefixDecoder AtomicObjects

/-- A condition on the calls of the handlers, as it reads for a connection alone. A
waiting connection makes none. -/
def Permitted (permits : ConnSlot → Phase → EchoConnection.Choice → Prop) (state : ServerState)
    (choice : EchoConnection.Choice) : Prop :=
  state.phase = .waiting ∨ permits state.slot state.phase choice

/-- The same condition as it reads for the loop, for the handler that is at work, with
a kernel that hands out closed descriptors. -/
structure Lawful (permits : ConnSlot → Phase → EchoConnection.Choice → Prop) (state : State)
    (choice : Choice) : Prop where
  closed : HandsOutClosed state choice
  call : ∀ index socket phase rest slot,
    state.place = .handling (.serving index socket phase rest) →
    state.server.slots[index]? = some slot →
    permits slot phase { recv := choice.recv, send := choice.send }

/-- How far the loop is with the connection on this descriptor. All but the one that
is served wait for their next event. -/
def Stands (place : Place) (handle : Int) (phase : Phase) : Prop :=
  match place with
  | .handling (.serving _ socket current _) =>
      phase = if socket = handle then current else .waiting
  | .handling (.aborted (.handler cause)) => phase = .waiting ∨ phase = .aborted cause
  | _ => phase = .waiting

/-- The loop has served this connection as the handlers serve it alone: there is a run
of its own with the same slot and the same exchange. -/
def Isolated (endian : Endian) (permits : ConnSlot → Phase → EchoConnection.Choice → Prop)
    (history : List Traced) (server : Server) (slot : ConnSlot) (phase : Phase) : Prop :=
  slot.conn.socket.valid = true ∧ ∃ single : ServerState,
    Run (EchoConnection.echoServer endian kMaxPayload scratchSize) (Permitted permits)
      (EchoConnection.opened slot.conn.socket) single
      (conversation slot.conn.nativeHandle history) ∧
    Alike ⟨slot, server.poller, 0, phase⟩ single

/-- The loop has served all its connections so. Where a handler has aborted, it is
that of one of them. -/
structure Separate (endian : Endian) (permits : ConnSlot → Phase → EchoConnection.Choice → Prop)
    (state : State) (history : List Traced) : Prop where
  distinct : (handles state.server.slots).Nodup
  served : ∀ index socket phase rest,
    state.place = .handling (.serving index socket phase rest) →
    serving phase = true ∧
      ∃ slot, state.server.slots[index]? = some slot ∧ slot.conn.nativeHandle = socket
  alone : ∀ slot ∈ state.server.slots, ∃ phase, Stands state.place slot.conn.nativeHandle phase ∧
    Isolated endian permits history state.server slot phase
  blamed : ∀ cause, state.place = .handling (.aborted (.handler cause)) →
    ∃ slot ∈ state.server.slots,
      Isolated endian permits history state.server slot (.aborted cause)

/-- The places where every connection waits for its next event. -/
def Place.quiet : Place → Bool
  | .handling (.serving ..) | .handling (.aborted (.handler _)) => false
  | _ => true

/-- Between two handlers a connection waits, whichever it is. -/
theorem stands_quiet {place : Place} {handle : Int} {phase : Phase} (quiet : place.quiet = true) :
    Stands place handle phase ↔ phase = .waiting := by
  cases place with
  | top | cleaning | finished => rfl
  | handling handling =>
    cases handling with
    | dispatching _ | accepting _ | faulted _ => rfl
    | serving _ _ _ _ => cases quiet
    | aborted cause =>
      cases cause with
      | handler _ => cases quiet
      | registerFailed _ | waitFailed _ | acceptFailed _ | notStopped => rfl

section Steps

variable {endian : Endian} {permits : ConnSlot → Phase → EchoConnection.Choice → Prop}
  {history : List Traced} {server next : Server} {place after : Place}

/-- What concerns neither a connection's slot nor its descriptor leaves it isolated. -/
theorem isolated_elsewhere {slot : ConnSlot} {phase : Phase} {longer : List Traced}
    (isolated : Isolated endian permits history server slot phase)
    (said : conversation slot.conn.nativeHandle longer =
      conversation slot.conn.nativeHandle history)
    (interest : next.poller.interest.lookup slot.conn.nativeHandle =
      server.poller.interest.lookup slot.conn.nativeHandle) :
    Isolated endian permits longer next slot phase := by
  obtain ⟨valid, single, run, alike⟩ := isolated
  exact ⟨valid, single, said ▸ run, alike.slot, alike.phase, alike.interest.trans interest.symm⟩

/-- Places where every connection waits are the same to the connections. -/
theorem separate_quiet (separate : Separate endian permits ⟨server, place⟩ history)
    (before : place.quiet = true) (behind : after.quiet = true) :
    Separate endian permits ⟨server, after⟩ history := by
  refine ⟨separate.distinct, ?_, ?_, ?_⟩
  · rintro index socket phase rest rfl
    cases behind
  · intro slot member
    obtain ⟨phase, stands, isolated⟩ := separate.alone slot member
    exact ⟨phase, (stands_quiet behind).mpr ((stands_quiet before).mp stands), isolated⟩
  · rintro cause rfl
    cases behind

/-- An event starts a handler on the slot with its descriptor, as it would for the
connection alone. -/
theorem separate_starts {index : Nat} {slot : ConnSlot} {phase : Phase} (mask : EventMask)
    (rest : List PollEvent) (separate : Separate endian permits ⟨server, place⟩ history)
    (before : place.quiet = true) (found : server.slots[index]? = some slot)
    (inCharge : serving phase = true)
    (starts : ∀ state : ServerState, handleEvent state mask = { state with phase := phase }) :
    Separate endian permits
      ⟨server, .handling (.serving index slot.conn.nativeHandle phase rest)⟩ history := by
  refine ⟨separate.distinct, ?_, ?_, ?_⟩
  · rintro _ _ _ _ ⟨⟩
    exact ⟨inCharge, slot, found, rfl⟩
  · intro other member
    obtain ⟨earlier, stands, valid, single, run, alike⟩ := separate.alone other member
    rw [stands_quiet before] at stands
    subst stands
    by_cases own : slot.conn.nativeHandle = other.conn.nativeHandle
    · refine ⟨phase, by simp only [Stands, own, ↓reduceIte], valid, handleEvent single mask, ?_, ?_⟩
      · rw [← List.append_nil (conversation _ _)]
        have alone : serverStep endian kMaxPayload scratchSize single { mask } =
            some (handleEvent single mask, []) := by
          simp only [serverStep, alike.phase]
        exact Run.step run (Or.inl alike.phase) alone
      · rw [starts]
        exact ⟨alike.slot, rfl, alike.interest⟩
    · exact ⟨.waiting, by simp only [Stands, own, ↓reduceIte], valid, single, run, alike⟩
  · rintro _ ⟨⟩

section Served

variable {index : Nat} {slot : ConnSlot} {phase : Phase} {served : ServerState}
  {longer : List Traced}

/-- Neither way does the pass change the poller again behind the handler. -/
theorem left_behind_poller : (leftBehind server index served).poller = served.poller := by
  unfold leftBehind
  split <;> rfl

/-- The slot that a handler has left behind, among the others. -/
theorem separate_stored (distinct : (handles server.slots).Nodup)
    (found : server.slots[index]? = some slot)
    (handle : served.slot.conn.nativeHandle = slot.conn.nativeHandle)
    (own : Isolated endian permits longer (stored server index served) served.slot served.phase)
    (others : ∀ other ∈ server.slots.eraseIdx index,
      Isolated endian permits longer (stored server index served) other .waiting)
    (stands : Stands place slot.conn.nativeHandle served.phase)
    (elsewhere : ∀ descriptor, descriptor ≠ slot.conn.nativeHandle →
      Stands place descriptor .waiting)
    (serves : ∀ index' socket phase rest, place = .handling (.serving index' socket phase rest) →
      serving phase = true ∧
        ∃ other, (stored server index served).slots[index']? = some other ∧
          other.conn.nativeHandle = socket)
    (blames : ∀ cause, place = .handling (.aborted (.handler cause)) →
      served.phase = .aborted cause) :
    Separate endian permits ⟨stored server index served, place⟩ longer := by
  have members (other : ConnSlot) := (slots_set found served.slot).mem_iff (a := other)
  refine ⟨set_distinct distinct found handle, serves, ?_, ?_⟩
  · intro other member
    cases List.mem_cons.mp ((members other).mp member) with
    | inl same =>
      subst same
      exact ⟨served.phase, handle ▸ stands, own⟩
    | inr rest =>
      exact ⟨.waiting, elsewhere _ (others_differ distinct found rest), others other rest⟩
  · intro cause aborted
    exact ⟨served.slot, (members _).mpr List.mem_cons_self, blames cause aborted ▸ own⟩

/-- The slot that is gone leaves the others alone. -/
theorem separate_closed (distinct : (handles server.slots).Nodup)
    (found : server.slots[index]? = some slot) (closed : served.phase = .peerClosed)
    (others : ∀ other ∈ server.slots.eraseIdx index,
      Isolated endian permits longer (leftBehind server index served) other .waiting)
    (rest : List PollEvent) :
    Separate endian permits
      ⟨leftBehind server index served, .handling (.dispatching rest)⟩ longer := by
  have left : (leftBehind server index served).slots.Perm (server.slots.eraseIdx index) := by
    simp only [leftBehind, closed]
    exact removed_perm found served.slot
  refine ⟨?_, (by rintro _ _ _ _ ⟨⟩), ?_, (by rintro _ ⟨⟩)⟩
  · rw [distinct_perm left]
    exact distinct.sublist ((List.eraseIdx_sublist _ _).map _)
  · intro other member
    exact ⟨.waiting, rfl, others other (left.mem_iff.mp member)⟩

/-- A handler that goes on, or the write handler behind the read handler, has the
slot that it is for. -/
theorem onward_serves {socket : Int} (phase other : Phase) (rest : List PollEvent)
    (found : server.slots[index]? = some slot) (same : slot.conn.nativeHandle = socket)
    (goesOn : other ≠ .waiting) (inCharge : serving other = true) :
    ∃ index' slot', onward server index socket phase other rest =
        .serving index' socket other rest ∧
      server.slots[index']? = some slot' ∧ slot'.conn.nativeHandle = socket := by
  cases other with
  | waiting => exact absurd rfl goesOn
  | peerClosed | aborted _ | faulted _ => cases inCharge
  | receiving _ | decoding _ | flushing _ =>
    simp only [onward]
    split
    · rename_i leaving
      obtain ⟨_, onto⟩ := leaves_read_handler leaving
      obtain ⟨widx, standing, serves, within, handle⟩ := write_event_serves server socket rest
        (mem_handles.mpr ⟨slot, List.mem_of_getElem? found, same⟩)
      exact ⟨widx, standing, by rw [serves, onto], within, handle⟩
    · exact ⟨index, slot, rfl, found, same⟩

/-- A pass of a handler is a pass of its connection's own run, and no other
connection notices it. -/
theorem separate_pass {socket : Int} {rest : List PollEvent} {choice : EchoConnection.Choice}
    {said : List EchoConnection.Event} {events : List Event}
    (separate : Separate endian permits ⟨server, .handling (.serving index socket phase rest)⟩
      history)
    (found : server.slots[index]? = some slot) (permitted : permits slot phase choice)
    (stepped : serverStep endian kMaxPayload scratchSize
      ⟨slot, server.poller, server.completions, phase⟩ choice = some (served, said))
    (old : ∀ handle, .added handle ∉ events) :
    Separate endian permits
      ⟨leftBehind server index served,
        .handling (onward (stored server index served) index socket phase served.phase rest)⟩
      (history ++ ((said.map (Exchange.mk slot.conn.nativeHandle)).map .inl ++ events.map .inr)) := by
  obtain ⟨inside, _⟩ := List.getElem?_eq_some_iff.mp found
  obtain ⟨_, _, also, same⟩ := separate.served _ _ _ _ rfl
  obtain rfl := Option.some.inj (found.symm.trans also)
  have effect := server_step_effect stepped
  have handle := effect_handle effect
  simp only at handle
  -- The connection whose handler is at work makes the same step alone.
  have own : Isolated endian permits
      (history ++ ((said.map (Exchange.mk slot.conn.nativeHandle)).map .inl ++ events.map .inr))
      (leftBehind server index served) served.slot served.phase := by
    obtain ⟨earlier, stands, valid, single, run, alike⟩ :=
      separate.alone slot (List.mem_of_getElem? found)
    simp only [Stands, same, ↓reduceIte] at stands
    subst stands
    have before : Alike ⟨slot, server.poller, server.completions, earlier⟩ single :=
      ⟨alike.slot, alike.phase, alike.interest⟩
    obtain ⟨after, alone, alikeAfter⟩ := server_step_alone before stepped
    have socketSame : served.slot.conn.socket = slot.conn.socket := congrArg Socket.mk handle
    refine ⟨socketSame ▸ valid, after, ?_, alikeAfter.slot, alikeAfter.phase, ?_⟩
    · rw [handle, socketSame, ← List.append_assoc, conversation_loop (old _), conversation_own]
      refine Run.step run (Or.inr ?_) alone
      rw [alike.slot, alike.phase]
      exact permitted
    · rw [left_behind_poller]
      exact alikeAfter.interest
  have others : ∀ other ∈ server.slots.eraseIdx index, Isolated endian permits
      (history ++ ((said.map (Exchange.mk slot.conn.nativeHandle)).map .inl ++ events.map .inr))
      (leftBehind server index served) other .waiting := by
    intro other member
    have differs := others_differ separate.distinct found member
    obtain ⟨earlier, stands, isolated⟩ := separate.alone other (List.mem_of_mem_eraseIdx member)
    have apart : socket ≠ other.conn.nativeHandle := fun equal => differs (by rw [same, equal])
    simp only [Stands, apart, ↓reduceIte] at stands
    subst stands
    refine isolated_elsewhere isolated ?_ ?_
    · rw [← List.append_assoc, conversation_loop (old _), conversation_other differs.symm]
    · rw [left_behind_poller]
      exact effect_elsewhere effect differs
  have standing : (stored server index served).slots[index]? = some served.slot :=
    List.getElem?_set_self inside
  cases after : served.phase with
  | peerClosed => exact separate_closed separate.distinct found after others rest
  | faulted fault => exact absurd after (effect_not_faulted effect fault)
  | waiting =>
    simp only [leftBehind, after] at own others ⊢
    exact separate_stored separate.distinct found handle (after.symm ▸ own) others after
      (fun _ _ => rfl) (by rintro _ _ _ _ ⟨⟩) (by rintro _ ⟨⟩)
  | aborted cause =>
    simp only [leftBehind, after] at own others ⊢
    exact separate_stored separate.distinct found handle (after.symm ▸ own) others (Or.inr after)
      (fun _ _ => Or.inl rfl) (by rintro _ _ _ _ ⟨⟩) (by rintro _ ⟨⟩; exact after)
  | receiving thenWrite | decoding thenWrite | flushing caller =>
    simp only [leftBehind, after] at own others ⊢
    obtain ⟨index', slot', serves, within, descriptor⟩ :=
      onward_serves phase served.phase rest standing (handle.trans same) (by simp [after])
        (by rw [after]; rfl)
    rw [after] at serves
    rw [serves]
    refine separate_stored separate.distinct found handle (after.symm ▸ own) others ?_ ?_ ?_
      (by rintro _ ⟨⟩)
    · simp only [Stands, same, ↓reduceIte]
      exact after
    · intro other different
      have apart : socket ≠ other := fun equal => different (by rw [same, equal])
      simp only [Stands, apart, ↓reduceIte]
    · rintro _ _ _ _ ⟨⟩
      exact ⟨rfl, slot', within, descriptor⟩

end Served

/-- A pass of the accept loop that does not go on adds no connection and blames none. -/
theorem accept_pass_quiet (server : Server) (rest : List PollEvent) (choice : Choice) :
    (acceptPass server rest choice).2.1 = .accepting rest ∨
      (Place.handling (acceptPass server rest choice).2.1).quiet = true ∧
        ∀ handle, .added handle ∉ (acceptPass server rest choice).2.2 := by
  unfold acceptPass
  cases returned : acceptAndRegister SelectPoller.upsert server.listener server.poller
      choice.accept choice.flags with
  | mk result poller =>
    cases result with
    | ok conn => exact Or.inl rfl
    | error error =>
      refine Or.inr ⟨?_, ?_⟩
      · simp only
        split <;> rfl
      · intro handle
        simp only
        split <;> simp

/-- A pass of the accept loop adds a connection that has said nothing, or none. The
descriptor is new, so the conversations of the others go on where they were, and the
new one starts behind whatever an earlier connection of that number has said. -/
theorem separate_accept {rest : List PollEvent} {choice : Choice}
    (separate : Separate endian permits ⟨server, .handling (.accepting rest)⟩ history)
    (fresh : ∀ descriptor : Nat, choice.accept = .accepted descriptor →
      (descriptor : Int) ∉ openDescriptors server) :
    Separate endian permits
      ⟨(acceptPass server rest choice).1, .handling (acceptPass server rest choice).2.1⟩
      (history ++ (acceptPass server rest choice).2.2.map .inr) := by
  have waiting : ∀ slot ∈ server.slots,
      Isolated endian permits history server slot .waiting := by
    intro slot member
    obtain ⟨_, rfl, isolated⟩ := separate.alone slot member
    exact isolated
  cases accept_pass_cases server rest choice with
  | inl ends =>
    obtain ⟨place, events, same, ended⟩ := ends
    have quiet := accept_pass_quiet server rest choice
    rw [same] at quiet ⊢
    simp only at quiet ⊢
    have stopped : place ≠ .accepting rest := by
      rintro rfl
      simp at ended
    obtain ⟨quiet, old⟩ := quiet.resolve_left stopped
    refine ⟨separate.distinct, ?_, ?_, ?_⟩
    · rintro _ _ _ _ ⟨⟩
      cases quiet
    · intro slot member
      refine ⟨.waiting, (stands_quiet quiet).mpr rfl, ?_⟩
      exact isolated_elsewhere (waiting slot member) (conversation_loop (old _)) rfl
    · rintro _ ⟨⟩
      cases quiet
  | inr adds =>
    obtain ⟨socket, poller, accepted, inserted, same⟩ := adds
    obtain ⟨valid, descriptor, answered, handle⟩ := accepted_valid accepted
    have absent : socket.nativeHandle ∉ handles server.slots := by
      rw [handle]
      exact fun member => fresh descriptor answered (List.mem_cons_of_mem _ member)
    rw [same]
    refine ⟨?_, (by rintro _ _ _ _ ⟨⟩), ?_, (by rintro _ ⟨⟩)⟩
    · rw [distinct_perm (List.perm_append_singleton _ _), handles, List.map_cons, List.nodup_cons]
      exact ⟨absent, separate.distinct⟩
    · intro slot member
      refine ⟨.waiting, rfl, ?_⟩
      cases List.mem_append.mp member with
      | inl old =>
        have differs : slot.conn.nativeHandle ≠ socket.nativeHandle := fun equal =>
          absent (equal ▸ List.mem_map_of_mem old)
        refine isolated_elsewhere (waiting slot old) ?_ ?_
        · refine conversation_loop ?_
          simp [differs]
        · simp only [inserted]
          exact AList.lookup_insert_ne differs
      | inr new =>
        rw [List.mem_singleton.mp new]
        have said := conversation_added socket.nativeHandle history [.accepted socket.nativeHandle]
        refine ⟨valid, EchoConnection.opened socket, ?_, rfl, rfl, ?_⟩
        · change Run _ _ _ _ (conversation socket.nativeHandle _)
          simp only [List.singleton_append] at said
          rw [said]
          exact Run.start
        · have handle : socket.nativeHandle ≠ kInvalidSocket := by
            simpa [Socket.valid, Socket.nativeHandle] using valid
          have alone : (EchoConnection.opened socket).poller.interest.lookup socket.nativeHandle =
              some .read := by
            simp only [EchoConnection.opened, SelectPoller.upsert, handle, ↓reduceIte]
            exact AList.lookup_insert _
          refine alone.trans ?_
          simp only [inserted]
          exact (AList.lookup_insert server.poller.interest).symm

/-- Popping the last slot after the main loop leaves the other connections alone. -/
theorem separate_pops (separate : Separate endian permits ⟨server, .cleaning⟩ history) :
    Separate endian permits ⟨popSlot server, .cleaning⟩ history := by
  unfold popSlot
  cases last : server.slots.getLast? with
  | none => exact separate
  | some back =>
    obtain ⟨front, split⟩ := List.getLast?_eq_some_iff.mp last
    have distinct := separate.distinct
    simp only at distinct
    rw [split, distinct_perm (List.perm_append_singleton _ _), handles, List.map_cons,
      List.nodup_cons] at distinct
    simp only [split, List.dropLast_concat]
    refine ⟨distinct.2, (by rintro _ _ _ _ ⟨⟩), ?_, (by rintro _ ⟨⟩)⟩
    intro slot member
    have differs : slot.conn.nativeHandle ≠ back.conn.nativeHandle := fun equal =>
      distinct.1 (equal ▸ List.mem_map_of_mem member)
    have within : slot ∈ server.slots := split ▸ List.mem_append_left _ member
    obtain ⟨phase, stands, isolated⟩ := separate.alone slot within
    refine ⟨phase, stands, isolated_elsewhere isolated rfl ?_⟩
    exact AList.lookup_erase_ne differs

/-- An event of a connection starts a handler for it, or none. -/
theorem separate_event {event : PollEvent} {rest : List PollEvent}
    (separate : Separate endian permits ⟨server, .handling (.dispatching (event :: rest))⟩
      history) :
    Separate endian permits ⟨server, .handling (connectionEvent server event rest)⟩ history := by
  unfold connectionEvent
  cases found : findSlotIndex server.slots event.socket with
  | none => exact separate_quiet separate rfl rfl
  | some idx =>
    obtain ⟨slot, standing, handle⟩ := found_slot found
    simp only
    split
    · rename_i readable
      rw [← handle]
      refine separate_starts event.mask rest separate rfl standing rfl (fun state => ?_)
      simp only [handleEvent, readable, ↓reduceIte]
    · rename_i silent
      split
      · rename_i writable
        obtain ⟨widx, other, serves, within, same⟩ := write_event_serves server event.socket rest
          (mem_handles.mpr ⟨slot, List.mem_of_getElem? standing, handle⟩)
        rw [serves, ← same]
        refine separate_starts event.mask rest separate rfl within rfl (fun state => ?_)
        simp only [handleEvent, silent, writable, Bool.false_eq_true, ↓reduceIte]
      · exact separate_quiet separate rfl rfl

/-- A step of the loop keeps its connections apart. The cases are the moves of the
loop: only accepting adds a connection, only a handler speaks, and only for the one it
serves. -/
theorem separate_step {state next : State} {choice : Choice} {events : List Traced}
    (separate : Separate endian permits state history) (lawful : Lawful permits state choice)
    (stepped : (tracedServer endian).step state choice = some (next, events)) :
    Separate endian permits next (history ++ events) := by
  obtain ⟨happened, ran, rfl⟩ := marked_step_cases stepped
  change runServer endian state choice = _ at ran
  cases run_server_move ran with
  | leaves server | waits server answered | waitFails server answered | batchEnds server =>
    change Separate endian permits _ (history ++ [])
    rw [List.append_nil]
    exact separate_quiet separate rfl rfl
  | listenerReady rest own =>
    change Separate endian permits _ (history ++ [])
    rw [List.append_nil]
    refine separate_quiet separate rfl ?_
    unfold listenerEvent
    split <;> rfl
  | connectionReady rest other =>
    change Separate endian permits _ (history ++ [])
    rw [List.append_nil]
    exact separate_event separate
  | accepts server rest => exact separate_accept separate lawful.closed
  | pops server =>
    change Separate endian permits _ (history ++ [])
    rw [List.append_nil]
    exact separate_pops separate
  | finishes server =>
    change Separate endian permits _ (history ++ [])
    rw [List.append_nil]
    have empty : server.slots = [] := by
      simp only [runServer] at ran
      split at ran
      · rename_i none
        exact List.isEmpty_iff.mp none
      · simp at ran
    refine ⟨separate.distinct, (by rintro _ _ _ _ ⟨⟩), ?_, (by rintro _ ⟨⟩)⟩
    intro slot member
    simp only [empty] at member
    cases member
  | @handles server served index socket phase rest place happened move =>
    obtain ⟨_, slot, found, same⟩ := separate.served _ _ _ _ rfl
    have passed : servePass endian kMaxPayload scratchSize server index socket phase rest
        choice = some (served, place, happened) := by
      simp only [runServer] at ran
      cases passed : servePass endian kMaxPayload scratchSize server index socket phase rest
          choice with
      | none => simp [passed] at ran
      | some result =>
        simp only [passed] at ran
        cases ran
        rfl
    obtain ⟨kept, said, alone, rfl, rfl, old⟩ := serve_pass_served found passed
    have calls : handlerEvents endian ⟨server, .handling (.serving index socket phase rest)⟩
        choice = said.map (Exchange.mk slot.conn.nativeHandle) := by
      simp only [handlerEvents, found, alone]
    rw [calls]
    exact separate_pass separate found (lawful.call _ _ _ _ _ rfl found) alone old

/-- The loop has no connection that its peer has closed. -/
theorem stands_open {state : State} {handle : Int} {phase : Phase}
    (separate : Separate endian permits state history)
    (stands : Stands state.place handle phase) : phase ≠ .peerClosed := by
  rintro rfl
  obtain ⟨server, place⟩ := state
  cases place with
  | top | cleaning | finished => cases stands
  | handling handling =>
    cases handling with
    | dispatching _ | accepting _ | faulted _ => cases stands
    | serving index socket current rest =>
      obtain ⟨inCharge, _⟩ := separate.served _ _ _ _ rfl
      simp only [Stands] at stands
      split at stands
      · rw [← stands] at inCharge
        cases inCharge
      · cases stands
    | aborted cause =>
      cases cause with
      | handler _ => cases stands with
        | inl waits => cases waits
        | inr aborts => cases aborts
      | registerFailed _ | waitFailed _ | acceptFailed _ | notStopped => cases stands

/-- Along every run the connections are apart. -/
theorem run_separate {listener : Socket} {state : State}
    (run : Run (tracedServer endian) (Lawful permits) (opened listener) state history) :
    Separate endian permits state history := by
  apply run_invariant (Separate endian permits) ?_ ?_ run
  · have none : (opened listener).server.slots = [] := by
      unfold opened
      split <;> rfl
    refine ⟨by rw [none]; exact List.nodup_nil, ?_, by simp [none], ?_⟩
    · intro index socket phase rest serves
      unfold opened at serves
      split at serves <;> cases serves
    · intro cause aborted
      unfold opened at aborted
      split at aborted <;> cases aborted
  · intro state history choice next events _ separate lawful stepped
    exact separate_step separate lawful stepped

/-- The connections of the event loop are isolated. In every run of the server, for any
batches of events and any answers of the kernel, with only closed descriptors handed
out: each connection that the server has is in the state that some run of the echo
server on it alone reaches, from the moment it was accepted, through the very deliveries
and acceptances that have passed over its descriptor since then and under any condition
that its calls have met in the loop. The interest map says of it what that run says, and
the run stands where the loop stands with the connection. Where a handler has aborted,
one of these runs has aborted for the same cause. -/
theorem connections_isolated (endian : Endian)
    (permits : ConnSlot → Phase → EchoConnection.Choice → Prop) (listener : Socket)
    (state : State) (history : List Traced)
    (run : Run (tracedServer endian) (Lawful permits) (opened listener) state history) :
    Run (echoServer endian) (Lawful permits) (opened listener) state (eventsOf history) ∧
    (handles state.server.slots).Nodup ∧
    (∀ slot ∈ state.server.slots, ∃ single : ServerState,
      Run (EchoConnection.echoServer endian kMaxPayload scratchSize) (Permitted permits)
          (EchoConnection.opened slot.conn.socket) single
          (conversation slot.conn.nativeHandle history) ∧
        single.slot = slot ∧
        single.poller.interest.lookup slot.conn.nativeHandle =
          state.server.poller.interest.lookup slot.conn.nativeHandle ∧
        Stands state.place slot.conn.nativeHandle single.phase) ∧
    ∀ cause, state.place = .handling (.aborted (.handler cause)) →
      ∃ slot ∈ state.server.slots, ∃ single : ServerState,
        Run (EchoConnection.echoServer endian kMaxPayload scratchSize) (Permitted permits)
            (EchoConnection.opened slot.conn.socket) single
            (conversation slot.conn.nativeHandle history) ∧
          single.slot = slot ∧ single.phase = .aborted cause := by
  have separate := run_separate run
  refine ⟨marked_erased run, separate.distinct, ?_, ?_⟩
  · intro slot member
    obtain ⟨phase, stands, _, single, alone, alike⟩ := separate.alone slot member
    exact ⟨single, alone, alike.slot, alike.interest, alike.phase.symm ▸ stands⟩
  · intro cause aborted
    obtain ⟨slot, member, _, single, alone, alike⟩ := separate.blamed cause aborted
    exact ⟨slot, member, single, alone, alike.slot, alike.phase⟩

/-- Two connections are accepted, the first is closed by its peer while the second
sits in its slot, and its descriptor is handed out again. The new connection sends a
frame and takes a part of the echo. -/
def recycledEcho : List Choice :=
  [{ batch := .ok [⟨3, .read⟩] }, {}, { accept := .accepted 5 }, { accept := .accepted 6 }, {}, {},
    { batch := .ok [⟨5, .read⟩, ⟨3, .read⟩] }, {}, { recv := [.received []] }, {},
    { accept := .accepted 5 }, {}, {}, { batch := .ok [⟨5, .read⟩] }, {},
    { recv := [.failed .eintr, .received [0, 0, 0, 1, 42]] }, {}, { send := [.sent 2] }]

/-- The conversation of the second connection on that descriptor is its own. -/
theorem connections_isolated_recycled :
    ∃ (state : State) (history : List Traced),
      Run (tracedServer .little) (Lawful fun _ _ _ => True) (opened ⟨3⟩) state history ∧
        conversation 5 history = [.received [0, 0, 0, 1, 42], .accepted [0, 0]] ∧
        ∃ single : ServerState,
          Run (EchoConnection.echoServer .little kMaxPayload scratchSize)
              (Permitted fun _ _ _ => True) (EchoConnection.opened ⟨5⟩) single
              (conversation 5 history) ∧
            single.slot.conn.writeBuf = [0, 1, 42] := by
  have sound (state : State) (choice : Choice) (closed : handsOutClosed state choice = true) :
      Lawful (fun _ _ _ => True) state choice :=
    ⟨hands_out_closed_sound state choice closed, fun _ _ _ _ _ _ _ => trivial⟩
  obtain ⟨state, history, run, observed⟩ :=
    replay_exhibits_under (tracedServer .little) (opened ⟨3⟩) handsOutClosed sound
      (fun final => decide (conversation 5 final.2 =
          [.received [0, 0, 0, 1, 42], .accepted [0, 0]]) &&
        final.1.server.slots.any fun slot =>
          decide (slot.conn.socket = ⟨5⟩ ∧ slot.conn.writeBuf = [0, 1, 42])) recycledEcho (by decide)
  obtain ⟨said, present⟩ := (Bool.and_eq_true _ _).mp observed
  have said := of_decide_eq_true said
  obtain ⟨slot, member, shape⟩ := List.any_eq_true.mp present
  obtain ⟨socket, pending⟩ := of_decide_eq_true shape
  have isolated := (connections_isolated .little _ ⟨3⟩ state history run).2.2.1 slot member
  have handle : slot.conn.nativeHandle = 5 := congrArg Socket.nativeHandle socket
  rw [handle, socket] at isolated
  obtain ⟨single, alone, same, _⟩ := isolated
  exact ⟨state, history, run, said, single, alone, same ▸ pending⟩

end Steps

end TcpServer.EventLoop
