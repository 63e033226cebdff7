import TcpServer.EchoServiceProgress

/-!
# The echo service at rest

A service whose `::select` tells the truth comes to rest, and it rests only where
everything is done. Any byte that is still on its way lets somebody take a step: the
kernel, the client, a handler, or the poller, which finds the socket ready. So no
order of the steps loses a wake-up, and neither a client nor the server waits for
ever.
-/

namespace TcpServer.EchoService

open EchoClient EchoConnection EchoConservation FrameEncoder Registry SocketIo Transition Pipes
open EventLoop (PollEvent Server Handling handles stored Bookkept mem_handles)
open SelectWait (Entry FdSets Honest InRange fdSetSize readyBits)

variable {ι : Type} [Fintype ι] [DecidableEq ι] {endian : Endian} {capacity : Nat}
  {state : State ι}

/-- The service can do nothing more than wait for nothing: no step but an empty round
is enabled. -/
abbrev ServiceRests (endian : Endian) (capacity : Nat) (state : State ι) : Prop :=
  AtRest (echoService ι endian capacity) (Busy capacity) state

section Enabled

omit [DecidableEq ι] in
/-- Between two waits every step of a running server in an obliging world is a busy one. -/
theorem busy_elsewhere (elsewhere : state.loop.place ≠ .top) {choice : ServerChoice ι}
    (obliging : Obliging state choice) : Busy capacity state (.server choice) :=
  ⟨⟨obliging, fun _ _ top => absurd top elsewhere⟩, fun _ _ top => absurd top elsewhere⟩

omit [Fintype ι] [DecidableEq ι] in
/-- The world obliges with a descriptor that fits and a number of bytes. -/
theorem obliging_call (name : Option ι) (count : Nat) {descriptor : Nat}
    (fits : InRange descriptor) : Obliging state { name, descriptor, count } := by
  refine ⟨rfl, ?_, ?_, rfl, rfl, fits⟩
  · intro stopped
    cases stopped
  · intro errno failed
    cases failed

/-- The kernel can answer the next call of a handler, and the handler goes on. Proof:
where a call waits for bytes or for room, either some are there, or the answer is that
it would block. -/
theorem call_enabled (endian : Endian) (capacity : Nat) (session : Session) {slot : ConnSlot}
    {phase : EchoConnection.Phase} (poller : SelectPoller) (completions : Nat)
    (inCharge : serving phase = true) (valid : slot.conn.socket.valid = true) :
    ∃ answer after, callAnswer capacity session slot phase 1 = some (answer, after) ∧
      EchoConnection.serverStep endian EventLoop.kMaxPayload EventLoop.scratchSize
        ⟨slot, poller, completions, phase⟩ { recv := answer.recv, send := answer.send } ≠ none := by
  have room : EventLoop.scratchSize ≠ 0 := by decide
  cases phase with
  | waiting | decoding thenWrite => exact ⟨_, _, rfl, Option.some_ne_none _⟩
  | receiving thenWrite =>
    by_cases arrived : session.up.arrived = []
    · by_cases ended : session.up.tail = .ended
      · refine ⟨{ recv := [.received []] }, session.hangUp, by simp [callAnswer, arrived, ended], ?_⟩
        simp [EchoConnection.serverStep, receivePass, receiveNonblocking, room, valid, retry,
          RecvAnswer.interrupted]
      · refine ⟨{ recv := [.failed .eagain] }, session, by simp [callAnswer, arrived, ended], ?_⟩
        simp [EchoConnection.serverStep, receivePass, receiveNonblocking, room, valid, retry,
          RecvAnswer.interrupted]
    · have positive : 1 ≤ session.up.arrived.length := List.length_pos_iff.mpr arrived
      have space : 1 ≤ EventLoop.scratchSize := by decide
      have short : (session.up.arrived.take 1).length ≤ EventLoop.scratchSize :=
        (List.length_take_le 1 _).trans space
      refine ⟨{ recv := [.received (session.up.arrived.take 1)] },
        { session with up := session.up.read 1 }, ?_, ?_⟩
      · simp only [callAnswer, ne_eq, arrived, not_false_eq_true, Nat.one_pos, positive, space,
          and_self, ↓reduceIte]
      · have some_bytes : session.up.arrived.take 1 ≠ [] := by simp [arrived]
        simp only [EchoConnection.serverStep, receivePass, receiveNonblocking, room, valid,
          some_bytes, short, retry, RecvAnswer.interrupted, reduceCtorEq, beq_iff_eq, Bool.not_true,
          Bool.false_eq_true, ↓reduceIte]
        exact Option.some_ne_none _
  | flushing caller =>
    by_cases unsent : slot.conn.writeBuf = []
    · refine ⟨{}, session, by simp [callAnswer, unsent], ?_⟩
      simp [EchoConnection.serverStep, flushPass, flushWriteNonblocking, unsent]
    · by_cases full : session.down.room capacity = 0
      · refine ⟨{ send := [.failed .eagain] }, session, by simp [callAnswer, unsent, full], ?_⟩
        simp [EchoConnection.serverStep, flushPass, flushWriteNonblocking, unsent, valid, retry,
          SendAnswer.interrupted]
      · have positive : 1 ≤ slot.conn.writeBuf.length := List.length_pos_iff.mpr unsent
        have space : 1 ≤ session.down.room capacity := Nat.pos_of_ne_zero full
        refine ⟨{ send := [.sent 1] },
          { session with down := session.down.write (slot.conn.writeBuf.take 1) }, ?_, ?_⟩
        · simp only [callAnswer, unsent, full, Nat.one_pos, positive, space, and_self, ↓reduceIte]
        · simp [EchoConnection.serverStep, flushPass, flushWriteNonblocking, unsent, valid, retry,
            SendAnswer.interrupted, Nat.not_lt.mpr positive,
            Connection.consume_write_within slot.conn 1 positive, bind, Except.bind, pure,
            Except.pure]
  | peerClosed | aborted cause | faulted fault => cases inCharge

/-- A handler that goes on lets the loop go on. -/
theorem serve_pass_enabled {server : Server} {index : Nat} (socket : Int)
    {phase : EchoConnection.Phase} (rest : List PollEvent) {choice : EventLoop.Choice}
    {slot : ConnSlot} (found : server.slots[index]? = some slot)
    (served : EchoConnection.serverStep endian EventLoop.kMaxPayload EventLoop.scratchSize
      ⟨slot, server.poller, server.completions, phase⟩
      { recv := choice.recv, send := choice.send } ≠ none) :
    EventLoop.servePass endian EventLoop.kMaxPayload EventLoop.scratchSize server index socket phase
      rest choice ≠ none := by
  obtain ⟨⟨after, events⟩, stepped⟩ := Option.ne_none_iff_exists'.mp served
  simp only [EventLoop.servePass, found, stepped]
  split
  any_goals exact Option.some_ne_none _
  split <;> exact Option.some_ne_none _

/-- The descriptor of an accepted session, and an invalid one before that. -/
def Session.descriptor (session : Session) : Int :=
  match session.stage with
  | .accepted descriptor => descriptor
  | _ => kInvalidSocket

/-- A session owns the descriptor it was accepted with, and no other. -/
theorem owns_descriptor {session : Session} {handle : Int} (owns : session.owns handle = true) :
    session.descriptor = handle := by
  unfold Session.owns at owns
  unfold Session.descriptor
  cases stage : session.stage with
  | accepted descriptor => simpa only [stage, beq_iff_eq] using owns
  | unconnected | pending | dropped => simp [stage] at owns

/-- While a client waits to be accepted, fewer descriptors are open than there are
clients and the listener; so one below `FD_SETSIZE` is closed. -/
theorem closed_descriptor (sound : ServiceSound state) {name : ι}
    (pending : (state.sessions name).stage = .pending)
    (few : (Fintype.card ι : Int) < fdSetSize) :
    ∃ descriptor : Nat, InRange descriptor ∧
      (descriptor : Int) ∉ EventLoop.openDescriptors state.loop.server := by
  have held : (handles state.loop.server.slots).toFinset ⊆
      (Finset.univ.erase name).image fun other => (state.sessions other).descriptor := by
    intro handle member
    obtain ⟨other, owns⟩ := sound.owned handle (List.mem_toFinset.mp member)
    have different : other ≠ name := by
      rintro rfl
      simp [Session.owns, pending] at owns
    exact Finset.mem_image.mpr ⟨other, Finset.mem_erase.mpr ⟨different, Finset.mem_univ other⟩,
      owns_descriptor owns⟩
  have others : (handles state.loop.server.slots).toFinset.card ≤ Fintype.card ι - 1 := by
    refine (Finset.card_le_card held).trans (Finset.card_image_le.trans_eq ?_)
    rw [Finset.card_erase_of_mem (Finset.mem_univ name), Finset.card_univ]
  have somebody : 0 < Fintype.card ι := Fintype.card_pos_iff.mpr ⟨name⟩
  have opened : (EventLoop.openDescriptors state.loop.server).toFinset.card <
      ((Finset.range 1024).image Int.ofNat).card := by
    rw [EventLoop.openDescriptors, List.toFinset_cons,
      Finset.card_image_of_injective _ fun _ _ => Int.ofNat.inj, Finset.card_range]
    have one_more := Finset.card_insert_le state.loop.server.listener.nativeHandle
      (handles state.loop.server.slots).toFinset
    unfold fdSetSize at few
    omega
  obtain ⟨handle, fits, closed⟩ := Finset.exists_mem_notMem_of_card_lt_card opened
  obtain ⟨descriptor, small, rfl⟩ := Finset.mem_image.mp fits
  refine ⟨descriptor, ?_, fun member => closed (List.mem_toFinset.mpr member)⟩
  have below := Finset.mem_range.mp small
  exact ⟨Int.natCast_nonneg descriptor, Int.ofNat_lt.mpr below⟩

end Enabled

section Rest

/-- At rest the server cannot take a step that would be a busy one. -/
theorem rest_server_stuck (rests : ServiceRests endian capacity state)
    (elsewhere : state.loop.place ≠ .top) {choice : ServerChoice ι}
    (obliging : Obliging state choice) {answer : EventLoop.Choice} {after : State ι}
    (answered : answers capacity state choice = some (answer, after)) :
    EventLoop.runServer endian state.loop answer = none := by
  have stuck : serverStep endian capacity state choice = none :=
    rests (.server choice) (busy_elsewhere elsewhere obliging)
  unfold serverStep at stuck
  split at stuck
  · rename_i top
    exact absurd top elsewhere
  · simp only [answered] at stuck
    exact Option.map_eq_none_iff.mp stuck

/-- At rest the server waits for events, or has finished. Proof: at every other place
the world can oblige with an answer that the loop goes on with; in particular somebody
in the queue can be accepted, since a descriptor is free. -/
theorem rest_place (few : (Fintype.card ι : Int) < fdSetSize) (sound : ServiceSound state)
    (rests : ServiceRests endian capacity state) :
    state.loop.place = .top ∨ state.loop.place = .finished := by
  have zero : InRange (0 : Nat) := by decide
  obtain ⟨⟨server, place⟩, sessions⟩ := state
  cases place with
  | top => exact Or.inl rfl
  | finished => exact Or.inr rfl
  | cleaning =>
    have empty : server.slots = [] := sound.place
    have stuck := rest_server_stuck rests (by simp) (obliging_call none 0 zero)
      (by simp only [answers, empty, List.getLast?_nil]; rfl)
    simp [EventLoop.runServer, empty] at stuck
  | handling handling =>
    cases handling with
    | dispatching batch =>
      have stuck := rest_server_stuck rests (by simp) (obliging_call none 0 zero) rfl
      cases batch with
      | nil => cases stuck
      | cons event rest =>
        simp only [EventLoop.runServer] at stuck
        split at stuck <;> cases stuck
    | accepting rest =>
      by_cases nobody : State.pending ⟨⟨server, .handling (.accepting rest)⟩, sessions⟩ = 0
      · have stuck := rest_server_stuck rests (by simp) (obliging_call none 0 zero)
          (by simp only [answers, nobody, ↓reduceIte]; rfl)
        simp [EventLoop.runServer] at stuck
      · obtain ⟨name, member⟩ := Finset.card_pos.mp (Nat.pos_of_ne_zero nobody)
        have pending : (sessions name).stage = .pending := (Finset.mem_filter.mp member).2
        obtain ⟨descriptor, fits, unused⟩ := closed_descriptor sound pending few
        have stuck := rest_server_stuck rests (by simp) (obliging_call (some name) 0 fits)
          (by simp only [answers, pending, unused, not_false_eq_true, and_self, ↓reduceIte]; rfl)
        simp [EventLoop.runServer] at stuck
    | serving index socket phase rest =>
      obtain ⟨inCharge, slot, found, rfl⟩ := sound.place
      have member := List.mem_of_getElem? found
      obtain ⟨name, owns⟩ := sound.owned _ (mem_handles.mpr ⟨slot, member, rfl⟩)
      obtain ⟨answer, after, called, served⟩ := call_enabled endian capacity (sessions name)
        server.poller server.completions inCharge (sound.valid member)
      have stuck := rest_server_stuck rests (by simp) (obliging_call (some name) 1 zero)
        (by simp only [answers, found, owns, called, ↓reduceIte, Option.map_some]; rfl)
      have passes := serve_pass_enabled slot.conn.nativeHandle rest found served
      obtain ⟨⟨next, place, events⟩, passed⟩ := Option.ne_none_iff_exists'.mp passes
      simp [EventLoop.runServer, passed] at stuck
    | aborted cause | faulted fault => cases sound.place

/-- At rest `::select` can leave no bit that is called for and ready. Otherwise the
next wait would report an event, which is a busy step. -/
theorem rest_leaves_nothing (progressing : Progressing capacity state)
    (rests : ServiceRests endian capacity state) (top : state.loop.place = .top) {count : Nat}
    {sets : FdSets}
    (truthful : TrueSets capacity state state.loop.server.poller.interest.entries count sets)
    {entry : Entry} (listed : entry ∈ state.loop.server.poller.interest.entries) :
    readyBits sets entry = .none := by
  by_contra ready
  have bookkept : Bookkept state.loop.server :=
    EventLoop.kept_between progressing.kept (by rw [top]; rfl)
  obtain ⟨waited, written, waits, result, some_event⟩ :=
    wait_call_reports progressing.sound bookkept truthful listed ready
  let choice : ServerChoice ι :=
    { order := state.loop.server.poller.interest.entries, select := .returned count sets }
  have batch : state.batch choice = waited.outEvents.take written := by
    simp only [State.batch, choice, waits, batchOf, result, Except.map]
  have busy : Busy capacity state (.server choice) := by
    have zero : InRange (0 : Nat) := by decide
    refine ⟨⟨⟨rfl, ?_, ?_, rfl, rfl, zero⟩, ?_⟩, ?_⟩
    · intro stopped
      cases stopped
    · intro errno failed
      cases failed
    · intro other same _ left leaves selected
      cases same
      cases selected
      exact truthful
    · intro other same _
      cases same
      exact Or.inl (batch ▸ some_event)
  have stuck : serverStep endian capacity state choice = none := rests (.server choice) busy
  simp [serverStep, top, roundStep, choice, waits, EventLoop.runServer, batchOf, result,
    Except.map] at stuck

/-- So an answer of `::select` that is true and asks for no more than what is registered
names nothing at rest. -/
theorem rest_names_nothing (progressing : Progressing capacity state)
    (rests : ServiceRests endian capacity state) (top : state.loop.place = .top) {fd : Int}
    {mask : EventMask} (listed : state.loop.server.poller.interest.lookup fd = some mask)
    {count : Nat} (sets : FdSets)
    (honest : ∀ call, SelectWait.Requests state.loop.server.poller call → Honest call count sets)
    (reads : ∀ other ∈ sets.readfds, ReadReady state other)
    (writes : ∀ other ∈ sets.writefds, WriteReady capacity state other) :
    readyBits sets ⟨fd, mask⟩ = .none := by
  have bookkept : Bookkept state.loop.server :=
    EventLoop.kept_between progressing.kept (by rw [top]; rfl)
  obtain ⟨call, called, requests, _⟩ := SelectWait.traversal_requests
    ⟨_, List.Perm.refl _⟩ (poller_fits progressing.sound bookkept) kPollMs
  have truthful : TrueSets capacity state state.loop.server.poller.interest.entries count sets := by
    refine ⟨?_, reads, writes⟩
    intro other same
    obtain rfl : call = other := Except.ok.inj (called.symm.trans same)
    exact honest call requests
  exact rest_leaves_nothing progressing rests top truthful (AList.mem_lookup_iff.mp listed)

/-- At rest nothing is readable that is registered for reading. Otherwise the set with
this one descriptor would be such an answer. -/
theorem rest_unreadable (progressing : Progressing capacity state)
    (rests : ServiceRests endian capacity state) (top : state.loop.place = .top) {fd : Int}
    {mask : EventMask} (listed : state.loop.server.poller.interest.lookup fd = some mask)
    (asked : mask.has .read = true) : ¬ ReadReady state fd := by
  intro ready
  have nothing : readyBits { readfds := {fd} } ⟨fd, mask⟩ = .none := by
    apply rest_names_nothing progressing rests top listed
    · intro call requests
      refine ⟨?_, Finset.empty_subset _, Finset.empty_subset _, rfl⟩
      exact Finset.singleton_subset_iff.mpr ((requests.readfds fd).mpr ⟨mask, listed, asked⟩)
    · intro other member
      rwa [Finset.mem_singleton.mp member]
    · intro other absent
      exact absurd absent (Finset.notMem_empty other)
  simp only [readyBits, asked, Finset.mem_singleton, Finset.notMem_empty, and_self, and_false,
    ↓reduceIte] at nothing
  exact absurd nothing (by decide)

/-- Nor is anything ready that is registered for writing, for the same reason. -/
theorem rest_unwritable (progressing : Progressing capacity state)
    (rests : ServiceRests endian capacity state) (top : state.loop.place = .top) {fd : Int}
    {mask : EventMask} (listed : state.loop.server.poller.interest.lookup fd = some mask)
    (asked : mask.has .write = true) : ¬ WriteReady capacity state fd := by
  intro ready
  have nothing : readyBits { writefds := {fd} } ⟨fd, mask⟩ = .none := by
    apply rest_names_nothing progressing rests top listed
    · intro call requests
      refine ⟨Finset.empty_subset _, ?_, Finset.empty_subset _, rfl⟩
      exact Finset.singleton_subset_iff.mpr ((requests.writefds fd).mpr ⟨mask, listed, asked⟩)
    · intro other absent
      exact absurd absent (Finset.notMem_empty other)
    · intro other member
      rwa [Finset.mem_singleton.mp member]
  simp only [readyBits, asked, Finset.mem_singleton, Finset.notMem_empty, and_self, and_false,
    ↓reduceIte] at nothing
  exact absurd nothing (by decide)

/-- At rest nobody is in the queue of the listener. -/
theorem rest_queue_empty (progressing : Progressing capacity state)
    (rests : ServiceRests endian capacity state) (top : state.loop.place = .top) :
    state.pending = 0 := by
  have bookkept : Bookkept state.loop.server :=
    EventLoop.kept_between progressing.kept (by rw [top]; rfl)
  by_contra waiting
  have listed := lists_lookup bookkept.lists List.mem_cons_self
  exact rest_unreadable progressing rests top listed (by decide)
    (Or.inl ⟨rfl, Nat.pos_of_ne_zero waiting⟩)

/-- At rest no connection is ready, for reading or for writing. It is registered for
what its buffers call for, so its bit could be left. -/
theorem rest_unready (progressing : Progressing capacity state)
    (rests : ServiceRests endian capacity state) (top : state.loop.place = .top) {name : ι}
    (accepted : (state.sessions name).accepted = true) :
    (state.sessions name).up.readable = false ∧ writeReady capacity (state.sessions name)
      (slotFor state.loop.server.slots (state.sessions name)) = false := by
  have bookkept : Bookkept state.loop.server :=
    EventLoop.kept_between progressing.kept (by rw [top]; rfl)
  have sound := progressing.sound
  obtain ⟨handle, owns⟩ : ∃ handle, (state.sessions name).owns handle = true := by
    unfold Session.accepted at accepted
    split at accepted
    · rename_i descriptor stage
      exact ⟨descriptor, by simp [Session.owns, stage]⟩
    · cases accepted
  obtain ⟨slot, member, rfl⟩ := mem_handles.mp (sound.held name handle owns)
  have listed := lists_lookup bookkept.lists (List.mem_cons_of_mem _ (List.mem_map_of_mem member))
  rw [slot_for_owned sound.distinct member owns]
  constructor
  · by_contra readable
    rw [Bool.not_eq_false] at readable
    refine rest_unreadable progressing rests top listed ?_ (Or.inr ⟨name, owns, readable⟩)
    unfold InterestTracking.interestOf
    split <;> decide
  · by_contra writable
    rw [Bool.not_eq_false] at writable
    simp only [writeReady, Bool.and_eq_true, Bool.not_eq_true', List.isEmpty_eq_false_iff,
      decide_eq_true_eq] at writable
    obtain ⟨unsent, space⟩ := writable
    refine rest_unwritable progressing rests top listed ?_ ⟨name, owns, space⟩
    simp only [InterestTracking.interestOf, unsent, ↓reduceIte]
    decide

omit [DecidableEq ι] in
/-- An orderly step of a client or a pipe is busy: the conditions on waits do not
concern it. -/
theorem busy_outside_server {action : Action ι} (orderly : Orderly state action)
    (elsewhere : ∀ choice, action ≠ .server choice) : Busy capacity state action := by
  refine ⟨⟨orderly, ?_⟩, ?_⟩
  · intro choice same
    exact absurd same (elsewhere choice)
  · intro choice same
    exact absurd same (elsewhere choice)

/-- At rest everything that was handed over has arrived at the server, and so has the
end of the stream, if there is one. Otherwise a pipe could still move. -/
theorem rest_upward (rests : ServiceRests endian capacity state) (name : ι) :
    (state.sessions name).up.inFlight = [] ∧ (state.sessions name).up.tail ≠ .closed := by
  have still : ¬ ((state.sessions name).up.inFlight ≠ [] ∨
      (state.sessions name).up.tail = .closed) := by
    intro waits
    obtain ⟨count, up, advanced⟩ := Pipe.advance_enabled _ waits
    have stuck : serviceStep endian capacity state (.upward name count) = none :=
      rests (.upward name count) (busy_outside_server trivial fun _ => by simp)
    simp [serviceStep, advanced] at stuck
  exact ⟨not_not.mp (not_or.mp still).1, (not_or.mp still).2⟩

/-- At rest everything that the server has handed over has arrived at the client.
Otherwise the pipe could still move. -/
theorem rest_downward (rests : ServiceRests endian capacity state) (name : ι) :
    (state.sessions name).down.inFlight = [] := by
  by_contra flying
  obtain ⟨count, down, advanced⟩ := Pipe.advance_enabled _ (Or.inl flying)
  have stuck : serviceStep endian capacity state (.downward name count) = none :=
    rests (.downward name count) (busy_outside_server trivial fun _ => by simp)
  simp [serviceStep, advanced] at stuck

/-- At rest a client cannot take a step. -/
theorem rest_client_stuck (rests : ServiceRests endian capacity state) (name : ι) (count : Nat) :
    clientStep endian capacity state name count = none := by
  have stuck : serviceStep endian capacity state (.client name count) = none :=
    rests (.client name count) (busy_outside_server trivial fun _ => by simp)
  exact Option.map_eq_none_iff.mp stuck

/-- A connection that waits for the server is accepted. -/
theorem rest_accepted (progressing : Progressing capacity state)
    (rests : ServiceRests endian capacity state) (top : state.loop.place = .top) {name : ι}
    (connected : (state.sessions name).client.phase ≠ .connecting)
    (going : (state.sessions name).client.phase ≠ .finished) :
    (state.sessions name).accepted = true := by
  have session := progressing.sound.sessions name
  have nobody := rest_queue_empty progressing rests top
  cases stage : (state.sessions name).stage with
  | accepted descriptor => simp only [Session.accepted, stage]
  | unconnected => exact absurd (session.unconnected.mpr stage) connected
  | dropped => exact absurd (session.dropped stage) going
  | pending =>
    rw [State.pending, Finset.card_eq_zero] at nobody
    have member : name ∈ Finset.univ.filter fun name => (state.sessions name).stage = .pending :=
      Finset.mem_filter.mpr ⟨Finset.mem_univ name, stage⟩
    rw [nobody] at member
    cases member

/-- At rest every client is done: whatever it waits for, somebody could take a step.
The cases are the phases of the client; while it receives, the exchange tells where
the missing bytes are, and each place they can be in has somebody who would move them.
-/
theorem rest_client_finished (space : 0 < capacity) (progressing : Progressing capacity state)
    (rests : ServiceRests endian capacity state) (top : state.loop.place = .top) (name : ι) :
    (state.sessions name).client.phase = .finished := by
  have session := progressing.sound.sessions name
  have standing := session.client.standing
  obtain ⟨up, _⟩ := rest_upward rests name
  have down := rest_downward rests name
  -- What has arrived at the server would make the connection ready.
  have unread : (state.sessions name).client.phase ≠ .connecting →
      (state.sessions name).client.phase ≠ .finished →
      (state.sessions name).up.contents = [] := by
    intro connected going
    have accepted := rest_accepted progressing rests top connected going
    obtain ⟨unready, _⟩ := rest_unready progressing rests top accepted
    have nothing : (state.sessions name).up.arrived = [] := by
      by_contra arrived
      rw [Pipe.readable_iff.mpr (Or.inl arrived)] at unready
      cases unready
    rw [Pipe.contents, nothing, up, List.append_nil]
  cases phase : (state.sessions name).client.phase with
  | finished => rfl
  | connecting =>
    have stuck := rest_client_stuck rests name 0
    simp [clientStep, phase, rest_queue_empty progressing rests top, kAcceptBacklog] at stuck
  | encoding round =>
    have stuck := rest_client_stuck rests name 0
    simp [clientStep, clientCall, phase] at stuck
  | sending round wireOut off =>
    -- The pipe is empty, so the next byte can be sent.
    simp only [phase] at standing
    have held : (state.sessions name).stage ≠ .dropped := fun gone => by
      simpa [phase] using session.dropped gone
    have empty := unread (by simp [phase]) (by simp [phase])
    have room : 1 ≤ (state.sessions name).up.room capacity := by
      rw [Pipe.room, empty]
      exact space
    have left : 1 ≤ wireOut.length - off := by omega
    have stuck := rest_client_stuck rests name 1
    simp [clientStep, clientCall, phase, held, room, left, sendPass] at stuck
  | receiving round acc =>
    simp only [phase] at standing
    have connected : (state.sessions name).client.phase ≠ .connecting := by simp [phase]
    have going : (state.sessions name).client.phase ≠ .finished := by simp [phase]
    have nothing : (state.sessions name).down.arrived = [] := by
      by_contra arrived
      have positive : 1 ≤ (state.sessions name).down.arrived.length :=
        List.length_pos_iff.mpr arrived
      have short := standing.2
      rw [frame_length] at short
      have room : 1 ≤ accSize (state.sessions name).client - acc.length := by
        unfold accSize
        omega
      have stuck := rest_client_stuck rests name 1
      simp [clientStep, clientCall, phase, arrived, positive, room, recvPass] at stuck
    have returned : (state.sessions name).down.contents = [] := by
      rw [Pipe.contents, nothing, down, List.append_nil]
    have accepted := rest_accepted progressing rests top connected going
    obtain ⟨_, unready⟩ := rest_unready progressing rests top accepted
    have idle : handlerOn state.loop.place (state.sessions name) = none := by
      simp only [handlerOn, top]
    have asked := unread connected going
    cases session.exchange with
    | request untouched _ unsent balance =>
      -- The whole frame would lie in the read buffer, and a handler would be decoding it.
      rw [asked, List.append_nil, Client.sent, phase] at balance
      have decoding := session.decoded balance
      rw [idle] at decoding
      cases decoding
    | reply whole balance consumed _ =>
      -- The rest of the echo would lie in the write buffer, and there is room for it.
      simp only [returned, List.append_nil, Client.got, phase] at balance
      have unsent : (slotFor state.loop.server.slots (state.sessions name)).conn.writeBuf ≠ [] := by
        intro flushed
        rw [flushed, List.append_nil] at balance
        have same := congrArg List.length balance
        omega
      simp only [writeReady, Pipe.room, returned, List.length_nil, Nat.sub_zero, space, decide_true,
        Bool.and_true, Bool.not_eq_false', List.isEmpty_iff] at unready
      exact absurd unready unsent
  | aborted cause | faulted fault => simp only [phase] at standing

/-- At rest every connection has been dropped. -/
theorem rest_slots_empty (progressing : Progressing capacity state)
    (rests : ServiceRests endian capacity state) (top : state.loop.place = .top)
    (finished : ∀ name, (state.sessions name).client.phase = .finished) :
    state.loop.server.slots = [] := by
  have sound := progressing.sound
  by_contra some_slot
  obtain ⟨slot, others, split⟩ := List.exists_cons_of_ne_nil some_slot
  have listed : slot.conn.nativeHandle ∈ handles state.loop.server.slots :=
    mem_handles.mpr ⟨slot, by rw [split]; exact List.mem_cons_self, rfl⟩
  obtain ⟨name, owns⟩ := sound.owned _ listed
  have accepted : (state.sessions name).accepted = true := by
    by_contra unaccepted
    rw [unaccepted_owns (Bool.not_eq_true _ ▸ unaccepted)] at owns
    cases owns
  -- Its client has closed, and the end of its stream has arrived.
  obtain ⟨_, notClosed⟩ := rest_upward rests name
  have notOpen : (state.sessions name).up.tail ≠ .open := fun opened =>
    (sound.sessions name).upward.mp opened (finished name)
  have ended : (state.sessions name).up.tail = .ended := by
    cases tail : (state.sessions name).up.tail with
    | «open» => exact absurd tail notOpen
    | closed => exact absurd tail notClosed
    | ended => rfl
  obtain ⟨unready, _⟩ := rest_unready progressing rests top accepted
  rw [Pipe.readable_iff.mpr (Or.inr ended)] at unready
  cases unready

/-- The service rests only where the server has finished. -/
theorem rest_finished (few : (Fintype.card ι : Int) < fdSetSize) (space : 0 < capacity)
    (progressing : Progressing capacity state) (rests : ServiceRests endian capacity state) :
    state.loop.place = .finished := by
  refine (rest_place few progressing.sound rests).resolve_left fun top => ?_
  have finished := rest_client_finished space progressing rests top
  have empty := rest_slots_empty progressing rests top finished
  -- So the flag may be set, and the loop would end.
  have zero : InRange (0 : Nat) := by decide
  have busy : Busy capacity state (.server { stop := true }) := by
    refine ⟨⟨⟨rfl, fun _ => finished, ?_, rfl, rfl, zero⟩, ?_⟩, ?_⟩
    · intro errno failed
      cases failed
    · intro choice same _ count sets selected
      cases same
      cases selected
      refine ⟨fun _ _ => ?_, ?_, ?_⟩
      · exact ⟨Finset.empty_subset _, Finset.empty_subset _, Finset.empty_subset _, rfl⟩
      · exact fun _ absent => absurd absent (Finset.notMem_empty _)
      · exact fun _ absent => absurd absent (Finset.notMem_empty _)
    · intro choice same _
      cases same
      exact Or.inr ⟨rfl, empty⟩
  have stuck : serverStep endian capacity state { stop := true } = none :=
    rests (.server { stop := true }) busy
  simp [serverStep, roundStep, EventLoop.runServer, top, empty] at stuck

end Rest

section Completion

omit [DecidableEq ι] in
/-- The budget at the start: what the frames of all rounds cost on their way. -/
theorem started_work (capacity : Nat) {listener : Socket}
    (inRange : InRange listener.nativeHandle) {clients : ι → Client}
    (connecting : ∀ name, (clients name).phase = .connecting) :
    workLeft capacity (started listener clients) = 3 + ∑ name,
      ((clients name).roundTrips * (31 * ((clients name).payload.length + 4) + 1) + 21) := by
  have usable : listener.nativeHandle ≠ kInvalidSocket := by
    simpa [Socket.valid, Socket.nativeHandle] using in_range_valid inRange
  have top : (started listener clients).loop.place = .top := by
    simp [started, EventLoop.opened, Acceptor.registerListener, SelectPoller.upsert, usable]
  have nobody : (started listener clients).pending = 0 := by
    rw [State.pending, Finset.card_eq_zero, Finset.filter_eq_empty_iff]
    intro name _
    rintro ⟨⟩
  have listens : listenerCost (started listener clients) = 0 := by
    simp [listenerCost, top, accepts, eventsLeft, nobody]
  have slot : ∀ name, slotFor (started listener clients).loop.server.slots
      ((started listener clients).sessions name) = emptySlot :=
    fun name => slot_for_absent fun handle owns => by cases owns
  rw [workLeft, top, listens]
  refine congrArg (3 + ·) (Finset.sum_congr rfl fun name _ => ?_)
  rw [slot name, sessionCost, attention_unaccepted (by rfl)]
  simp only [clientCost, started, connecting name, frame_length, stageCost, linkCost, emptySlot,
    endCost, List.length_nil, Nat.add_comm 4]

/-- The echo service completes. Suppose that `::select` tells the truth, no system call of
the server fails other than with `EAGAIN`, the listener and the descriptors that
`::accept` hands out fit into an `fd_set`, the deadline is not reached and the flag is
set only when all clients are done. Then the following holds in every reached state, for
any number of clients below `FD_SETSIZE`, any payloads within the limit, any numbers of
rounds below `2 ^ 31` in all and pipes of any positive capacity, whatever the order of
the steps.

Leaving out rounds over an empty batch, the number of further steps is bounded, so a
state at rest can be reached; and the service rests only where the server has finished
and dropped every connection, every client is done, and the atomic counter holds the
number of all rounds. -/
theorem service_completes (endian : Endian) (capacity : Nat) (space : 0 < capacity)
    (few : (Fintype.card ι : Int) < fdSetSize)
    (listener : Socket) (inRange : InRange listener.nativeHandle) (clients : ι → Client)
    (connecting : ∀ name, (clients name).phase = .connecting)
    (fits : ∀ name, (clients name).payload.length ≤ 2 ^ 20)
    (bounded : ∑ name, (clients name).roundTrips < 2 ^ 31) (state : State ι)
    (history : List EventLoop.Event)
    (run : Run (echoService ι endian capacity) (Faithful capacity) (started listener clients) state
      history) :
    (workLeft capacity (started listener clients) = 3 + ∑ name,
      ((clients name).roundTrips * (31 * ((clients name).payload.length + 4) + 1) + 21)) ∧
    (∀ count final continued, CountedRun (echoService ι endian capacity) (Busy capacity) state count
      final continued → count ≤ workLeft capacity state) ∧
    (∃ final continued, Run (echoService ι endian capacity) (Busy capacity) state final continued ∧
      AtRest (echoService ι endian capacity) (Busy capacity) final) ∧
    ∀ final continued, Run (echoService ι endian capacity) (Busy capacity) state final continued →
      AtRest (echoService ι endian capacity) (Busy capacity) final →
      final.loop.place = .finished ∧ final.loop.server.slots = [] ∧
      (∀ name, (final.sessions name).client.phase = .finished) ∧
      final.loop.server.completions = ∑ name, (clients name).roundTrips ∧
      final.loop.server.counter.toInt = final.loop.server.completions := by
  have progressing := run_progressing (started_progressing inRange connecting fits) run
  refine ⟨started_work capacity inRange connecting, ?_, ?_, ?_⟩
  · intro count final continued further
    have spent := (budget_spent (serviceBudget ι endian capacity) progressing further).2
    exact (Nat.le_add_right _ _).trans spent
  · exact budget_rests (serviceBudget ι endian capacity) progressing
  · intro final continued further rests
    have faithful : Run (echoService ι endian capacity) (Faithful capacity) state final continued :=
      run_weaken (fun _ _ busy => busy.1) further
    have still := run_progressing progressing faithful
    have finished := rest_finished few space still rests
    have empty : final.loop.server.slots = [] := by
      have standing := still.sound.place
      rwa [finished] at standing
    have clients_done := still.closing (Or.inr finished)
    have rounds : ∀ name, (final.sessions name).client.roundTrips = (clients name).roundTrips :=
      fun name => (run_rounds faithful name).trans (run_rounds run name)
    refine ⟨finished, empty, clients_done, ?_,
      counter_exact still.sound (by simpa only [rounds] using bounded)⟩
    have counted : uncounted final = 0 := by
      refine Finset.sum_eq_zero fun name _ => ?_
      rw [empty]
      rfl
    have total := still.sound.counts
    rw [counted, Nat.add_zero] at total
    rw [total]
    refine Finset.sum_congr rfl fun name _ => ?_
    rw [finished_replied (still.sound.sessions name) (clients_done name), rounds name]

/-- Two clients with several rounds over pipes of one byte: there is a complete run, and
at its end the counter holds the number of all rounds. -/
theorem service_completes_narrow :
    ∃ (final : State (Fin 2)) (history : List EventLoop.Event),
      Run (echoService (Fin 2) .little 1) (Busy 1)
        (started ⟨3⟩ fun name => clientWorker (Int32.ofNat name) (name + 2) 5) final history ∧
      final.loop.place = .finished ∧ final.loop.server.counter.toInt = 5 := by
  obtain ⟨_, _, ⟨final, history, run, rests⟩, atRest⟩ :=
    service_completes .little 1 Nat.one_pos (by decide) ⟨3⟩ (by decide)
      (fun name : Fin 2 => clientWorker (Int32.ofNat name) (name + 2) 5) (fun _ => rfl)
      (by decide) (by decide) _ [] Run.start
  obtain ⟨finished, _, _, counted, exact⟩ := atRest final history run rests
  refine ⟨final, history, run, finished, ?_⟩
  rw [exact, counted]
  rfl

end Completion

end TcpServer.EchoService
