import Mathlib.Algebra.BigOperators.Fin
import TcpServer.EchoSession
import TcpServer.Progress
import TcpServer.SlotTable

/-!
# Safety of the echo service

The slots of the server and the sessions of the clients correspond by descriptors:
each slot belongs to one session, and each accepted session has one slot. A step
works on one session and at most one slot, so what holds of a single connection
holds of all of them, through descriptors that are reused and slots that move.
-/

namespace TcpServer.EchoService

open EchoClient EchoConnection EchoConservation FrameEncoder Registry SocketIo Transition Pipes
open EventLoop (PollEvent Server Handling handles stored findSlotIndex mem_handles distinct_perm
  same_slot find_slot_some write_event_serves slots_focus Kept Bookkept)
open SelectWait (Entry InRange SelectAnswer Waited)

variable {ι : Type} [Fintype ι] [DecidableEq ι]

/-- The slot of a session; before it is accepted and after it is dropped, an empty
one. So every session has one to speak of. -/
def slotFor (slots : List ConnSlot) (session : Session) : ConnSlot :=
  (slots.find? fun slot => session.owns slot.conn.nativeHandle).getD emptySlot

/-- The handler that works on the slot of this session, if one does. At most one
handler works at a time. -/
def handlerOn (place : EventLoop.Place) (session : Session) : Option EchoConnection.Phase :=
  match place with
  | .handling (.serving _ socket phase _) => if session.owns socket then some phase else none
  | _ => none

/-- The echoes that the server has not counted yet, over all sessions. Each slot waits
for one flush at most. -/
def uncounted (state : State ι) : Nat :=
  ∑ name, awaiting (slotFor state.loop.server.slots (state.sessions name))

/-- The echoes that the server has written, over all sessions. With the uncounted ones
it gives the counter. -/
def echoed (state : State ι) : Nat :=
  ∑ name, (state.sessions name).replied (slotFor state.loop.server.slots (state.sessions name))

/-- Where the server may stand. A handler works on the slot that it has found, and the
loop has neither aborted nor faulted. -/
def PlaceSound (slots : List ConnSlot) : EventLoop.Place → Prop
  | .handling (.serving index socket phase _) => serving phase = true ∧
      ∃ slot, slots[index]? = some slot ∧ slot.conn.nativeHandle = socket
  | .handling (.aborted _) | .handling (.faulted _) => False
  | .cleaning | .finished => slots = []
  | _ => True

/-- What holds of the whole service, in every state that it reaches: of the listener,
of the place, of the slots, and of every session with its slot. -/
structure ServiceSound (state : State ι) : Prop where
  listener : InRange state.loop.server.listener.nativeHandle
  place : PlaceSound state.loop.server.slots state.loop.place
  distinct : (handles state.loop.server.slots).Nodup
  inRange : ∀ slot ∈ state.loop.server.slots, InRange slot.conn.nativeHandle
  owned : ∀ handle ∈ handles state.loop.server.slots, ∃ name, (state.sessions name).owns handle
  held : ∀ name handle, (state.sessions name).owns handle = true →
    handle ∈ handles state.loop.server.slots
  single : ∀ name other handle, (state.sessions name).owns handle = true →
    (state.sessions other).owns handle = true → other = name
  sessions : ∀ name, SessionSound (state.sessions name)
    (slotFor state.loop.server.slots (state.sessions name))
    (handlerOn state.loop.place (state.sessions name))
  counts : state.loop.server.completions + uncounted state = echoed state

/-- A descriptor that fits into an `fd_set` is a valid socket. -/
theorem in_range_valid {socket : Socket} (inRange : InRange socket.nativeHandle) :
    socket.valid = true := by
  have positive := inRange.1
  have usable : socket.nativeHandle ≠ kInvalidSocket := by
    unfold kInvalidSocket
    omega
  simpa [Socket.valid, Socket.nativeHandle] using usable

omit [DecidableEq ι] in
/-- The listener of a sound service is open: it stays one of the descriptors that
`FD_SET` takes. -/
theorem ServiceSound.listens {state : State ι} (sound : ServiceSound state) :
    state.loop.server.listener.valid = true := in_range_valid sound.listener

omit [DecidableEq ι] in
/-- The connections of a sound service are open, since their descriptors are in range.
A slot that was closed is no longer among the slots. -/
theorem ServiceSound.valid {state : State ι} (sound : ServiceSound state) {slot : ConnSlot}
    (member : slot ∈ state.loop.server.slots) : slot.conn.socket.valid = true :=
  in_range_valid (sound.inRange slot member)

/-- A session owns one descriptor at most. -/
theorem owns_unique {session : Session} {handle other : Int} (owns : session.owns handle = true)
    (also : session.owns other = true) : other = handle := by
  unfold Session.owns at owns also
  cases stage : session.stage with
  | accepted descriptor =>
    simp only [stage, beq_iff_eq] at owns also
    exact also.symm.trans owns
  | unconnected | pending | dropped => simp [stage] at owns

/-- An owner has not been dropped. -/
theorem owner_held {session : Session} {handle : Int} (owns : session.owns handle = true) :
    session.stage ≠ .dropped := by
  intro gone
  simp [Session.owns, gone] at owns

section Slots

variable {slots others : List ConnSlot} {slot : ConnSlot} {session : Session}

/-- An owner has the slot with its descriptor. -/
theorem slot_for_owned (distinct : (handles slots).Nodup) (member : slot ∈ slots)
    (owns : session.owns slot.conn.nativeHandle = true) : slotFor slots session = slot := by
  have found : slots.find? (fun slot => session.owns slot.conn.nativeHandle) = some slot :=
    find_only member owns fun other also alike =>
      same_slot distinct member also (owns_unique owns alike)
  rw [slotFor, found, Option.getD_some]

/-- A session without a slot has the empty one. -/
theorem slot_for_absent (absent : ∀ handle, session.owns handle = true → handle ∉ handles slots) :
    slotFor slots session = emptySlot := by
  have nothing : slots.find? (fun slot => session.owns slot.conn.nativeHandle) = none := by
    apply List.find?_eq_none.mpr
    intro slot member owns
    exact absent _ owns (mem_handles.mpr ⟨slot, member, rfl⟩)
  rw [slotFor, nothing, Option.getD_none]

/-- Slots with other descriptors may come, change and go. -/
theorem slot_for_congr (distinct : (handles slots).Nodup)
    (same : ∀ slot, session.owns slot.conn.nativeHandle = true → (slot ∈ others ↔ slot ∈ slots)) :
    slotFor others session = slotFor slots session := by
  have found := find_congr (fun slot => session.owns slot.conn.nativeHandle)
    (fun record member other also owns alike =>
      same_slot distinct member also (owns_unique owns alike)) same
  rw [slotFor, slotFor, found]

/-- What takes the place of slots that a session does not own is nothing to it. -/
theorem slot_for_others {old new rest : List ConnSlot} (distinct : (handles slots).Nodup)
    (before : slots.Perm (old ++ rest)) (behind : others.Perm (new ++ rest))
    (apart : ∀ slot ∈ old ++ new, session.owns slot.conn.nativeHandle = false) :
    slotFor others session = slotFor slots session := by
  refine slot_for_congr distinct fun slot owns => ?_
  have strange : slot ∉ old ++ new := fun member => by simp [apart slot member] at owns
  rw [List.mem_append, not_or] at strange
  rw [behind.mem_iff, before.mem_iff, List.mem_append, List.mem_append]
  simp only [strange, false_or]

end Slots

section Steps

variable {state : State ι} {name : ι} {after : Session}

/-- A session in order stays so for a handler that is at least as far. -/
theorem session_sound_handler {session : Session} {slot : ConnSlot}
    {before handler : Option EchoConnection.Phase} (sound : SessionSound session slot before)
    (flushing : inFlush before = true → inFlush handler = true)
    (decoding : inDecode before = true → inDecode handler = true) :
    SessionSound session slot handler := by
  obtain ⟨client, exchange, upward, downward, unconnected, dropped, awaited, decoded⟩ := sound
  exact ⟨client, exchange, upward, downward, unconnected, dropped,
    fun waits => (awaited waits).imp_right flushing, fun whole => decoding (decoded whole)⟩

/-- Where no handler is at work, a sound session is sound for whichever comes. -/
theorem session_sound_idle {session : Session} {slot : ConnSlot}
    {before : Option EchoConnection.Phase} (sound : SessionSound session slot before)
    (idle : before = none) (handler : Option EchoConnection.Phase) :
    SessionSound session slot handler := by
  subst idle
  exact session_sound_handler sound nofun nofun

/-- A step that concerns one session only, and not its descriptor, keeps the service
in order when it keeps that session in order and its replies the same. All other
fields are about the server or about other sessions. -/
theorem sound_session (sound : ServiceSound state)
    (owners : ∀ handle, after.owns handle = (state.sessions name).owns handle)
    (kept : SessionSound after (slotFor state.loop.server.slots (state.sessions name))
      (handlerOn state.loop.place (state.sessions name)))
    (same : after.replied (slotFor state.loop.server.slots (state.sessions name)) =
      (state.sessions name).replied (slotFor state.loop.server.slots (state.sessions name))) :
    ServiceSound (state.update name after) := by
  have own : ∀ other, ((state.update name after).sessions other).owns =
      (state.sessions other).owns := by
    intro other
    by_cases itself : other = name
    · subst itself
      simp only [update_own]
      exact funext owners
    · simp only [update_other _ _ itself]
  have slot : ∀ other, slotFor state.loop.server.slots ((state.update name after).sessions other) =
      slotFor state.loop.server.slots (state.sessions other) := by
    intro other
    simp only [slotFor, own other]
  have handler : ∀ other, handlerOn state.loop.place ((state.update name after).sessions other) =
      handlerOn state.loop.place (state.sessions other) := by
    intro other
    simp only [handlerOn, own other]
  obtain ⟨listener, place, distinct, inRange, owned, held, single, sessions, counts⟩ := sound
  refine ⟨listener, place, distinct, inRange, ?_, ?_, ?_, ?_, ?_⟩
  · intro handle member
    obtain ⟨owner, owns⟩ := owned handle member
    exact ⟨owner, by rw [own]; exact owns⟩
  · intro other handle owns
    rw [own] at owns
    exact held other handle owns
  · intro other another handle owns also
    rw [own] at owns also
    exact single other another handle owns also
  · intro other
    have before := sessions other
    change SessionSound _ (slotFor state.loop.server.slots _) (handlerOn state.loop.place _)
    rw [slot, handler]
    by_cases itself : other = name
    · subst itself
      simpa only [update_own] using kept
    · simpa only [update_other _ _ itself] using before
  · have awaits : uncounted (state.update name after) = uncounted state := by
      apply Finset.sum_congr rfl
      intro other _
      exact congrArg awaiting (slot other)
    have replies : echoed (state.update name after) = echoed state := by
      apply Finset.sum_congr rfl
      intro other _
      change Session.replied _ (slotFor state.loop.server.slots _) = _
      rw [slot]
      by_cases itself : other = name
      · subst itself
        simpa only [update_own] using same
      · simp only [update_other _ _ itself]
    rw [awaits, replies]
    exact counts

omit [DecidableEq ι] in
/-- A step of the server between handlers: it changes only where it stands, and the
interest map. -/
theorem sound_place (sound : ServiceSound state) (poller : SelectPoller) (place : EventLoop.Place)
    (standing : PlaceSound state.loop.server.slots place)
    (idle : ∀ session : Session, handlerOn state.loop.place session = none) :
    ServiceSound { state with loop := ⟨{ state.loop.server with poller }, place⟩ } := by
  obtain ⟨listener, _, distinct, inRange, owned, held, single, sessions, counts⟩ := sound
  exact ⟨listener, standing, distinct, inRange, owned, held, single,
    fun other => session_sound_idle (sessions other) (idle _) _,
    counts⟩

/-- A step of the server that exchanges the slot of one session: `old` and `new` are
what the session has before and behind it, one slot or none. -/
theorem sound_exchange (loop : EventLoop.State) (old new : List ConnSlot) {rest : List ConnSlot}
    (sound : ServiceSound state) (before : state.loop.server.slots.Perm (old ++ rest))
    (behind : loop.server.slots.Perm (new ++ rest))
    (gives : ∀ slot ∈ old, (state.sessions name).owns slot.conn.nativeHandle = true)
    (takes : ∀ slot ∈ new, after.owns slot.conn.nativeHandle = true)
    (apart : ∀ slot ∈ rest, (state.sessions name).owns slot.conn.nativeHandle = false)
    (alone : ∀ slot ∈ new, ∀ other, other ≠ name →
      (state.sessions other).owns slot.conn.nativeHandle = false)
    (has : ∀ handle, after.owns handle = true → handle ∈ handles new)
    (distinct : (handles (new ++ rest)).Nodup)
    (inRange : ∀ slot ∈ new, InRange slot.conn.nativeHandle)
    (listener : loop.server.listener = state.loop.server.listener)
    (place : PlaceSound loop.server.slots loop.place)
    (kept : SessionSound after (slotFor loop.server.slots after) (handlerOn loop.place after))
    (idle : ∀ other, other ≠ name → handlerOn state.loop.place (state.sessions other) = none)
    (counts : loop.server.completions + awaiting (slotFor loop.server.slots after) +
        (state.sessions name).replied (slotFor state.loop.server.slots (state.sessions name)) =
      state.loop.server.completions +
        awaiting (slotFor state.loop.server.slots (state.sessions name)) +
        after.replied (slotFor loop.server.slots after)) :
    ServiceSound { state.update name after with loop } := by
  have itself : ((state.update name after).sessions name) = after := by
    simp only [update_own]
  have others : ∀ other, other ≠ name →
      (state.update name after).sessions other = state.sessions other := by
    intro other different
    simp only [update_other _ _ different]
  have distinctAfter : (handles loop.server.slots).Nodup := (distinct_perm behind).mpr distinct
  have slot : ∀ other, other ≠ name →
      slotFor loop.server.slots (state.sessions other) =
        slotFor state.loop.server.slots (state.sessions other) := by
    intro other different
    refine slot_for_others sound.distinct before behind fun slot member => ?_
    rcases List.mem_append.mp member with inOld | inNew
    · by_contra also
      exact different (sound.single name other _ (gives slot inOld) (Bool.not_eq_false _ ▸ also))
    · exact alone slot inNew other different
  have middle : ∀ other, other ≠ name → ∀ handle, (state.sessions other).owns handle = true →
      handle ∈ handles state.loop.server.slots → handle ∈ handles loop.server.slots := by
    intro other different handle owns member
    obtain ⟨slot, within, rfl⟩ := mem_handles.mp member
    rcases List.mem_append.mp (before.mem_iff.mp within) with inOld | inRest
    · exact absurd (sound.single name other _ (gives slot inOld) owns) different
    · exact mem_handles.mpr ⟨slot, behind.mem_iff.mpr (List.mem_append_right _ inRest), rfl⟩
  refine ⟨listener ▸ sound.listener, place, distinctAfter, ?_, ?_, ?_, ?_, ?_, ?_⟩
  · intro slot member
    rcases List.mem_append.mp (behind.mem_iff.mp member) with inNew | inRest
    · exact inRange slot inNew
    · exact sound.inRange slot (before.mem_iff.mpr (List.mem_append_right _ inRest))
  · intro handle member
    obtain ⟨slot, within, rfl⟩ := mem_handles.mp member
    rcases List.mem_append.mp (behind.mem_iff.mp within) with inNew | inRest
    · exact ⟨name, by rw [itself]; exact takes slot inNew⟩
    · obtain ⟨owner, owns⟩ := sound.owned slot.conn.nativeHandle (mem_handles.mpr
        ⟨slot, before.mem_iff.mpr (List.mem_append_right _ inRest), rfl⟩)
      have different : owner ≠ name := fun same => by
        rw [same, apart slot inRest] at owns
        cases owns
      exact ⟨owner, by rw [others owner different]; exact owns⟩
  · intro other handle owns
    by_cases same : other = name
    · rw [same, itself] at owns
      obtain ⟨slot, member, rfl⟩ := mem_handles.mp (has handle owns)
      exact mem_handles.mpr ⟨slot, behind.mem_iff.mpr (List.mem_append_left _ member), rfl⟩
    · rw [others other same] at owns
      exact middle other same handle owns (sound.held other handle owns)
  · intro first second handle owns also
    by_cases isFirst : first = name
    · by_cases isSecond : second = name
      · exact isSecond.trans isFirst.symm
      · rw [isFirst, itself] at owns
        rw [others second isSecond] at also
        obtain ⟨slot, member, rfl⟩ := mem_handles.mp (has handle owns)
        simp [alone slot member second isSecond] at also
    · by_cases isSecond : second = name
      · rw [others first isFirst] at owns
        rw [isSecond, itself] at also
        obtain ⟨slot, member, rfl⟩ := mem_handles.mp (has handle also)
        simp [alone slot member first isFirst] at owns
      · rw [others first isFirst] at owns
        rw [others second isSecond] at also
        exact sound.single first second handle owns also
  · intro other
    by_cases same : other = name
    · rw [same, itself]
      exact kept
    · rw [others other same]
      change SessionSound _ (slotFor loop.server.slots _) _
      rw [slot other same]
      exact session_sound_idle (sound.sessions other) (idle other same) _
  · have awaits := sum_exchange
      (fun other => awaiting (slotFor state.loop.server.slots (state.sessions other)))
      (fun other => awaiting (slotFor loop.server.slots ((state.update name after).sessions other)))
      name (fun other different => by simp only [others other different, slot other different])
    have replies := sum_exchange
      (fun other => (state.sessions other).replied
        (slotFor state.loop.server.slots (state.sessions other)))
      (fun other => ((state.update name after).sessions other).replied
        (slotFor loop.server.slots ((state.update name after).sessions other)))
      name (fun other different => by simp only [others other different, slot other different])
    have balance := sound.counts
    simp only [itself] at awaits replies
    simp only [uncounted, echoed] at balance ⊢
    omega

end Steps

/-- Where the event loop goes on behind a pass of a handler that has not lost its
slot. Behind the read handler the write handler may follow. -/
def goesTo (server : Server) (index : Nat) (socket : Int) (before after : EchoConnection.Phase)
    (rest : List PollEvent) : Handling :=
  match after with
  | .waiting => .dispatching rest
  | _ =>
      if EventLoop.leavesReadHandler before after then EventLoop.writeEvent server socket rest
      else .serving index socket after rest

/-- What a pass of a handler does with the slot that it leaves behind: it stores it,
or it removes it with its descriptor when the peer has closed. -/
theorem serve_pass_cases {endian : Endian} {server next : Server} {index : Nat} {socket : Int}
    {phase : EchoConnection.Phase} {rest : List PollEvent} {choice : EventLoop.Choice}
    {place : Handling} {events : List EventLoop.Event} {slot : ConnSlot}
    (found : server.slots[index]? = some slot)
    (passed : EventLoop.servePass endian EventLoop.kMaxPayload EventLoop.scratchSize server index
      socket phase rest choice = some (next, place, events)) :
    ∃ served emitted,
      EchoConnection.serverStep endian EventLoop.kMaxPayload EventLoop.scratchSize
        ⟨slot, server.poller, server.completions, phase⟩
        { recv := choice.recv, send := choice.send } = some (served, emitted) ∧
      (serving served.phase = true → next = stored server index served ∧
        place = goesTo next index socket phase served.phase rest) ∧
      (served.phase = .peerClosed →
        next.slots = swapPop (server.slots.set index served.slot) index ∧
        next.completions = served.completions ∧ next.listener = server.listener ∧
        place = .dispatching rest) := by
  simp only [EventLoop.servePass, found] at passed
  cases stepped : EchoConnection.serverStep endian EventLoop.kMaxPayload EventLoop.scratchSize
      ⟨slot, server.poller, server.completions, phase⟩
      { recv := choice.recv, send := choice.send } with
  | none => simp [stepped] at passed
  | some result =>
    obtain ⟨served, emitted⟩ := result
    refine ⟨served, emitted, rfl, ?_⟩
    simp only [stepped] at passed
    cases after : served.phase with
    | waiting =>
      simp only [after] at passed
      cases passed
      exact ⟨fun _ => ⟨rfl, rfl⟩, (by rintro ⟨⟩)⟩
    | peerClosed =>
      obtain ⟨inside, _⟩ := List.getElem?_eq_some_iff.mp found
      simp only [after, EventLoop.removeSlot, List.getElem?_set_self inside] at passed
      cases passed
      exact ⟨(by rintro ⟨⟩), fun _ => ⟨rfl, rfl, rfl, rfl⟩⟩
    | aborted cause | faulted fault =>
      exact ⟨(by rintro ⟨⟩), (by rintro ⟨⟩)⟩
    | receiving thenWrite | decoding thenWrite | flushing caller =>
      simp only [after] at passed
      refine ⟨fun _ => ?_, (by rintro ⟨⟩)⟩
      split at passed
      · rename_i leaving
        cases passed
        exact ⟨rfl, by simp only [goesTo, leaving, ↓reduceIte]⟩
      · rename_i staying
        cases passed
        exact ⟨rfl, by simp only [goesTo, staying, Bool.false_eq_true, ↓reduceIte]⟩

/-- The owner of one slot owns no other. -/
theorem others_apart {slots rest : List ConnSlot} {slot other : ConnSlot} {session : Session}
    (distinct : (handles slots).Nodup) (focus : slots.Perm ([slot] ++ rest))
    (owns : session.owns slot.conn.nativeHandle = true) (within : other ∈ rest) :
    session.owns other.conn.nativeHandle = false := by
  by_contra also
  have same := owns_unique owns (Bool.not_eq_false _ ▸ also)
  have apart := (distinct_perm focus).mp distinct
  rw [List.singleton_append, handles, List.map_cons, List.nodup_cons] at apart
  exact apart.1 (same ▸ List.mem_map_of_mem within)

/-- An event of a connection starts a handler on the slot that it has found, or none. -/
theorem connection_event_sound (server : Server) (event : PollEvent) (rest : List PollEvent) :
    PlaceSound server.slots (.handling (EventLoop.connectionEvent server event rest)) := by
  unfold EventLoop.connectionEvent
  cases found : findSlotIndex server.slots event.socket with
  | none => trivial
  | some idx =>
    obtain ⟨slot, standing, handle⟩ := EventLoop.found_slot found
    simp only
    split
    · exact ⟨rfl, slot, standing, handle⟩
    · split
      · obtain ⟨widx, other, serves, within, same⟩ := write_event_serves server event.socket rest
          (mem_handles.mpr ⟨slot, List.mem_of_getElem? standing, handle⟩)
        rw [serves]
        exact ⟨rfl, other, within, same⟩
      · trivial

/-- A client that has just connected waits in the listener's queue. -/
theorem connect_sound {state : State ι} {name : ι} (sound : ServiceSound state)
    (connecting : (state.sessions name).client.phase = .connecting) :
    ServiceSound (state.update name { state.sessions name with
      client := { (state.sessions name).client with phase := .encoding 0 }
      stage := .pending }) := by
  have connected := sound.sessions name
  obtain ⟨⟨fits, _⟩, exchange, upward, downward, unconnected, _, awaited, decoded⟩ := connected
  have unknown := unconnected.mp connecting
  have silent : (state.sessions name).client.sent = [] := by simp only [Client.sent, connecting]
  obtain ⟨nothing, returning, unsent, balance⟩ := exchange_unsent exchange
    (silent ▸ (frame_nonempty _).symm)
  refine sound_session sound (fun _ => ?_) ⟨⟨fits, Nat.zero_le _⟩, ?_, ?_, ?_, ?_,
    (by rintro ⟨⟩), awaited, decoded⟩ ?_
  · simp only [Session.owns, unknown]
  · exact .request rfl returning unsent (balance.trans silent)
  · simpa [connecting] using upward
  · exact fun _ => downward (by simp [unknown])
  · simp
  · simp only [Session.replied, Client.completed, connecting, nothing]
    rfl

section Server

variable {state after : State ι} {endian : Endian} {capacity : Nat} {choice : ServerChoice ι}

/-- Behind a pass the loop stands well, and its handler is as far as the pass says. -/
theorem goes_to_sound (before : EchoConnection.Phase) (rest : List PollEvent) {server : Server}
    {index : Nat} {socket : Int} {phase : EchoConnection.Phase} {slot : ConnSlot}
    (found : server.slots[index]? = some slot) (handle : slot.conn.nativeHandle = socket)
    (inCharge : serving phase = true) :
    PlaceSound server.slots (.handling (goesTo server index socket before phase rest)) ∧
      ∀ (session : Session) (slot : ConnSlot), session.owns socket = true →
        SessionSound session slot (some phase) → SessionSound session slot
          (handlerOn (.handling (goesTo server index socket before phase rest)) session) := by
  cases phase with
  | waiting =>
    refine ⟨trivial, ?_⟩
    intro session slot _ sound
    exact session_sound_handler sound nofun nofun
  | receiving thenWrite | decoding thenWrite | flushing caller =>
    simp only [goesTo]
    split
    · rename_i leaves
      obtain ⟨_, onward⟩ := EventLoop.leaves_read_handler leaves
      obtain ⟨widx, other, serves, standing, same⟩ := write_event_serves server socket
        rest (mem_handles.mpr ⟨slot, List.mem_of_getElem? found, handle⟩)
      rw [serves]
      refine ⟨⟨rfl, other, standing, same⟩, ?_⟩
      intro session slot owns sound
      simpa only [handlerOn, owns, ↓reduceIte, ← onward] using sound
    · refine ⟨⟨rfl, slot, found, handle⟩, ?_⟩
      intro session slot owns sound
      simpa only [handlerOn, owns, ↓reduceIte] using sound
  | peerClosed | aborted cause | faulted fault => cases inCharge

/-- A pass of a handler is about the session that owns the slot. The world can only
answer for that one, on its own pipes. -/
theorem serve_shape {index : Nat} {socket : Int} {phase : EchoConnection.Phase}
    {rest : List PollEvent} {answer : EventLoop.Choice} {next : Server} {place : Handling}
    {events : List EventLoop.Event} (sound : ServiceSound state)
    (succeeds : choice.failure = none)
    (standing : state.loop.place = .handling (.serving index socket phase rest))
    (answered : answers capacity state choice = some (answer, after))
    (passed : EventLoop.servePass endian EventLoop.kMaxPayload EventLoop.scratchSize
      state.loop.server index socket phase rest answer = some (next, place, events)) :
    ∃ name session slot served emitted,
      after = state.update name session ∧ state.loop.server.slots[index]? = some slot ∧
      slot.conn.nativeHandle = socket ∧ (state.sessions name).owns socket = true ∧
      callAnswer capacity (state.sessions name) slot phase choice.count = some (answer, session) ∧
      EchoConnection.serverStep endian EventLoop.kMaxPayload EventLoop.scratchSize
        ⟨slot, state.loop.server.poller, state.loop.server.completions, phase⟩
        { recv := answer.recv, send := answer.send } = some (served, emitted) ∧
      (serving served.phase = true → next = stored state.loop.server index served ∧
        place = goesTo next index socket phase served.phase rest) ∧
      (served.phase = .peerClosed →
        next.slots = swapPop (state.loop.server.slots.set index served.slot) index ∧
        next.completions = served.completions ∧ next.listener = state.loop.server.listener ∧
        place = .dispatching rest) := by
  obtain ⟨_, slot, found, handle⟩ : PlaceSound state.loop.server.slots
    (.handling (.serving index socket phase rest)) := standing ▸ sound.place
  simp only [answers, standing, succeeds, found] at answered
  cases named : choice.name with
  | none => simp [named] at answered
  | some name =>
    simp only [named] at answered
    split at answered
    · rename_i owns
      cases called : callAnswer capacity (state.sessions name) slot phase choice.count with
      | none => simp [called] at answered
      | some reply =>
        obtain ⟨given, session⟩ := reply
        simp only [called, Option.map_some, Option.some.injEq, Prod.mk.injEq] at answered
        obtain ⟨rfl, rfl⟩ := answered
        obtain ⟨served, emitted, stepped, goesOn, closes⟩ := serve_pass_cases found passed
        exact ⟨name, session, slot, served, emitted, rfl, found, handle, handle ▸ owns, called,
          stepped, goesOn, closes⟩
    · cases answered

/-- A pass of a handler keeps the service in order. Either the slot is stored back,
and the step is one of the session that owns it, or it is removed, and that session is
dropped. -/
theorem serve_sound {index : Nat} {socket : Int} {phase : EchoConnection.Phase}
    {rest : List PollEvent} {answer : EventLoop.Choice} {next : Server} {place : Handling}
    {events : List EventLoop.Event} (sound : ServiceSound state)
    (succeeds : choice.failure = none)
    (standing : state.loop.place = .handling (.serving index socket phase rest))
    (answered : answers capacity state choice = some (answer, after))
    (passed : EventLoop.servePass endian EventLoop.kMaxPayload EventLoop.scratchSize
      state.loop.server index socket phase rest answer = some (next, place, events)) :
    ServiceSound { after with loop := ⟨next, .handling place⟩ } := by
  obtain ⟨name, session, slot, served, emitted, rfl, found, handle, owns, called, stepped, goesOn,
    closes⟩ := serve_shape sound succeeds standing answered passed
  rw [← handle] at owns
  have member := List.mem_of_getElem? found
  have own := slot_for_owned sound.distinct member owns
  have serves : handlerOn state.loop.place (state.sessions name) = some phase := by
    simp [handlerOn, standing, ← handle, owns]
  have connected := sound.sessions name
  rw [own, serves] at connected
  have passes := pass_sound connected (sound.valid member) (owner_held owns) called
    stepped
  have kept : served.slot.conn.nativeHandle = slot.conn.nativeHandle :=
    InterestTracking.effect_handle (InterestTracking.server_step_effect stepped)
  obtain ⟨inside, _⟩ := List.getElem?_eq_some_iff.mp found
  have before := slots_focus found
  have apart : ∀ other ∈ state.loop.server.slots.eraseIdx index,
      (state.sessions name).owns other.conn.nativeHandle = false :=
    fun other within => others_apart sound.distinct before owns within
  have idle : ∀ other, other ≠ name →
      handlerOn state.loop.place (state.sessions other) = none := by
    intro other different
    have apart : (state.sessions other).owns socket = false := by
      by_contra also
      rw [← handle] at also
      exact different (sound.single name other _ owns (Bool.not_eq_false _ ▸ also))
    simp [handlerOn, standing, apart]
  have balance := passes.counts
  rcases passes.outcome with ⟨going, stage, connectedAfter⟩ |
    ⟨gone, dropped, quiet, connectedAfter, repliesKept⟩
  · -- The handler goes on with its slot, or returns with it.
    obtain ⟨rfl, rfl⟩ := goesOn going
    have owners : ∀ other, session.owns other = (state.sessions name).owns other := by
      intro other
      simp only [Session.owns, stage]
    have behind : (stored state.loop.server index served).slots.Perm
        ([served.slot] ++ state.loop.server.slots.eraseIdx index) :=
      List.set_perm_cons_eraseIdx inside served.slot
    have distinct : (handles ([served.slot] ++ state.loop.server.slots.eraseIdx index)).Nodup := by
      have old := (distinct_perm before).mp sound.distinct
      simpa [handles, kept] using old
    have ownsAfter : session.owns served.slot.conn.nativeHandle = true := by
      rw [owners, kept]
      exact owns
    have ownAfter : slotFor (stored state.loop.server index served).slots session =
        served.slot :=
      slot_for_owned ((distinct_perm behind).mpr distinct)
        (behind.mem_iff.mpr (List.mem_append_left _ List.mem_cons_self)) ownsAfter
    have stays : (stored state.loop.server index served).slots[index]? = some served.slot :=
      List.getElem?_set_self inside
    obtain ⟨place, handler⟩ := goes_to_sound phase rest stays (kept.trans handle) going
    refine sound_exchange ⟨stored state.loop.server index served, _⟩ [slot] [served.slot]
      sound before behind ?_ ?_ apart ?_ ?_ distinct ?_ rfl place ?_
      idle ?_
    · exact fun other one => List.mem_singleton.mp one ▸ owns
    · exact fun other one => List.mem_singleton.mp one ▸ ownsAfter
    · intro another one other different
      rw [List.mem_singleton.mp one, kept]
      by_contra also
      exact different (sound.single name other _ owns (Bool.not_eq_false _ ▸ also))
    · intro other also
      rw [owns_unique ownsAfter also]
      exact List.mem_singleton_self _
    · intro other one
      rw [List.mem_singleton.mp one, kept]
      exact sound.inRange slot member
    · rw [ownAfter]
      refine handler session served.slot ?_ connectedAfter
      rw [owners, ← handle]
      exact owns
    · rw [ownAfter, own]
      exact balance
  · obtain ⟨slots, completions, listener, rfl⟩ := closes gone
    have nobody : ∀ other, session.owns other = false := by
      intro other
      simp only [Session.owns, dropped]
    have behind : next.slots.Perm ([] ++ state.loop.server.slots.eraseIdx index) := by
      rw [slots]
      exact EventLoop.removed_perm found served.slot
    have distinct : (handles ([] ++ state.loop.server.slots.eraseIdx index)).Nodup := by
      have old := (distinct_perm before).mp sound.distinct
      rw [List.singleton_append, handles, List.map_cons] at old
      exact old.of_cons
    have ownAfter : slotFor next.slots session = emptySlot :=
      slot_for_absent fun other owns => by simp [nobody other] at owns
    refine sound_exchange ⟨next, _⟩ [slot] [] sound before behind ?_ (by rintro _ ⟨⟩) apart
      (by rintro _ ⟨⟩) ?_ distinct (by rintro _ ⟨⟩) listener trivial ?_ idle ?_
    · exact fun other one => List.mem_singleton.mp one ▸ owns
    · exact fun other owns => by simp [nobody other] at owns
    · rw [ownAfter]
      exact connectedAfter
    · rw [ownAfter, own, repliesKept, completions]
      simp only [awaiting, quiet, emptySlot, Bool.false_eq_true, ↓reduceIte] at balance ⊢
      exact balance

/-- The slot of a new connection. -/
def acceptedSlot (descriptor : Nat) : ConnSlot where
  conn := { socket := ⟨descriptor⟩ }

/-- A connection that the kernel hands out is registered and gets a slot. -/
theorem accept_pass_adds {server : Server} (listens : server.listener.valid = true)
    (rest : List PollEvent) (descriptor : Nat) :
    ∃ poller, EventLoop.acceptPass server rest { accept := .accepted descriptor } =
      ({ server with slots := server.slots ++ [acceptedSlot descriptor], poller },
        .accepting rest, [.accepted descriptor, .added descriptor]) := by
  have taken : Acceptor.acceptOne server.listener (.accepted descriptor) =
      .ok ⟨(descriptor : Int)⟩ := by
    simp [Acceptor.acceptOne, listens]
  have usable : (descriptor : Int) ≠ kInvalidSocket := by
    unfold kInvalidSocket
    omega
  simp [EventLoop.acceptPass, Acceptor.acceptAndRegister, taken, Acceptor.registerAccepted,
    Acceptor.setNonblocking, SelectPoller.upsert, Connection.nativeHandle, Socket.nativeHandle,
    Socket.valid, usable, acceptedSlot]

/-- The accept loop ends when the kernel has no connection. -/
theorem accept_pass_ends {server : Server} (listens : server.listener.valid = true)
    (rest : List PollEvent) :
    EventLoop.acceptPass server rest { accept := .failed .eagain } =
      (server, .dispatching rest, []) := by
  simp [EventLoop.acceptPass, Acceptor.acceptOne, Acceptor.acceptAndRegister, listens,
    EventLoop.acceptWouldBlock]

/-- A pass of the accept loop keeps the service in order: the slot that it adds is the
empty one that the session has had so far. -/
theorem accept_sound {rest : List PollEvent} {answer : EventLoop.Choice}
    (sound : ServiceSound state) (obliging : Obliging state choice)
    (standing : state.loop.place = .handling (.accepting rest))
    (answered : answers capacity state choice = some (answer, after)) :
    ServiceSound { after with
      loop := ⟨(EventLoop.acceptPass state.loop.server rest answer).1,
        .handling (EventLoop.acceptPass state.loop.server rest answer).2.1⟩ } := by
  have idle : ∀ session : Session, handlerOn state.loop.place session = none := by
    intro session
    simp [handlerOn, standing]
  have listens := sound.listens
  simp only [answers, standing, obliging.succeeds, obliging.unblocks, Session.takenOver, ↓reduceIte]
    at answered
  cases named : choice.name with
  | none =>
    simp only [named] at answered
    split at answered
    · cases answered
      rw [accept_pass_ends listens]
      exact sound_place sound state.loop.server.poller (.handling (.dispatching rest)) trivial idle
    · cases answered
  | some name =>
    simp only [named] at answered
    split at answered
    · rename_i allowed
      obtain ⟨pending, unused⟩ := allowed
      cases answered
      have fresh : (choice.descriptor : Int) ∉ handles state.loop.server.slots :=
        fun member => unused (List.mem_cons_of_mem _ member)
      have nobody : ∀ handle, (state.sessions name).owns handle = false := by
        intro handle
        simp only [Session.owns, pending]
      have connected := sound.sessions name
      have own : slotFor state.loop.server.slots (state.sessions name) = emptySlot :=
        slot_for_absent fun handle owns => by simp [nobody handle] at owns
      let slot := acceptedSlot choice.descriptor
      let session : Session :=
        { state.sessions name with stage := .accepted choice.descriptor }
      have ownsAfter : session.owns slot.conn.nativeHandle = true := by
        simp [session, slot, acceptedSlot, Session.owns, Connection.nativeHandle,
          Socket.nativeHandle]
      obtain ⟨poller, passed⟩ := accept_pass_adds listens rest choice.descriptor
      rw [passed]
      have behind : (state.loop.server.slots ++ [slot]).Perm
          ([slot] ++ state.loop.server.slots) := List.perm_append_comm
      have distinct : (handles ([slot] ++ state.loop.server.slots)).Nodup := by
        rw [List.singleton_append, handles, List.map_cons, List.nodup_cons]
        exact ⟨fresh, sound.distinct⟩
      have ownAfter : slotFor (state.loop.server.slots ++ [slot]) session = slot :=
        slot_for_owned ((distinct_perm behind).mpr distinct)
          (List.mem_append_right _ List.mem_cons_self) ownsAfter
      refine sound_exchange ⟨{ state.loop.server with
        slots := state.loop.server.slots ++ [slot], poller }, .handling (.accepting rest)⟩ [] [slot]
        sound (List.Perm.refl _) behind (by rintro _ ⟨⟩) ?_ (fun other _ => nobody _) ?_ ?_
        distinct ?_ rfl trivial ?_ (fun other _ => idle _) ?_
      · exact fun other one => List.mem_singleton.mp one ▸ ownsAfter
      · intro another one other different
        rw [List.mem_singleton.mp one]
        by_contra also
        exact fresh (sound.held other _ (Bool.not_eq_false _ ▸ also))
      · intro other also
        rw [owns_unique ownsAfter also]
        exact List.mem_singleton_self _
      · intro other one
        rw [List.mem_singleton.mp one]
        exact obliging.fits
      · rw [ownAfter]
        rw [own] at connected
        obtain ⟨client, exchange, upward, downward, unconnected, dropped, awaited, _⟩ := connected
        refine ⟨client, ?_, upward, fun _ => downward (by simp [pending]), ?_,
          (by rintro ⟨⟩), (by rintro ⟨⟩), fun whole => absurd whole.symm (frame_nonempty _)⟩
        · cases exchange with
          | request nothing returning unsent balance =>
            exact .request nothing returning unsent balance
          | reply whole balance consumed asked => exact .reply whole balance consumed asked
        · rw [unconnected, pending]
          simp
      · rw [ownAfter, own]
        rfl
    · cases answered

omit [DecidableEq ι] in
/-- Every registered descriptor fits into an `fd_set`: it is that of the listener, or of
a slot. -/
theorem poller_fits (sound : ServiceSound state) (bookkept : Bookkept state.loop.server) :
    FdSetRange.Fits state.loop.server.poller := by
  intro fd registered
  have listed := (lists_mem bookkept.lists).mp registered
  rw [List.keys_cons, EventLoop.registrations_keys] at listed
  rcases List.mem_cons.mp listed with rfl | held
  · exact sound.listener
  · obtain ⟨slot, member, rfl⟩ := mem_handles.mp held
    exact sound.inRange slot member

omit [DecidableEq ι] in
/-- So `wait` returns, and where `::select` does not fail it returns a batch. -/
theorem wait_call_returns (sound : ServiceSound state) (bookkept : Bookkept state.loop.server)
    {order : List Entry} {select : SelectAnswer} (selects : ∀ errno, select ≠ .failed errno)
    {called : Except SelectWait.WaitFault Waited}
    (waits : waitCall state.loop.server.poller order select = some called) :
    ∃ waited written, called = .ok waited ∧ waited.result = .ok written := by
  unfold waitCall at waits
  split at waits
  · rename_i perm
    obtain ⟨waited, returned⟩ := FdSetRange.wait_defined (poller_fits sound bookkept) ⟨order, perm⟩
      events kPollMs (fun _ => select)
    have room : events ≠ [] := by decide
    obtain ⟨written, result⟩ := SelectWait.wait_succeeds room (fun _ => selects) returned
    rw [returned] at waits
    exact ⟨waited, written, (Option.some.inj waits).symm, result⟩
  · cases waits

omit [DecidableEq ι] in
/-- What the head of the loop does in an obliging world: it leaves the loop without
slots, or goes through the batch that `wait` has returned. -/
theorem round_step_cases {next : State ι} {told : List EventLoop.Event}
    (sound : ServiceSound state) (bookkept : Bookkept state.loop.server)
    (top : state.loop.place = .top) (obliging : Obliging state choice)
    (stepped : roundStep endian state choice = some (next, told)) :
    (choice.stop = true ∧ state.loop.server.slots = [] ∧
      next = { state with loop.place := .cleaning }) ∨
    (¬ (choice.stop = true ∧ state.loop.server.slots = []) ∧ ∃ waited written,
      waitCall state.loop.server.poller choice.order choice.select = some (.ok waited) ∧
      waited.result = .ok written ∧
      next = { state with
        loop.place := .handling (.dispatching (waited.outEvents.take written)) }) := by
  simp only [roundStep, obliging.inTime, Bool.false_or, Bool.and_eq_true, List.isEmpty_iff]
    at stepped
  split at stepped
  · rename_i leaves
    left
    have ends : (choice.stop && state.loop.server.slots.isEmpty) = true := by simp [leaves]
    obtain ⟨⟨loop, emitted⟩, moved, same⟩ := Option.map_eq_some_iff.mp stepped
    simp only [EventLoop.runServer, top, ends, Bool.false_eq_true, ↓reduceIte] at moved
    cases moved
    cases same
    exact ⟨leaves.1, leaves.2, rfl⟩
  · rename_i stays
    right
    have goesOn : ¬ (choice.stop && state.loop.server.slots.isEmpty) = true := by
      simpa [List.isEmpty_iff] using stays
    cases waits : waitCall state.loop.server.poller choice.order choice.select with
    | none => simp [waits] at stepped
    | some called =>
      obtain ⟨waited, written, rfl, result⟩ :=
        wait_call_returns sound bookkept obliging.selects waits
      simp only [waits] at stepped
      obtain ⟨⟨loop, emitted⟩, moved, same⟩ := Option.map_eq_some_iff.mp stepped
      simp only [EventLoop.runServer, top, goesOn, batchOf, result, Except.map,
        Bool.false_eq_true, ↓reduceIte] at moved
      cases moved
      cases same
      exact ⟨stays, waited, written, rfl, result, rfl⟩

/-- The server is at the head of its loop, or gets the answers of the kernel. -/
theorem server_step_cases {next : State ι} {told : List EventLoop.Event}
    (stepped : serverStep endian capacity state choice = some (next, told)) :
    (state.loop.place = .top ∧ roundStep endian state choice = some (next, told)) ∨
    (state.loop.place ≠ .top ∧ ∃ answer after loop,
      answers capacity state choice = some (answer, after) ∧
      EventLoop.runServer endian state.loop answer = some (loop, told) ∧
      next = { after with loop }) := by
  unfold serverStep at stepped
  split at stepped
  · rename_i top
    exact Or.inl ⟨top, stepped⟩
  · rename_i away
    cases answered : answers capacity state choice with
    | none => simp [answered] at stepped
    | some reply =>
      obtain ⟨answer, after⟩ := reply
      simp only [answered] at stepped
      obtain ⟨⟨loop, emitted⟩, moved, same⟩ := Option.map_eq_some_iff.mp stepped
      cases same
      exact Or.inr ⟨away, answer, after, loop, rfl, moved, rfl⟩

/-- The kernel hands out closed descriptors. The only place where it hands out any is
the accept loop, and it tests that there. -/
theorem answers_hand_out_closed {answer : EventLoop.Choice}
    (answered : answers capacity state choice = some (answer, after)) :
    EventLoop.HandsOutClosed state.loop answer := by
  intro descriptor accepted
  unfold answers at answered
  split at answered
  · split at answered
    · cases answered
      cases accepted
    · split at answered
      · cases answered
        cases accepted
      · cases answered
    · split at answered
      · rename_i allowed
        cases answered
        cases accepted
        exact allowed.2
      · cases answered
  · split at answered
    · cases answered
      cases accepted
    · split at answered
      · obtain ⟨⟨given, session⟩, called, same⟩ := Option.map_eq_some_iff.mp answered
        cases same
        unfold callAnswer at called
        repeat' split at called
        all_goals cases called <;> cases accepted
      · cases answered
    · cases answered
  · split at answered
    · cases answered
      cases accepted
    · split at answered
      · cases answered
        cases accepted
      · cases answered
    · cases answered
  · cases answered
    cases accepted

/-- A step of the server keeps the service in order, and the books of the server. At
the top of the loop it waits on its interest map, elsewhere the pass has a lemma of
its own; the server only leaves its main loop without slots. -/
theorem server_sound {next : State ι} {told : List EventLoop.Event}
    (sound : ServiceSound state) (kept : Kept state.loop) (obliging : Obliging state choice)
    (stepped : serverStep endian capacity state choice = some (next, told)) :
    ServiceSound next ∧ Kept next.loop := by
  rcases server_step_cases stepped with
    ⟨top, round⟩ | ⟨away, answer, after, loop, answered, moved, rfl⟩
  · have bookkept : Bookkept state.loop.server := EventLoop.kept_between kept (by rw [top]; rfl)
    have idle : ∀ session : Session, handlerOn state.loop.place session = none := fun _ => by
      rw [top]
      rfl
    rcases round_step_cases sound bookkept top obliging round with
      ⟨_, empty, rfl⟩ | ⟨_, waited, written, _, _, rfl⟩
    · exact ⟨sound_place sound state.loop.server.poller .cleaning empty idle, bookkept⟩
    · exact ⟨sound_place sound state.loop.server.poller
        (.handling (.dispatching (waited.outEvents.take written))) trivial idle, bookkept⟩
  · refine ⟨?_, EventLoop.step_kept kept (answers_hand_out_closed answered) moved⟩
    obtain ⟨⟨server, place⟩, sessions⟩ := state
    have standing := sound.place
    cases place with
    | top => exact absurd rfl away
    | handling handling =>
      cases handling with
      | dispatching batch =>
        cases answered
        cases batch with
        | nil =>
          cases moved
          exact sound_place sound server.poller .top trivial (fun _ => rfl)
        | cons event rest =>
          simp only [EventLoop.runServer] at moved
          split at moved
          · cases moved
            refine sound_place sound server.poller (.handling (EventLoop.listenerEvent event rest))
              ?_ (fun _ => rfl)
            unfold EventLoop.listenerEvent
            split <;> trivial
          · cases moved
            exact sound_place sound server.poller
              (.handling (EventLoop.connectionEvent server event rest))
              (connection_event_sound server event rest) (fun _ => rfl)
      | accepting rest =>
        cases moved
        exact accept_sound sound obliging rfl answered
      | serving index socket phase rest =>
        simp only [EventLoop.runServer] at moved
        cases passed : EventLoop.servePass endian EventLoop.kMaxPayload EventLoop.scratchSize
            server index socket phase rest answer with
        | none => simp [passed] at moved
        | some outcome =>
          obtain ⟨served, place, emitted⟩ := outcome
          simp only [passed] at moved
          cases moved
          exact serve_sound sound obliging.succeeds rfl answered passed
      | aborted cause => cases standing
      | faulted fault => cases standing
    | cleaning =>
      have empty : server.slots = [] := standing
      simp only [answers, empty, List.getLast?_nil] at answered
      cases answered
      simp only [EventLoop.runServer, empty, List.isEmpty_nil, ↓reduceIte] at moved
      cases moved
      rw [← empty]
      exact sound_place sound _ .finished empty (fun _ => rfl)
    | finished => cases moved

/-- Every orderly step keeps the service in order, and the books of the server. The
steps of clients and pipes concern one session and not the server. -/
theorem service_step_sound {next : State ι} {action : Action ι} {told : List EventLoop.Event}
    (sound : ServiceSound state) (kept : Kept state.loop) (orderly : Orderly state action)
    (stepped : serviceStep endian capacity state action = some (next, told)) :
    ServiceSound next ∧ Kept next.loop := by
  cases action with
  | client name count =>
    obtain ⟨after, taken, same⟩ := Option.map_eq_some_iff.mp stepped
    cases same
    unfold clientStep at taken
    simp only at taken
    split at taken
    · rename_i connecting
      split at taken
      · cases taken
        exact ⟨connect_sound sound connecting, kept⟩
      · cases taken
    · obtain ⟨session, called, rfl⟩ := Option.map_eq_some_iff.mp taken
      obtain ⟨connected, same, stage⟩ := client_call_sound (sound.sessions name) called
      exact ⟨sound_session sound (fun handle => by simp only [Session.owns, stage]) connected same,
        kept⟩
  | upward name count =>
    obtain ⟨up, advanced, same⟩ := Option.map_eq_some_iff.mp stepped
    cases same
    obtain ⟨connected, replies⟩ := upward_sound (sound.sessions name) advanced
    exact ⟨sound_session sound (fun _ => rfl) connected replies, kept⟩
  | downward name count =>
    obtain ⟨down, advanced, same⟩ := Option.map_eq_some_iff.mp stepped
    cases same
    obtain ⟨connected, replies⟩ := downward_sound (sound.sessions name) advanced
    exact ⟨sound_session sound (fun _ => rfl) connected replies, kept⟩
  | server choice => exact server_sound sound kept orderly stepped

end Server

omit [DecidableEq ι] in
/-- Before anybody connects everything is in order: nobody owns a descriptor, every
pipe is empty, and no client has sent or received anything. -/
theorem started_sound {listener : Socket} (inRange : InRange listener.nativeHandle)
    {clients : ι → Client}
    (connecting : ∀ name, (clients name).phase = .connecting)
    (fits : ∀ name, (clients name).payload.length ≤ FrameDecoder.payloadCap EventLoop.kMaxPayload) :
    ServiceSound (started listener clients) := by
  have usable : listener.nativeHandle ≠ kInvalidSocket := by
    simpa [Socket.valid, Socket.nativeHandle] using in_range_valid inRange
  have opens : ∃ poller, EventLoop.opened listener = ⟨{ listener, poller }, .top⟩ := by
    simp [EventLoop.opened, Acceptor.registerListener, SelectPoller.upsert, usable]
  obtain ⟨poller, opened⟩ := opens
  have nobody : ∀ name handle, ((started listener clients).sessions name).owns handle = false :=
    fun _ _ => rfl
  have slot : ∀ name, slotFor (started listener clients).loop.server.slots
      ((started listener clients).sessions name) = emptySlot := by
    intro name
    exact slot_for_absent fun handle owns => by simp [nobody name handle] at owns
  have silent : ∀ name, (clients name).sent = [] := fun name => by
    simp only [Client.sent, connecting name]
  have untouched : ∀ name, (clients name).got = [] := fun name => by
    simp only [Client.got, connecting name]
  have none_yet : (started listener clients).loop.server.slots = [] := by
    simp [started, opened]
  refine ⟨?_, ?_, ?_, ?_, ?_, ?_, ?_, ?_, ?_⟩
  · simpa [started, opened] using inRange
  · simp only [started, opened]
    trivial
  · rw [none_yet]
    exact List.nodup_nil
  · rw [none_yet]
    rintro _ ⟨⟩
  · rw [none_yet]
    rintro _ ⟨⟩
  · intro name handle owns
    simp [nobody name handle] at owns
  · intro name other handle owns
    simp [nobody name handle] at owns
  · intro name
    rw [slot name]
    refine ⟨⟨fits name, ?_⟩, ?_, ?_, fun _ => rfl, ?_, (by rintro ⟨⟩), (by rintro ⟨⟩),
      fun whole => absurd whole.symm (frame_nonempty _)⟩
    · simp only [started, connecting name]
    · exact .request (untouched name) rfl rfl (silent name).symm
    · simp [started, connecting name]
    · simp [started, connecting name]
  · have awaits : uncounted (started listener clients) = 0 :=
      Finset.sum_eq_zero fun name _ => by rw [slot name]; rfl
    have replies : echoed (started listener clients) = 0 :=
      Finset.sum_eq_zero fun name _ => by
        rw [slot name, replied_request _ _ (untouched name) rfl rfl]
        simp only [started, Client.completed, connecting name]
    rw [awaits, replies]
    simp [started, opened]

/-- Everything stays in order along every orderly run. -/
theorem run_sound {endian : Endian} {capacity : Nat} {start state : State ι}
    {history : List EventLoop.Event} (sound : ServiceSound start) (kept : Kept start.loop)
    (run : Run (echoService ι endian capacity) Orderly start state history) :
    ServiceSound state ∧ Kept state.loop := by
  refine run_invariant (fun state _ => ServiceSound state ∧ Kept state.loop) ⟨sound, kept⟩ ?_ run
  intro state history action next events _ ⟨sound, kept⟩ orderly stepped
  exact service_step_sound sound kept orderly stepped

/-- What client, pipes and buffers hold of the current round. -/
theorem exchange_balance {session : Session} {conn : Connection}
    (exchange : Exchange session conn) :
    session.client.got ++ session.down.contents ++ conn.writeBuf ++ conn.readBuf ++
      session.up.contents = session.client.sent := by
  cases exchange with
  | request nothing returning unsent balance =>
    rw [nothing, returning, unsent]
    exact balance
  | reply whole balance consumed asked =>
    rw [balance, consumed, asked, whole]
    simp

/-- A client that is done has had all its rounds. -/
theorem finished_replied {session : Session} {slot : ConnSlot}
    {handler : Option EchoConnection.Phase} (sound : SessionSound session slot handler)
    (finished : session.client.phase = .finished) :
    session.replied slot = session.client.roundTrips := by
  have silent : session.client.sent = [] := by simp only [Client.sent, finished]
  obtain ⟨nothing, returning, unsent, _⟩ := exchange_unsent sound.exchange
    (silent ▸ (frame_nonempty _).symm)
  rw [replied_request session slot nothing returning unsent]
  simp only [Client.completed, finished]

/-- A session has no more echoes than rounds: an echo is on its way back only in a round
that is not over. -/
theorem replied_bounded {session : Session} {slot : ConnSlot}
    {handler : Option EchoConnection.Phase} (sound : SessionSound session slot handler) :
    session.replied slot ≤ session.client.roundTrips := by
  have standing := sound.client.standing
  cases sound.exchange with
  | request nothing returning unsent _ =>
    rw [replied_request session slot nothing returning unsent, Client.completed]
    cases phase : session.client.phase with
    | connecting | aborted | faulted => exact Nat.zero_le _
    | finished => exact Nat.le_refl _
    | encoding round =>
      simp only [phase] at standing
      exact standing
    | sending round wireOut off | receiving round acc =>
      simp only [phase] at standing
      exact Nat.le_of_lt standing.1
  | reply whole balance _ _ =>
    rw [replied_reply session slot balance, Client.completed]
    cases phase : session.client.phase with
    | sending round wireOut off | receiving round acc =>
      simp only [phase] at standing
      exact standing.1
    | connecting | encoding | finished | aborted | faulted =>
      simp only [Client.sent, phase] at whole
      exact absurd whole.symm (frame_nonempty _)

section Rounds

variable {endian : Endian} {capacity : Nat} {state : State ι}

/-- A client keeps the number of its rounds. -/
theorem client_call_rounds {session after : Session} {count : Nat}
    (called : clientCall endian capacity session count = some after) :
    after.client.roundTrips = session.client.roundTrips := by
  unfold clientCall at called
  split at called
  · cases called
    rfl
  · split at called
    · obtain ⟨_, _, rfl⟩ := Option.map_eq_some_iff.mp called
      rfl
    · split at called
      · obtain ⟨_, _, rfl⟩ := Option.map_eq_some_iff.mp called
        rfl
      · cases called
  · split at called
    · split at called
      · obtain ⟨_, _, rfl⟩ := Option.map_eq_some_iff.mp called
        rfl
      · cases called
    · split at called
      · obtain ⟨_, _, rfl⟩ := Option.map_eq_some_iff.mp called
        rfl
      · cases called
  · cases called

omit [Fintype ι] in
/-- A step that concerns one session keeps the rounds of all. -/
theorem update_rounds {name : ι} {after : Session}
    (same : after.client.roundTrips = (state.sessions name).client.roundTrips) (other : ι) :
    ((state.update name after).sessions other).client.roundTrips =
      (state.sessions other).client.roundTrips := by
  by_cases itself : other = name
  · rw [itself, update_own, same]
  · rw [update_other _ _ itself]

/-- Taking a connection over is nothing to the client. -/
theorem taken_over_client (session : Session) (descriptor : Nat) (flags : Acceptor.FcntlAnswers) :
    (session.takenOver descriptor flags).client = session.client := by
  unfold Session.takenOver
  split <;> rfl

/-- The kernel does not change the rounds of any client, whatever it answers. -/
theorem answers_rounds {choice : ServerChoice ι} {answer : EventLoop.Choice} {after : State ι}
    (answered : answers capacity state choice = some (answer, after)) (other : ι) :
    (after.sessions other).client.roundTrips = (state.sessions other).client.roundTrips := by
  unfold answers at answered
  split at answered
  · split at answered
    · cases answered
      rfl
    · split at answered
      · cases answered
        rfl
      · cases answered
    · split at answered
      · cases answered
        exact update_rounds (by rw [taken_over_client]) other
      · cases answered
  · split at answered
    · cases answered
      rfl
    · split at answered
      · obtain ⟨⟨given, session⟩, called, same⟩ := Option.map_eq_some_iff.mp answered
        cases same
        exact update_rounds (by rw [call_answer_client called]) other
      · cases answered
    · cases answered
  · split at answered
    · cases answered
      rfl
    · split at answered
      · cases answered
        exact update_rounds (by rfl) other
      · cases answered
    · cases answered
  · cases answered
    rfl

omit [Fintype ι] [DecidableEq ι] in
/-- A wait concerns no session. -/
theorem round_step_sessions {choice : ServerChoice ι} {next : State ι}
    {told : List EventLoop.Event} (stepped : roundStep endian state choice = some (next, told)) :
    next.sessions = state.sessions := by
  unfold roundStep at stepped
  simp only at stepped
  split at stepped
  · obtain ⟨_, _, same⟩ := Option.map_eq_some_iff.mp stepped
    cases same
    rfl
  · split at stepped
    · cases stepped
    · cases stepped
      rfl
    · obtain ⟨_, _, same⟩ := Option.map_eq_some_iff.mp stepped
      cases same
      rfl

/-- No step of the service changes the rounds. -/
theorem service_step_rounds {next : State ι} {action : Action ι} {told : List EventLoop.Event}
    (stepped : serviceStep endian capacity state action = some (next, told)) (other : ι) :
    (next.sessions other).client.roundTrips = (state.sessions other).client.roundTrips := by
  cases action with
  | client name count =>
    obtain ⟨after, taken, same⟩ := Option.map_eq_some_iff.mp stepped
    cases same
    unfold clientStep at taken
    simp only at taken
    split at taken
    · split at taken
      · cases taken
        exact update_rounds (by rfl) other
      · cases taken
    · obtain ⟨session, called, rfl⟩ := Option.map_eq_some_iff.mp taken
      exact update_rounds (client_call_rounds called) other
  | upward name count =>
    obtain ⟨up, _, same⟩ := Option.map_eq_some_iff.mp stepped
    cases same
    exact update_rounds (by rfl) other
  | downward name count =>
    obtain ⟨down, _, same⟩ := Option.map_eq_some_iff.mp stepped
    cases same
    exact update_rounds (by rfl) other
  | server choice =>
    rcases server_step_cases stepped with ⟨_, round⟩ | ⟨_, answer, after, loop, answered, _, rfl⟩
    · rw [round_step_sessions round]
    · exact answers_rounds answered other

/-- So every run keeps them. -/
theorem run_rounds {allowed : State ι → Action ι → Prop} {start : State ι}
    {history : List EventLoop.Event}
    (run : Run (echoService ι endian capacity) allowed start state history) (name : ι) :
    (state.sessions name).client.roundTrips = (start.sessions name).client.roundTrips := by
  refine run_invariant (fun state _ => (state.sessions name).client.roundTrips =
    (start.sessions name).client.roundTrips) rfl ?_ run
  intro state history action next events _ same _ stepped
  exact (service_step_rounds stepped name).trans same

omit [DecidableEq ι] in
/-- While all rounds together stay below the range of `int`, the atomic counter does not
wrap: it holds the number of the counted echoes. -/
theorem counter_exact (sound : ServiceSound state)
    (bounded : ∑ name, (state.sessions name).client.roundTrips < 2 ^ 31) :
    state.loop.server.counter.toInt = state.loop.server.completions := by
  have echoes : echoed state ≤ ∑ name, (state.sessions name).client.roundTrips :=
    Finset.sum_le_sum fun name _ => replied_bounded (sound.sessions name)
  have balance := sound.counts
  have small : state.loop.server.completions < 2 ^ 31 := by omega
  exact Int32.toInt_ofNat_of_lt small

end Rounds

/-- The echo service is safe: for any number of clients with any payloads within the
limit, any numbers of rounds below `2 ^ 31` in all, and pipes of any capacity; in every
order of the steps of the clients, the server and the kernel, with any order of the
interest map and any descriptors that `::select` leaves in its sets. The listener and
the descriptors that `::accept` hands out fit into an `fd_set`, and no system call of
the server fails other than with `EAGAIN`.

No client aborts, so each has received exactly its own payload in each round; the server
neither aborts nor faults. On every connection the bytes that client, pipes and buffers
hold are those that the client has sent in its current round, in order. The counter does
not wrap; it lags behind the echoes that the server has written by exactly the slots that
still await their flush, also when all clients are done: then these add up to their
rounds. -/
theorem service_safe (endian : Endian) (capacity : Nat) (listener : Socket)
    (inRange : InRange listener.nativeHandle) (clients : ι → Client)
    (connecting : ∀ name, (clients name).phase = .connecting)
    (fits : ∀ name, (clients name).payload.length ≤ 2 ^ 20)
    (bounded : ∑ name, (clients name).roundTrips < 2 ^ 31) (state : State ι)
    (history : List EventLoop.Event)
    (run : Run (echoService ι endian capacity) Orderly (started listener clients) state history) :
    (∀ name, (∀ cause, (state.sessions name).client.phase ≠ .aborted cause) ∧
      ∀ fault, (state.sessions name).client.phase ≠ .faulted fault) ∧
    ((∀ cause, state.loop.place ≠ .handling (.aborted cause)) ∧
      ∀ fault, state.loop.place ≠ .handling (.faulted fault)) ∧
    (∀ name, let session := state.sessions name
      let conn := (slotFor state.loop.server.slots session).conn
      session.client.got ++ session.down.contents ++ conn.writeBuf ++ conn.readBuf ++
        session.up.contents = session.client.sent) ∧
    state.loop.server.counter.toInt = state.loop.server.completions ∧
    state.loop.server.completions + uncounted state = echoed state ∧
    ((∀ name, (state.sessions name).client.phase = .finished) →
      state.loop.server.completions + uncounted state = ∑ name, (clients name).roundTrips) := by
  obtain ⟨sound, _⟩ := run_sound (started_sound inRange connecting fits)
    (EventLoop.opened_kept listener) run
  have rounds : ∀ name, (state.sessions name).client.roundTrips = (clients name).roundTrips :=
    run_rounds run
  refine ⟨?_, ⟨?_, ?_⟩, ?_, ?_, sound.counts, ?_⟩
  · intro name
    have standing := (sound.sessions name).client.standing
    constructor
    · intro cause aborted
      simp only [aborted] at standing
    · intro fault faulted
      simp only [faulted] at standing
  · intro cause aborted
    have standing := sound.place
    simp only [aborted, PlaceSound] at standing
  · intro fault faulted
    have standing := sound.place
    simp only [faulted, PlaceSound] at standing
  · intro name
    exact exchange_balance (sound.sessions name).exchange
  · exact counter_exact sound (by simpa only [rounds] using bounded)
  · intro finished
    rw [sound.counts, echoed]
    refine Finset.sum_congr rfl fun name _ => ?_
    rw [finished_replied (sound.sessions name) (finished name), rounds name]

/-- `::select` does not fail. Any failure makes the server abort, an interruption
included. -/
def selects : SelectAnswer → Bool
  | .failed _ => false
  | .returned _ _ => true

/-- Neither the deadline nor the flag ends the main loop, and the kernel obliges: no
call fails, and new descriptors are in range. -/
def runsOn (_ : State ι) : Action ι → Bool
  | .server choice => !choice.deadlinePassed && !choice.stop && selects choice.select &&
      choice.failure.isNone && decide (choice.flags = {}) && decide (InRange choice.descriptor)
  | _ => true

omit [Fintype ι] [DecidableEq ι] in
/-- The check of the condition on runs is right. -/
theorem runs_on_orderly (state : State ι) (action : Action ι)
    (passed : runsOn state action = true) : Orderly state action := by
  cases action with
  | server choice =>
    simp only [runsOn, Bool.and_eq_true, Bool.not_eq_true', Option.isNone_iff_eq_none,
      decide_eq_true_eq] at passed
    obtain ⟨⟨⟨⟨⟨inTime, going⟩, selected⟩, succeeds⟩, unblocks⟩, inRange⟩ := passed
    refine ⟨inTime, fun stopped => absurd (going.symm.trans stopped) nofun, ?_, succeeds, unblocks,
      inRange⟩
    intro errno failed
    rw [failed] at selected
    cases selected
  | client | upward | downward => trivial

/-- One client with one round. It has its echo and closes before the server comes to
count it. -/
def uncountedEcho : List (Action Unit) :=
  [.client () 0, .client () 0, .client () 5,
    .server { order := [⟨3, .read⟩], select := .returned 1 { readfds := {3} } }, .server {},
    .server { name := some (), descriptor := 5 }, .server {}, .server {},
    .upward () 2, .upward () 3,
    .server { order := [⟨3, .read⟩, ⟨5, .read⟩], select := .returned 1 { readfds := {5} } },
    .server {}, .server { name := some (), count := 5 }, .server { name := some () },
    .server { name := some (), count := 5 }, .downward () 5, .client () 5, .client () 0]

/-- A run in which the counter lags although all clients are done. -/
theorem service_safe_uncounted :
    ∃ (state : State Unit) (history : List EventLoop.Event),
      Run (echoService Unit .little 64) Orderly (started ⟨3⟩ fun _ => clientWorker 7 1 1) state
        history ∧
      (state.sessions ()).client.phase = .finished ∧ state.loop.server.counter.toInt = 0 ∧
      uncounted state = 1 := by
  obtain ⟨state, history, run, observed⟩ :=
    replay_exhibits_under (echoService Unit .little 64) (started ⟨3⟩ fun _ => clientWorker 7 1 1)
      runsOn runs_on_orderly
      (fun final => decide ((final.1.sessions ()).client.phase = .finished ∧
        final.1.loop.server.completions = 0)) uncountedEcho (by decide)
  obtain ⟨finished, none_counted⟩ := of_decide_eq_true observed
  obtain ⟨_, _, _, exact, _, total⟩ := service_safe .little 64 ⟨3⟩ (by decide)
    (fun _ => clientWorker 7 1 1) (fun _ => rfl) (fun _ => by decide) (by decide) state history run
  have all := total fun _ => finished
  rw [none_counted, Nat.zero_add] at all
  exact ⟨state, history, run, finished, exact.trans (congrArg Nat.cast none_counted), all⟩

/-- A client comes to the queue of the listener, and the server to its accept loop. -/
def queuedClient : List (Action Unit) :=
  [.client () 0, .server { order := [⟨3, .read⟩], select := .returned 1 { readfds := {3} } },
    .server {}]

/-- A descriptor behind the range of an `fd_set` is registered, and the next wait faults. -/
example :
    ((replay (echoService Unit .little 64) (fun _ _ => true)
        (started ⟨3⟩ fun _ => clientWorker 7 1 1, [])
        (queuedClient ++ [.server { name := some (), descriptor := 1024 }, .server {}, .server {},
          .server { order := [⟨1024, .read⟩, ⟨3, .read⟩] }])).any
      fun final => match final.1.loop.place with
        | .handling (.faulted _) => true
        | _ => false) = true := by
  decide

/-- Where `::accept` fails otherwise (24 is `EMFILE`) the server aborts. -/
example :
    ((replay (echoService Unit .little 64) (fun _ _ => true)
        (started ⟨3⟩ fun _ => clientWorker 7 1 1, [])
        (queuedClient ++ [.server { failure := some (.other 24) }])).any
      fun final => match final.1.loop.place with
        | .handling (.aborted (.acceptFailed _)) => true
        | _ => false) = true := by
  decide

end TcpServer.EchoService
