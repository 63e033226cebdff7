import TcpServer.EchoConservation
import TcpServer.Registry

/-!
# The poller interest of one connection

What the read and write handlers do to the interest map: they change it at their
own connection's descriptor only. While bytes may be on their way between the
buffers the descriptor is registered with some mask. Wherever a handler returns,
the mask asks for writability exactly when bytes are left to be written.
-/

namespace TcpServer.InterestTracking

open EchoConnection EchoConservation FrameEncoder SocketIo Registry

/-- The interest that a connection's buffers call for: always reading, and writing
while there is something to send. -/
def interestOf (conn : Connection) : EventMask :=
  if conn.writeBuf = [] then .read else .read ||| .write

/-- An entry of the interest map: a native handle with its mask. -/
abbrev Registration := Sigma fun _ : Int => EventMask

/-- The entry that a connection calls for, under its own descriptor. -/
def registration (conn : Connection) : Registration := ⟨conn.nativeHandle, interestOf conn⟩

/-- Between the loops of the handlers, where the interest is up to date. The next wait
would ask for the right events. -/
def settled : Phase → Bool
  | .waiting | .receiving _ | .decoding _ => true
  | .flushing _ | .peerClosed | .aborted _ | .faulted _ => false

/-- The phases in which bytes are sent. The mask may lag behind the buffer there, and
is set again at the end. -/
def flushing : Phase → Bool
  | .flushing _ => true
  | _ => false

/-- A connection that keeps its descriptor and its pending bytes calls for the same
entry. -/
theorem registration_same {conn next : Connection} (handle : next.nativeHandle = conn.nativeHandle)
    (pending : next.writeBuf = conn.writeBuf) : registration next = registration conn := by
  simp only [registration, interestOf, handle, pending]

/-- The places between the loops are not those of the flush loop, so the two cases
exclude each other. -/
theorem settled_not_flushing {phase : Phase} (standing : settled phase = true) :
    flushing phase = false := by
  cases phase with
  | flushing => cases standing
  | _ => rfl

/-- All that a pass of a handler can do to the interest map, and what it may
change for its connection meanwhile. -/
inductive Effect (state next : ServerState) : Prop where
  | kept (before : settled state.phase = true)
      (after : settled next.phase = true ∨ flushing next.phase = true)
      (handle : next.slot.conn.nativeHandle = state.slot.conn.nativeHandle)
      (pending : next.slot.conn.writeBuf = state.slot.conn.writeBuf)
      (poller : next.poller = state.poller)
  | queued (thenWrite : Bool) (before : settled state.phase = true)
      (after : next.phase = .flushing (.readHandler thenWrite))
      (handle : next.slot.conn.nativeHandle = state.slot.conn.nativeHandle)
      (poller : next.poller = state.upsert (.read ||| .write))
  | sent (before : flushing state.phase = true) (after : flushing next.phase = true)
      (handle : next.slot.conn.nativeHandle = state.slot.conn.nativeHandle)
      (poller : next.poller = state.poller)
  | updated (before : flushing state.phase = true) (after : settled next.phase = true)
      (handle : next.slot.conn.nativeHandle = state.slot.conn.nativeHandle)
      (poller : next.poller = state.upsert (interestOf next.slot.conn))
  | closed (before : settled state.phase = true) (after : next.phase = .peerClosed)
      (handle : next.slot.conn.nativeHandle = state.slot.conn.nativeHandle)
      (poller : next.poller = (state.poller.erase state.slot.conn.nativeHandle).2)
  | aborted (cause : Abort) (after : next.phase = .aborted cause)
      (handle : next.slot.conn.nativeHandle = state.slot.conn.nativeHandle)
      (poller : next.poller = state.poller)

/-- Every effect leaves the connection on its descriptor, so its key in the map does
not change. -/
theorem effect_handle {state next : ServerState} (effect : Effect state next) :
    next.slot.conn.nativeHandle = state.slot.conn.nativeHandle := by
  cases effect <;> assumption

/-- A pass that finds the peer closed erases the registration, and nothing else in the
map. -/
theorem effect_closed {state next : ServerState} (effect : Effect state next)
    (after : next.phase = .peerClosed) :
    next.poller = (state.poller.erase next.slot.conn.nativeHandle).2 := by
  cases effect with
  | closed before closes handle poller => rw [poller, handle]
  | kept before other => simp [after, settled, flushing] at other
  | queued thenWrite before other => simp [after] at other
  | sent before other => simp [after, flushing] at other
  | updated before other => simp [after, settled] at other
  | aborted cause other => simp [after] at other

section Passes

variable {endian : Endian} {maxPayloadBytes : UInt64} {scratchSize : Nat}
  {state next : ServerState} {events : List EchoConnection.Event}

/-- The event loop hands an event to a handler without touching the interest. -/
theorem handle_event_effect (mask : EventMask) (standing : state.phase = .waiting) :
    Effect state (handleEvent state mask) := by
  have before : settled state.phase = true := by rw [standing]; rfl
  unfold handleEvent
  split
  · exact .kept before (Or.inl rfl) rfl rfl rfl
  · split
    · exact .kept before (Or.inr rfl) rfl rfl rfl
    · exact .kept before (Or.inl before) rfl rfl rfl

/-- A pass of the receive loop leaves the interest alone, or erases it when the
peer has closed. -/
theorem receive_pass_effect {thenWrite : Bool} {answers : List RecvAnswer}
    (standing : state.phase = .receiving thenWrite)
    (passed : receivePass scratchSize state thenWrite answers = some (next, events)) :
    Effect state next := by
  have before : settled state.phase = true := by rw [standing]; rfl
  unfold receivePass at passed
  cases returned : receiveNonblocking state.slot.conn scratchSize answers with
  | none => simp [returned] at passed
  | some outcome =>
    obtain ⟨result, conn⟩ := outcome
    cases receive_cases returned with
    | inl failed =>
      obtain ⟨error, rfl, rfl⟩ := failed
      simp only [returned] at passed
      split at passed
      · cases passed
        refine .kept before ?_ rfl rfl rfl
        cases thenWrite
        · exact Or.inl rfl
        · exact Or.inr rfl
      · split at passed
        · cases passed
          exact .closed before rfl rfl rfl
        · cases passed
          exact .aborted _ rfl rfl rfl
    | inr delivered =>
      obtain ⟨_, _, rfl, rfl⟩ := delivered
      simp only [returned] at passed
      cases passed
      exact .kept before (Or.inl rfl) rfl rfl rfl

/-- A pass of the decode loop asks for writability when it has queued a frame, and
changes nothing otherwise. -/
theorem decode_pass_effect {thenWrite : Bool} (standing : state.phase = .decoding thenWrite) :
    Effect state (decodePass endian maxPayloadBytes state thenWrite) := by
  have before : settled state.phase = true := by rw [standing]; rfl
  rcases decode_pass_cases endian maxPayloadBytes state thenWrite
    with ⟨_, same⟩ | ⟨_, same⟩ | ⟨payload, rest, _, _, same⟩
  · rw [same]
    exact .kept before (Or.inl rfl) rfl rfl rfl
  · rw [same]
    exact .aborted _ rfl rfl rfl
  · rw [same]
    exact .queued thenWrite before rfl rfl rfl

/-- A pass of the flush loop sends, or returns with the interest its buffer calls
for: a call that would block has left bytes behind, and 0 is returned only for an
empty buffer. -/
theorem flush_pass_effect {caller : Caller} {answers : List SendAnswer}
    (standing : state.phase = .flushing caller)
    (passed : flushPass state caller answers = some (next, events)) : Effect state next := by
  have before : flushing state.phase = true := by rw [standing]; rfl
  have resumed : settled caller.resume = true := by cases caller <;> rfl
  unfold flushPass at passed
  cases returned : flushWriteNonblocking state.slot.conn answers with
  | none => simp [returned] at passed
  | some outcome =>
    rcases flush_cases returned with ⟨empty, rfl⟩ | ⟨pending, error, rfl⟩ |
      ⟨count, positive, _, _, rfl⟩
    · simp only [returned, ↓reduceIte, flushed, empty] at passed
      cases passed
      refine .updated before resumed rfl ?_
      simp [interestOf, empty]
    · simp only [returned] at passed
      split at passed
      · cases passed
        refine .updated before resumed rfl ?_
        simp [interestOf, pending]
      · cases passed
        exact .aborted _ rfl rfl rfl
    · have nonzero : count ≠ 0 := Nat.ne_of_gt positive
      simp only [returned, nonzero, ↓reduceIte] at passed
      cases passed
      exact .sent before before rfl rfl

/-- Every pass of the handlers has one of the effects. The invariants on the interest
are proved over these. -/
theorem server_step_effect {choice : EchoConnection.Choice}
    (stepped : serverStep endian maxPayloadBytes scratchSize state choice = some (next, events)) :
    Effect state next := by
  unfold serverStep at stepped
  split at stepped
  · rename_i standing
    cases stepped
    exact handle_event_effect choice.mask standing
  · rename_i thenWrite standing
    exact receive_pass_effect standing stepped
  · rename_i thenWrite standing
    cases stepped
    exact decode_pass_effect standing
  · rename_i caller standing
    exact flush_pass_effect standing stepped
  · cases stepped
  · cases stepped
  · cases stepped

end Passes

/-- The interest map lists `others` and what the phase says about this connection.
Behind an abort it says nothing. -/
def Tracked (others : List Registration) (state : ServerState) : Prop :=
  match state.phase with
  | .waiting | .receiving _ | .decoding _ =>
      Lists state.poller.interest (registration state.slot.conn :: others)
  | .flushing _ =>
      ∃ mask, Lists state.poller.interest (⟨state.slot.conn.nativeHandle, mask⟩ :: others)
  | .peerClosed => Lists state.poller.interest others
  | .aborted _ => True
  | .faulted _ => False

section Tracking

variable {others : List Registration} {state next : ServerState}

/-- Where the handler is settled, the mask of its connection is the one that the write
buffer calls for, and all others are registered as they should be. -/
theorem tracked_settled (standing : settled state.phase = true) :
    Tracked others state ↔
      Lists state.poller.interest (registration state.slot.conn :: others) := by
  unfold Tracked
  cases phase : state.phase <;> simp_all [settled]

/-- Where the handler is flushing, the mask of its connection may be any, since it is
set again behind the flush. The others are as they should be. -/
theorem tracked_flushing (standing : flushing state.phase = true) :
    Tracked others state ↔
      ∃ mask, Lists state.poller.interest (⟨state.slot.conn.nativeHandle, mask⟩ :: others) := by
  unfold Tracked
  cases phase : state.phase <;> simp_all [flushing]

/-- In every phase of a handler the descriptor is registered with some mask. -/
theorem tracked_registered (tracked : Tracked others state)
    (standing : settled state.phase = true ∨ flushing state.phase = true) :
    ∃ mask, Lists state.poller.interest (⟨state.slot.conn.nativeHandle, mask⟩ :: others) := by
  cases standing with
  | inl before => exact ⟨_, (tracked_settled before).mp tracked⟩
  | inr before => exact (tracked_flushing before).mp tracked

/-- A socket is valid when its descriptor is. -/
theorem valid_iff (conn : Connection) :
    conn.socket.valid = true ↔ conn.nativeHandle ≠ kInvalidSocket := by
  simp [Socket.valid, Connection.nativeHandle, Socket.nativeHandle]

/-- An upsert of a registered valid descriptor replaces its mask, and leaves the other
entries. -/
theorem upsert_lists (valid : state.slot.conn.socket.valid = true) {old : EventMask}
    (lists : Lists state.poller.interest (⟨state.slot.conn.nativeHandle, old⟩ :: others))
    (mask : EventMask) :
    Lists (state.upsert mask).interest (⟨state.slot.conn.nativeHandle, mask⟩ :: others) := by
  have handle := (valid_iff state.slot.conn).mp valid
  simp only [ServerState.upsert, SelectPoller.upsert, handle, ↓reduceIte]
  exact lists_update lists mask

/-- A pass of a handler keeps the interest of its connection tracked, and every
other registration. -/
theorem effect_tracked (tracked : Tracked others state)
    (valid : state.slot.conn.socket.valid = true) (effect : Effect state next) :
    Tracked others next := by
  cases effect with
  | kept before after handle pending poller =>
    have lists := (tracked_settled before).mp tracked
    cases after with
    | inl after =>
      rw [tracked_settled after, poller, registration_same handle pending]
      exact lists
    | inr after =>
      rw [tracked_flushing after, poller, handle]
      exact ⟨_, lists⟩
  | queued thenWrite before after handle poller =>
    have lists := (tracked_settled before).mp tracked
    simp only [Tracked, after, poller, handle]
    exact ⟨_, upsert_lists valid lists _⟩
  | sent before after handle poller =>
    rw [tracked_flushing after, poller, handle]
    exact (tracked_flushing before).mp tracked
  | updated before after handle poller =>
    obtain ⟨mask, lists⟩ := (tracked_flushing before).mp tracked
    rw [tracked_settled after, poller, registration, handle]
    exact upsert_lists valid lists _
  | closed before after handle poller =>
    have lists := (tracked_settled before).mp tracked
    simp only [Tracked, after, poller]
    exact lists_erase lists
  | aborted cause after handle poller =>
    simp only [Tracked, after]

/-- The read handler leaves for the write handler with its interest up to date. -/
theorem effect_leaves (lists : Lists state.poller.interest (registration state.slot.conn :: others))
    (effect : Effect state next) (before : settled state.phase = true)
    (after : next.phase = .flushing .eventLoop) :
    Lists next.poller.interest (registration next.slot.conn :: others) := by
  cases effect with
  | kept _ _ handle pending poller =>
    rw [poller, registration_same handle pending]
    exact lists
  | queued thenWrite _ other => simp [after] at other
  | sent other => simp [settled_not_flushing before] at other
  | updated other => simp [settled_not_flushing before] at other
  | closed _ other => simp [after] at other
  | aborted cause other => simp [after] at other

end Tracking

end TcpServer.InterestTracking
