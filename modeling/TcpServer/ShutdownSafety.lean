import TcpServer.EventLoopBookkeeping
import TcpServer.GracefulShutdown

/-!
# Safety of the graceful shutdown

Only the I/O thread accepts connections, unregisters the listener and stores
`Stopped`; the other threads can do no more than store `Draining`. A burst is entered
only behind a load of `Running`, the listener is unregistered only behind a load of
another phase, and the phase never returns to `Running`. So no burst is under
way, and none begins, once the listener is unregistered. `Stopped` is stored only
for a report that the I/O thread took from its own empty slots.

Nothing is assumed of the kernel here: it may even hand out descriptors that are open.
-/

namespace TcpServer.GracefulShutdown

open EchoConnection EventLoop Acceptor InterestTracking Lifecycle Registry Threads Transition

universe u
variable {ι : Type u}

/-- The places of a thread that does not report. It never advances the phase to its
last value. -/
def requesting : Lifecycle.Local → Bool
  | .idle | .requestLoad | .requestCas | .requestAssert | .phaseLoad | .aborted => true
  | .advanceLoad _ | .advanceAssert _ | .advanceCas _ | .advanceFinal => false

/-- The places of a call that was given this report. Behind the test the report is a
drained one. -/
def advancingFor (report : DrainReport) : Lifecycle.Local → Prop
  | .advanceLoad given => given = report
  | .advanceAssert given | .advanceCas given => given = report ∧ report.drained = true
  | .advanceFinal | .aborted => True
  | .idle | .requestLoad | .requestCas | .requestAssert | .phaseLoad => False

section Coordinator

variable {build : Build} {party : Party ι} {phase after : ShutdownPhase}
  {before own : Lifecycle.Local} {choice : Lifecycle.Choice}
  {events : List (Lifecycle.Event (Party ι))}

/-- A thread that does not report stays at such places, and can only store `Draining`. -/
theorem requester_step_cases (standing : requesting before = true)
    (silent : reports choice = false)
    (stepped : (coordinatorOf (Party ι) build).step party phase before choice =
      some (after, own, events)) :
    requesting own = true ∧ (after = phase ∨ phase = .running ∧ after = .draining) := by
  cases build_access stepped with
  | callsRequest | callsPhase | requestReturns | requestGoesOn | requestRetries | requestAsserts
  | requestAborts | phaseReturns => exact ⟨rfl, Or.inl rfl⟩
  | callsAdvance called => simp [reports, called] at silent
  | requestStores running | requestStoresAndReturns running =>
    exact ⟨rfl, Or.inr ⟨running, rfl⟩⟩
  | _ => cases standing

/-- A reporting call stays one until it returns, and stores `Stopped` only for a
drained report. -/
theorem advance_step_cases {report : DrainReport} (standing : advancingFor report before)
    (stepped : (coordinatorOf (Party ι) build).step party phase before choice =
      some (after, own, events)) :
    (own = .idle ∨ advancingFor report own) ∧
      (after = phase ∨ after = .stopped ∧ report.drained = true) := by
  cases build_access stepped with
  | advanceReturns | advanceMissesAndReturns | finalAsserts => exact ⟨Or.inl rfl, Or.inl rfl⟩
  | advanceGoesOn draining drained | advanceSkipsAsserts draining drained =>
    obtain rfl := standing
    exact ⟨Or.inr ⟨rfl, drained⟩, Or.inl rfl⟩
  | advanceAsserts => exact ⟨Or.inr standing, Or.inl rfl⟩
  | advanceAborts | advanceMisses | finalAborts => exact ⟨Or.inr trivial, Or.inl rfl⟩
  | advanceStores draining => exact ⟨Or.inr trivial, Or.inr ⟨rfl, standing.2⟩⟩
  | advanceStoresAndReturns draining => exact ⟨Or.inl rfl, Or.inr ⟨rfl, standing.2⟩⟩
  | _ => exact False.elim standing

end Coordinator

/-- No key of the interest map is outside `base` and the descriptors of the slots, so
no closed socket is waited for. -/
def KeysWithin (base : List Int) (server : Server) : Prop :=
  ∀ socket ∈ server.poller.interest, socket ∈ base ∨ socket ∈ handles server.slots

/-- A pass of a handler adds no key but its own descriptor. -/
theorem effect_keys {state next : ServerState} (effect : Effect state next) {socket : Int}
    (key : socket ∈ next.poller.interest) :
    socket ∈ state.poller.interest ∨ socket = state.slot.conn.nativeHandle := by
  have upserted : ∀ mask, socket ∈ (state.upsert mask).interest →
      socket ∈ state.poller.interest ∨ socket = state.slot.conn.nativeHandle := by
    intro mask key
    unfold ServerState.upsert SelectPoller.upsert at key
    split at key
    · exact Or.inl key
    · exact ((AList.mem_insert _).mp key).symm
  cases effect with
  | kept _ _ _ _ poller | sent _ _ _ poller | aborted _ _ _ poller =>
    rw [poller] at key
    exact Or.inl key
  | queued _ _ _ _ poller | updated _ _ _ poller =>
    rw [poller] at key
    exact upserted _ key
  | closed _ _ _ poller =>
    rw [poller] at key
    exact Or.inl (AList.mem_erase.mp key).2

section Server

variable {server next : Server} {base : List Int} {index : Nat} {slot : ConnSlot}

/-- A slot that is stored back keeps its descriptor. -/
theorem stored_handles {served : ServerState} (found : server.slots[index]? = some slot)
    (handle : served.slot.conn.nativeHandle = slot.conn.nativeHandle) :
    handles (stored server index served).slots = handles server.slots := by
  obtain ⟨inside, rfl⟩ := List.getElem?_eq_some_iff.mp found
  have bounded : index < (handles server.slots).length := by simpa [handles] using inside
  have own : (handles server.slots)[index] = server.slots[index].conn.nativeHandle := by
    simp [handles]
  calc handles (server.slots.set index served.slot)
      = (handles server.slots).set index served.slot.conn.nativeHandle := List.map_set
    _ = (handles server.slots).set index (handles server.slots)[index] := by rw [handle, own]
    _ = handles server.slots := List.set_getElem_self bounded

/-- The descriptors of the slots, with the one at an index in front. -/
theorem handles_focus (found : server.slots[index]? = some slot) :
    (handles server.slots).Perm
      (slot.conn.nativeHandle :: handles (server.slots.eraseIdx index)) := by
  obtain ⟨inside, rfl⟩ := List.getElem?_eq_some_iff.mp found
  exact ((List.getElem_cons_eraseIdx_perm inside).map _).symm

/-- Behind a removal there are no descriptors but the old ones. -/
theorem removed_handles {served : ServerState} (found : server.slots[index]? = some slot) :
    (handles (swapPop (stored server index served).slots index)).Perm
      (handles (server.slots.eraseIdx index)) :=
  (removed_perm found served.slot).map _

/-- A pass of a handler adds no slot. -/
theorem handler_move_handles {socket : Int} {phase : Phase} {rest : List PollEvent}
    {place : Handling} {events : List EventLoop.Event}
    (move : HandlerMove server index socket phase rest next place events) :
    handles next.slots ⊆ handles server.slots := by
  cases move with
  | outOfRange missing => exact List.Subset.refl _
  | closed found effect after =>
    intro other member
    have left := (removed_handles found).mem_iff.mp member
    exact (handles_focus found).mem_iff.mpr (List.mem_cons_of_mem _ left)
  | returned found effect | leaves found effect | goesOn found effect | aborted found effect
  | faulted found effect =>
    rw [stored_handles found (effect_handle effect)]
    exact List.Subset.refl _

/-- A pass of a handler adds no key outside. A descriptor that goes with its slot
is erased before. -/
theorem handler_move_keys {socket : Int} {phase : Phase} {rest : List PollEvent}
    {place : Handling} {events : List EventLoop.Event} (within : KeysWithin base server)
    (move : HandlerMove server index socket phase rest next place events) :
    KeysWithin base next := by
  cases move with
  | outOfRange missing => exact within
  | closed found effect after =>
    intro key present
    have erased := effect_closed effect after
    simp only [stored] at present
    rw [erased] at present
    obtain ⟨different, old⟩ := AList.mem_erase.mp present
    cases within key old with
    | inl inBase => exact Or.inl inBase
    | inr inSlots =>
      right
      rw [(removed_handles found).mem_iff]
      cases List.mem_cons.mp ((handles_focus found).mem_iff.mp inSlots) with
      | inl own => exact absurd (own.trans (effect_handle effect).symm) different
      | inr left => exact left
  | returned found effect | leaves found effect | goesOn found effect | aborted found effect
  | faulted found effect =>
    intro key present
    rw [stored_handles found (effect_handle effect)]
    cases effect_keys effect present with
    | inl old => exact within key old
    | inr own =>
      rw [own]
      exact Or.inr ((handles_focus found).mem_iff.mpr List.mem_cons_self)

/-- A pass of the accept loop adds no key but that of the slot it adds. -/
theorem accept_pass_keys (within : KeysWithin base server) (rest : List PollEvent)
    (choice : EventLoop.Choice) : KeysWithin base (acceptPass server rest choice).1 := by
  cases accept_pass_cases server rest choice with
  | inl ends =>
    obtain ⟨place, events, same, _⟩ := ends
    rw [same]
    exact within
  | inr adds =>
    obtain ⟨socket, poller, _, inserted, same⟩ := adds
    rw [same]
    intro key present
    simp only [inserted] at present
    simp only [handles, List.map_append, List.mem_append]
    cases (AList.mem_insert _).mp present with
    | inl own =>
      rw [own]
      exact Or.inr (Or.inr List.mem_cons_self)
    | inr old => exact (within key old).imp id Or.inl

/-- A pass of the accept loop adds at most the slot that its events name. -/
theorem accept_pass_handles (server : Server) (rest : List PollEvent) (choice : EventLoop.Choice)
    {socket : Int} (held : socket ∈ handles (acceptPass server rest choice).1.slots) :
    socket ∈ handles server.slots ∨ .added socket ∈ (acceptPass server rest choice).2.2 := by
  cases accept_pass_cases server rest choice with
  | inl ends =>
    obtain ⟨place, events, same, _⟩ := ends
    rw [same] at held
    exact Or.inl held
  | inr adds =>
    obtain ⟨accepted, poller, _, _, same⟩ := adds
    rw [same] at held ⊢
    simp only [handles, List.map_append, List.mem_append] at held
    cases held with
    | inl old => exact Or.inl old
    | inr new =>
      obtain rfl := List.mem_singleton.mp new
      exact Or.inr (List.mem_cons_of_mem _ List.mem_cons_self)

/-- Cleaning up keeps no connection that was not there. -/
theorem pop_slot_handles (server : Server) :
    handles (popSlot server).slots ⊆ handles server.slots := by
  unfold popSlot
  cases server.slots.getLast? with
  | none => exact List.Subset.refl _
  | some back => exact List.map_subset _ (List.dropLast_subset _)

/-- Unregistering takes the listener's key out. -/
theorem unregister_keys (within : KeysWithin [server.listener.nativeHandle] server) :
    KeysWithin [] (unregister server) := by
  intro key present
  obtain ⟨different, old⟩ := AList.mem_erase.mp present
  cases within key old with
  | inl inBase => exact absurd (List.mem_singleton.mp inBase) different
  | inr inSlots => exact Or.inr inSlots

end Server

/-- An accept burst is under way: the loop accepts until nobody waits any more. -/
def accepting : Handling → Bool
  | .accepting _ => true
  | .dispatching _ | .serving .. | .aborted _ | .faulted _ => false

/-- The write handler of a connection does not lead into the accept loop. -/
theorem write_event_accepting (server : Server) (socket : Int) (rest : List PollEvent) :
    accepting (writeEvent server socket rest) = false := by
  unfold writeEvent
  split <;> rfl

/-- No event of a connection leads into the accept loop. Only the event of the
listener does. -/
theorem connection_event_accepting (server : Server) (event : PollEvent) (rest : List PollEvent) :
    accepting (connectionEvent server event rest) = false := by
  unfold connectionEvent
  split
  · rfl
  · split
    · rfl
    · split
      · exact write_event_accepting server event.socket rest
      · rfl

/-- No handler starts a burst or admits a connection. -/
theorem handler_move_accepting {server next : Server} {index : Nat} {socket : Int} {phase : Phase}
    {rest : List PollEvent} {place : Handling} {events : List EventLoop.Event}
    (move : HandlerMove server index socket phase rest next place events) :
    accepting place = false ∧ ∀ event ∈ events, (Event.loop event : Event ι).admits = false := by
  cases move with
  | leaves found effect before after => exact ⟨write_event_accepting _ _ _, by simp⟩
  | closed => exact ⟨rfl, by simp [Event.admits]⟩
  | outOfRange | returned | goesOn | aborted | faulted => exact ⟨rfl, by simp⟩

/-- What must precede an event: no connection comes in once the listener is
unregistered. -/
def Admitted (earlier : List (Event ι)) (event : Event ι) : Prop :=
  event.admits = true → .unregistered ∉ earlier

/-- The key that the poller may hold beside those of the slots: that of the listener,
until it is unregistered. -/
def registered (state : IoState) : List Int :=
  if state.listenerUnregistered then [] else [state.server.listener.nativeHandle]

/-- What the I/O thread relies on where it stands. It stops only where it has itself
reported that it is drained. -/
def PlaceKept (phase : ShutdownPhase) (state : IoState) : Prop :=
  match state.place with
  | .pollCheck | .exitCheck => True
  | .acceptCheck | .polling | .listenerCheck _ _ => phase ≠ .stopped
  | .handling place => phase ≠ .stopped ∧
      (accepting place = true → state.listenerUnregistered = false)
  | .advancing call => advancingFor (reportOf state) call
  | .cleaning | .finished => phase = .stopped

/-- The I/O thread's flag, poller and slots agree with the phase and the history. The
other threads can only begin the shutdown. -/
structure IoKept (phase : ShutdownPhase) (history : List (Event ι)) (state : IoState) : Prop where
  keys : KeysWithin (registered state) state.server
  begun : state.listenerUnregistered = true → phase ≠ .running
  recorded : .unregistered ∈ history ↔ state.listenerUnregistered = true
  emptied : phase = .stopped → state.server.slots = [] ∧ state.listenerUnregistered = true
  place : PlaceKept phase state

section IoThread

variable {endian : Endian} {build : Build} {phase after : ShutdownPhase} {state next : IoState}
  {choice : Choice} {history events : List (Event ι)}

/-- New events are admitted while the listener is registered, and when they admit nothing. -/
theorem admitted_append (admitted : Justified Admitted history)
    (permitted : (.unregistered ∉ history ∧ .unregistered ∉ events) ∨
      ∀ event ∈ events, event.admits = false) :
    Justified Admitted (history ++ events) := by
  apply justified_append admitted
  rintro earlier event later rfl admits
  cases permitted with
  | inl opened =>
    intro recorded
    cases List.mem_append.mp recorded with
    | inl before => exact opened.1 before
    | inr meanwhile => exact opened.2 (List.mem_append_left _ meanwhile)
  | inr quiet =>
    have refused := quiet event (by simp)
    rw [admits] at refused
    cases refused

/-- The steps that only move the I/O thread to another place. -/
theorem io_kept_goto (kept : IoKept phase history state) {target : Place}
    (place : PlaceKept phase { state with place := target }) :
    IoKept phase (history ++ []) { state with place := target } := by
  rw [List.append_nil]
  exact ⟨kept.keys, kept.begun, kept.recorded, kept.emptied, place⟩

/-- Events other than the unregistration leave the record as it is. -/
theorem recorded_append (recorded : .unregistered ∈ history ↔ state.listenerUnregistered = true)
    (silent : .unregistered ∉ events) :
    .unregistered ∈ history ++ events ↔ state.listenerUnregistered = true := by
  rw [List.mem_append, recorded]
  simp [silent]

/-- The steps that work on the server while it is not stopped. -/
theorem io_kept_serving (kept : IoKept phase history state) {server : Server} {place : Handling}
    (listener : server.listener = state.server.listener)
    (keys : KeysWithin (registered state) server) (serving : phase ≠ .stopped)
    (bursting : accepting place = true → state.listenerUnregistered = false)
    (silent : .unregistered ∉ events) :
    IoKept phase (history ++ events) { state with server, place := .handling place } := by
  refine ⟨?_, kept.begun, recorded_append kept.recorded silent, ?_, serving, bursting⟩
  · simpa only [registered, listener] using keys
  · intro stopped
    exact absurd stopped serving

/-- The steps of a call that reports. -/
theorem io_kept_advancing {call : Lifecycle.Local} (kept : IoKept phase history state)
    (standing : advancingFor (reportOf state) call) {own : Lifecycle.Local}
    {emitted : List (Lifecycle.Event (Party ι))}
    (stepped : (coordinatorOf (Party ι) build).step .io phase call choice.lifecycle =
      some (after, own, emitted)) :
    IoKept after (history ++ emitted.map .lifecycle)
      { state with place := if own = .idle then .pollCheck else .advancing own } := by
  obtain ⟨onward, changed⟩ := advance_step_cases standing stepped
  have place : PlaceKept after
      { state with place := if own = .idle then .pollCheck else .advancing own } := by
    by_cases returned : own = .idle
    · simp only [returned, ↓reduceIte]
      trivial
    · simp only [returned, ↓reduceIte]
      exact onward.resolve_left returned
  cases changed with
  | inl same =>
    subst same
    exact ⟨kept.keys, kept.begun, recorded_append kept.recorded (by simp), kept.emptied, place⟩
  | inr stops =>
    obtain ⟨rfl, drained⟩ := stops
    obtain ⟨stopped, active, _⟩ := (drained_iff _).mp drained
    exact ⟨kept.keys, fun _ => nofun, recorded_append kept.recorded (by simp),
      fun _ => ⟨List.length_eq_zero_iff.mp active, stopped⟩, place⟩

/-- A step inside the handling of a batch keeps the state in agreement. Only an
accept burst admits connections, and it was entered with the listener registered. -/
theorem handling_step_kept (kept : IoKept phase history state)
    (admitted : Justified Admitted history) {place : Handling}
    (handles : state.place = .handling place)
    (stepped : ioStep endian build phase state choice = some (after, next, events)) :
    IoKept after (history ++ events) next ∧ Justified Admitted (history ++ events) := by
  obtain ⟨server, flag, standing⟩ := state
  obtain rfl : standing = .handling place := handles
  have quiet : Justified Admitted (history ++ ([] : List (Event ι))) :=
    admitted_append admitted (Or.inr (by simp))
  obtain ⟨serving, bursting⟩ := kept.place
  cases place with
  | dispatching batch =>
    cases batch with
    | nil =>
      cases stepped
      exact ⟨io_kept_goto kept rfl, quiet⟩
    | cons event rest =>
      simp only [ioStep] at stepped
      split at stepped
      · cases stepped
        exact ⟨io_kept_goto kept serving, quiet⟩
      · cases stepped
        refine ⟨io_kept_goto kept ⟨serving, ?_⟩, quiet⟩
        rw [connection_event_accepting]
        exact nofun
  | accepting rest =>
    have opened : flag = false := bursting rfl
    cases stepped
    have unrecorded : .unregistered ∉ history := by
      rw [kept.recorded, opened]
      exact Bool.false_ne_true
    refine ⟨io_kept_serving kept (accept_pass_listener _ _ _) (accept_pass_keys kept.keys _ _)
      serving (fun _ => opened) (by simp), ?_⟩
    exact admitted_append admitted (Or.inl ⟨unrecorded, by simp⟩)
  | serving index socket stage rest =>
    simp only [ioStep] at stepped
    cases passed : servePass endian kMaxPayload scratchSize server index socket stage rest
        choice.loop with
    | none => simp [passed] at stepped
    | some result =>
      have move := serve_pass_move passed
      obtain ⟨ends, refused⟩ := handler_move_accepting (ι := ι) move
      simp only [passed] at stepped
      cases stepped
      refine ⟨io_kept_serving kept (handler_move_listener move)
        (handler_move_keys kept.keys move) serving ?_ (by simp), ?_⟩
      · rw [ends]
        exact nofun
      · exact admitted_append admitted (Or.inr (by simpa using refused))
  | aborted cause => cases stepped
  | faulted fault => cases stepped

/-- A step of the I/O thread keeps its state in agreement and admits nothing behind
the unregistration. -/
theorem io_step_kept (kept : IoKept phase history state) (admitted : Justified Admitted history)
    (stepped : ioStep endian build phase state choice = some (after, next, events)) :
    IoKept after (history ++ events) next ∧ Justified Admitted (history ++ events) := by
  obtain ⟨server, flag, place⟩ := state
  have quiet : Justified Admitted (history ++ ([] : List (Event ι))) :=
    admitted_append admitted (Or.inr (by simp))
  have standing := kept.place
  cases place with
  | pollCheck =>
    simp only [ioStep] at stepped
    split at stepped
    · rename_i polls
      cases stepped
      refine ⟨io_kept_goto kept ?_, quiet⟩
      have phaseNotStopped : shouldPollNetwork phase = true := ((Bool.and_eq_true _ _).mp polls).1
      simpa [PlaceKept, shouldPollNetwork] using phaseNotStopped
    · cases stepped
      exact ⟨io_kept_goto kept trivial, quiet⟩
  | acceptCheck =>
    simp only [ioStep] at stepped
    split at stepped
    · rename_i unregisters
      simp only [shouldAcceptNewConnections, Bool.and_eq_true, Bool.not_eq_true', beq_eq_false_iff_ne]
        at unregisters
      obtain ⟨begun, rfl⟩ := unregisters
      cases stepped
      refine ⟨⟨unregister_keys kept.keys, fun _ => begun, by simp, ?_, standing⟩, ?_⟩
      · intro stopped
        exact absurd stopped standing
      · exact admitted_append admitted (Or.inr (by simp [Event.admits]))
    · cases stepped
      exact ⟨io_kept_goto kept standing, quiet⟩
  | polling =>
    simp only [ioStep] at stepped
    split at stepped
    · cases stepped
      exact ⟨io_kept_goto kept ⟨standing, nofun⟩, quiet⟩
    · cases stepped
      exact ⟨io_kept_goto kept ⟨standing, nofun⟩, quiet⟩
  | listenerCheck event rest =>
    simp only [ioStep] at stepped
    split at stepped
    · cases stepped
      exact ⟨io_kept_goto kept ⟨standing, nofun⟩, quiet⟩
    · rename_i accepts
      cases stepped
      refine ⟨io_kept_goto kept ⟨standing, ?_⟩, quiet⟩
      have running : phase = .running := by
        simpa [shouldAcceptNewConnections] using accepts
      intro _
      exact Bool.eq_false_iff.mpr fun unregistered => kept.begun unregistered running
  | handling place => exact handling_step_kept kept admitted rfl stepped
  | advancing call =>
    simp only [ioStep] at stepped
    cases called : (coordinatorOf (Party ι) build).step .io phase call choice.lifecycle with
    | none => simp [called] at stepped
    | some result =>
      simp only [called] at stepped
      cases stepped
      refine ⟨io_kept_advancing kept standing called, ?_⟩
      exact admitted_append admitted (Or.inr (by simp [Event.admits]))
  | exitCheck =>
    simp only [ioStep] at stepped
    split at stepped
    · rename_i stopped
      cases stepped
      exact ⟨io_kept_goto kept stopped, quiet⟩
    · rename_i serving
      cases stepped
      exact ⟨io_kept_goto kept ⟨serving, nofun⟩, quiet⟩
  | cleaning =>
    -- the exit check has found `Stopped`, so there is nothing left to clean
    obtain ⟨emptied, unregistered⟩ : server.slots = [] ∧ flag = true := kept.emptied standing
    simp only [ioStep, emptied, unregistered, List.isEmpty_nil, Bool.not_true, Bool.false_eq_true,
      ↓reduceIte] at stepped
    rw [← unregistered] at stepped
    cases stepped
    exact ⟨io_kept_goto kept standing, quiet⟩
  | finished => cases stepped

end IoThread

section Runs

variable {endian : Endian} {build : Build} {listener : Socket} {history : List (Event ι)}

/-- What each thread relies on: the I/O thread on its own state and the phase, the
others on nothing. -/
def Assertion (party : Party ι) (phase : ShutdownPhase) (history : List (Event ι))
    (own : LocalOf party) : Prop :=
  match party, own with
  | .io, state => IoKept phase history state
  | .requester _, call => requesting call = true

/-- The I/O thread enters its loop with its state in agreement. -/
theorem started_kept (listener : Socket) :
    IoKept (ι := ι) .running [] (ioOf (started ι listener)) := by
  unfold ioOf started registerListener SelectPoller.upsert
  by_cases invalid : listener.nativeHandle = kInvalidSocket
  · simp only [invalid, ↓reduceIte]
    exact ⟨fun key present => absurd present (AList.notMem_empty key), nofun, by simp, nofun, nofun,
      nofun⟩
  · simp only [invalid, ↓reduceIte]
    refine ⟨?_, nofun, by simp, nofun, trivial⟩
    intro key present
    cases (AList.mem_insert _).mp present with
    | inl own => exact Or.inl (List.mem_singleton.mpr own)
    | inr old => exact absurd old (AList.notMem_empty key)

/-- Another thread leaves the phase alone or stores `Draining`; it interferes with
nothing that the I/O thread relies on. -/
theorem request_interference {phase after : ShutdownPhase} {state : IoState}
    {events : List (Event ι)} (kept : IoKept phase history state)
    (changed : after = phase ∨ phase = .running ∧ after = .draining)
    (silent : .unregistered ∉ events) : IoKept after (history ++ events) state := by
  have recorded := recorded_append kept.recorded silent
  cases changed with
  | inl same =>
    subst same
    exact ⟨kept.keys, kept.begun, recorded, kept.emptied, kept.place⟩
  | inr drains =>
    obtain ⟨rfl, rfl⟩ := drains
    refine ⟨kept.keys, fun _ => nofun, recorded, nofun, ?_⟩
    have place := kept.place
    unfold PlaceKept at place ⊢
    cases standing : state.place <;> simp_all

/-- A step of another thread stays among the places of requests and admits nothing. -/
theorem requester_step_kept {thread : ι} {phase after : ShutdownPhase}
    {before own : Lifecycle.Local} {choice : Choice} {events : List (Event ι)}
    (standing : requesting before = true)
    (stepped : requesterStep build thread phase before choice = some (after, own, events)) :
    requesting own = true ∧ (after = phase ∨ phase = .running ∧ after = .draining) ∧
      .unregistered ∉ events ∧ ∀ event ∈ events, event.admits = false := by
  unfold requesterStep at stepped
  cases reporting : reports choice.lifecycle with
  | true => simp [reporting] at stepped
  | false =>
    simp only [reporting, Bool.false_eq_true, ↓reduceIte] at stepped
    cases called : (coordinatorOf (Party ι) build).step (.requester thread) phase before
        choice.lifecycle with
    | none => simp [called] at stepped
    | some result =>
      simp only [called] at stepped
      cases stepped
      obtain ⟨still, changed⟩ := requester_step_cases standing reporting called
      exact ⟨still, changed, by simp, by simp [Event.admits]⟩

/-- A step of the I/O thread adds at most the slots that its events name. The checks
of the phase and the calls on the coordinator do not touch the slots. -/
theorem io_step_handles {phase after : ShutdownPhase} {state next : IoState} {choice : Choice}
    {events : List (Event ι)}
    (stepped : ioStep endian build phase state choice = some (after, next, events)) :
    ∀ socket ∈ handles next.server.slots,
      socket ∈ handles state.server.slots ∨ .loop (.added socket) ∈ events := by
  obtain ⟨server, flag, place⟩ := state
  intro socket held
  cases place with
  | pollCheck | acceptCheck | listenerCheck event rest | exitCheck =>
    simp only [ioStep] at stepped
    split at stepped <;> cases stepped <;> exact Or.inl held
  | polling =>
    simp only [ioStep] at stepped
    split at stepped <;> cases stepped <;> exact Or.inl held
  | handling place =>
    cases place with
    | dispatching batch =>
      cases batch with
      | nil =>
        cases stepped
        exact Or.inl held
      | cons event rest =>
        simp only [ioStep] at stepped
        split at stepped <;> cases stepped <;> exact Or.inl held
    | accepting rest =>
      cases stepped
      exact (accept_pass_handles server rest choice.loop held).imp id List.mem_map_of_mem
    | serving index found stage rest =>
      simp only [ioStep] at stepped
      cases passed : servePass endian kMaxPayload scratchSize server index found stage rest
          choice.loop with
      | none => simp [passed] at stepped
      | some result =>
        simp only [passed] at stepped
        cases stepped
        exact Or.inl (handler_move_handles (serve_pass_move passed) held)
    | aborted cause => cases stepped
    | faulted fault => cases stepped
  | advancing call =>
    simp only [ioStep] at stepped
    split at stepped
    · cases stepped
    · cases stepped
      exact Or.inl held
  | cleaning =>
    simp only [ioStep] at stepped
    split at stepped
    · cases stepped
      exact Or.inl (pop_slot_handles server held)
    · split at stepped <;> cases stepped <;> exact Or.inl held
  | finished => cases stepped

variable [DecidableEq ι] {config final : Config (LocalOf (ι := ι)) ShutdownPhase}

/-- Along every interleaving the I/O thread's state agrees with phase and history,
and no connection comes in behind the unregistration. -/
theorem run_kept (reached : Reaches (integration ι endian build).system (started ι listener) config
      history) :
    Justified Admitted history ∧ IoKept config.shared history (ioOf config) := by
  have annotated : Justified Admitted history ∧
      ∀ party, Assertion party config.shared history (config.locals party) := by
    apply annotations_hold (fun _ history => Justified Admitted history) Assertion
      (justified_nil _) ?_ ?_ ?_ reached
    · intro party
      cases party with
      | io => exact started_kept listener
      | requester thread => rfl
    · intro config history party choice phase after events _ admitted annotated _ stepped
      have standing := annotated party
      cases party with
      | io => exact (io_step_kept standing admitted stepped).symm
      | requester thread =>
        obtain ⟨still, _, _, refused⟩ := requester_step_kept standing stepped
        exact ⟨admitted_append admitted (Or.inr refused), still⟩
    · intro config history party choice phase after events other _ different _ annotated _ stepped
      cases other with
      | requester thread => exact annotated (.requester thread)
      | io =>
        cases party with
        | io => exact absurd rfl different
        | requester thread =>
          obtain ⟨_, changed, silent, _⟩ := requester_step_kept (annotated (.requester thread)) stepped
          exact request_interference (annotated .io) changed silent
  exact ⟨annotated.1, annotated.2 .io⟩

/-- Behind the unregistration no later step admits a connection, and no later slot is
new. The first half is the invariant of the accept path; the second follows, since a
new slot is told. -/
theorem closed_behind {later : List (Event ι)}
    (reached : Reaches (integration ι endian build).system (started ι listener) config history)
    (continued : Reaches (integration ι endian build).system config final later)
    (unregistered : .unregistered ∈ history) :
    (∀ event ∈ later, event.admits = false) ∧
      handles (ioOf final).server.slots ⊆ handles (ioOf config).server.slots := by
  have refused : ∀ event ∈ later, event.admits = false := by
    intro event member
    obtain ⟨before, behind, rfl⟩ := List.append_of_mem member
    have admitted := (run_kept (run_append reached continued)).1
    apply Bool.eq_false_iff.mpr
    intro admits
    apply admitted (history ++ before) event behind (by simp) admits
    exact List.mem_append_left _ unregistered
  refine ⟨refused, ?_⟩
  have traced : ∀ socket ∈ handles (ioOf final).server.slots,
      socket ∈ handles (ioOf config).server.slots ∨ .loop (.added socket) ∈ later := by
    apply run_invariant (fun (final : Config (LocalOf (ι := ι)) ShutdownPhase) later =>
      ∀ socket ∈ handles (ioOf final).server.slots,
        socket ∈ handles (ioOf config).server.slots ∨ .loop (.added socket) ∈ later) ?_ ?_ continued
    · intro socket held
      exact Or.inl held
    · rintro state later ⟨party, choice⟩ next events _ traced _ stepped socket held
      obtain ⟨taken, others⟩ := system_step_cases stepped
      have before : socket ∈ handles (ioOf state).server.slots ∨ .loop (.added socket) ∈ events := by
        cases party with
        | io => exact io_step_handles taken socket held
        | requester thread =>
          have same : ioOf next = ioOf state := others .io nofun
          rw [same] at held
          exact Or.inl held
      cases before with
      | inl old => exact (traced socket old).imp id (List.mem_append_left _)
      | inr new => exact Or.inr (List.mem_append_right _ new)
  intro socket held
  cases traced socket held with
  | inl old => exact old
  | inr new => exact absurd (refused _ new) Bool.noConfusion

/-- Graceful-shutdown safety. Take the coordinator of either build, any number of
other threads that request the shutdown or read the phase, and any interleaving,
with any answers of the poller, the kernel and the clock.

From a configuration in whose history the listener has been unregistered, no
continuation admits a connection: none is accepted, none is added, and every later
slot is an old one. In a configuration whose phase is `Stopped`, there are no slots,
the listener is not in the poller, it has been unregistered, and no continuation
admits a connection. -/
theorem shutdown_safe (endian : Endian) (build : Build) (listener : Socket)
    (config : Config (LocalOf (ι := ι)) ShutdownPhase) (history : List (Event ι))
    (reached : Reaches (integration ι endian build).system (started ι listener) config history) :
    (.unregistered ∈ history → ∀ final later,
      Reaches (integration ι endian build).system config final later →
        (∀ event ∈ later, event.admits = false) ∧
          handles (ioOf final).server.slots ⊆ handles (ioOf config).server.slots) ∧
    (config.shared = .stopped →
      (ioOf config).server.slots = [] ∧
      listener.nativeHandle ∉ (ioOf config).server.poller.interest ∧
      .unregistered ∈ history ∧
      ∀ final later, Reaches (integration ι endian build).system config final later →
        (∀ event ∈ later, event.admits = false) ∧ (ioOf final).server.slots = []) := by
  obtain ⟨_, kept⟩ := run_kept reached
  refine ⟨?_, ?_⟩
  · intro unregistered final later continued
    exact closed_behind reached continued unregistered
  · intro stopped
    obtain ⟨emptied, flag⟩ := kept.emptied stopped
    have unregistered := kept.recorded.mpr flag
    refine ⟨emptied, ?_, unregistered, ?_⟩
    · intro present
      have within := kept.keys _ present
      simp [registered, flag, emptied, handles] at within
    · intro final later continued
      obtain ⟨refused, old⟩ := closed_behind reached continued unregistered
      refine ⟨refused, ?_⟩
      rw [emptied] at old
      exact List.map_eq_nil_iff.mp (List.subset_nil.mp old)

/-- One thread requests the shutdown in the middle of an accept burst; the burst
goes on, both clients leave, and the I/O thread stops the server. -/
def shutdownInBurst : List (Party Unit × Choice) :=
  let io (choice : EventLoop.Choice) : Party Unit × Choice := (.io, { loop := choice })
  [io {}, io {}, io { batch := .ok [⟨3, .read⟩] }, io {}, io {}, io { accept := .accepted 5 },
    (.requester (), { lifecycle := { call := some .requestShutdown } }),
    (.requester (), {}), (.requester (), {}), (.requester (), {}),
    io { accept := .accepted 6 }, io {}, io {}, io {}, io {}, io {},
    io { batch := .ok [⟨5, .read⟩, ⟨6, .read⟩] }, io {}, io { recv := [.received []] }, io {},
    io { recv := [.received []] }, io {}, io {}, io {}, io {}, io {}]

/-- Safety on such a run. -/
theorem shutdown_safe_in_burst :
    ∃ (config : Config (LocalOf (ι := Unit)) ShutdownPhase) (history : List (Event Unit)),
      Reaches (integration Unit .little .debug).system (started Unit ⟨3⟩) config history ∧
        config.shared = .stopped ∧ (ioOf config).server.slots = [] := by
  obtain ⟨config, history, reached, observed⟩ :=
    replay_exhibits (integration Unit .little .debug).system (started Unit ⟨3⟩)
      (fun final => decide (final.1.shared = .stopped)) shutdownInBurst (by decide)
  have stopped := of_decide_eq_true observed
  exact ⟨config, history, reached, stopped,
    ((shutdown_safe .little .debug ⟨3⟩ config history reached).2 stopped).1⟩

end Runs

end TcpServer.GracefulShutdown
