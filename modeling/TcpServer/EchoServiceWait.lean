import TcpServer.EchoServiceBudget

/-!
# The waits of the echo service

The server learns from `SelectPoller::wait` which sockets are ready. Where `::select`
tells the truth about the descriptors it is asked for, the events that `wait` writes
are true: each is about another registered socket, names only what the socket is
registered for, and what it names can be done. A wait that can report something does.
-/

namespace TcpServer.EchoService

open EchoConnection Registry Transition
open EventLoop (PollEvent Server Bookkept handles mem_handles)
open SelectWait (Entry FdSets Honest SelectAnswer Waited readyBits selectCall)

section Conditions

variable {ι : Type} [Fintype ι] [DecidableEq ι]

/-- Reading from this descriptor would not block: there is somebody to accept, or
something has arrived on the connection. -/
def ReadReady (state : State ι) (fd : Int) : Prop :=
  (fd = state.loop.server.listener.nativeHandle ∧ 0 < state.pending) ∨
  ∃ name, (state.sessions name).owns fd = true ∧ (state.sessions name).up.readable = true

/-- Writing to this descriptor would not block: its session has room on the way to the
client. -/
def WriteReady (capacity : Nat) (state : State ι) (fd : Int) : Prop :=
  ∃ name, (state.sessions name).owns fd = true ∧ 0 < (state.sessions name).down.room capacity

/-- The answer of `::select` is true: it leaves bits of the call only and counts them,
and the descriptors that it leaves are ready. -/
structure TrueSets (capacity : Nat) (state : State ι) (order : List Entry) (count : Nat)
    (sets : FdSets) : Prop where
  honest : ∀ call, selectCall order kPollMs = .ok call → Honest call count sets
  reads : ∀ fd ∈ sets.readfds, ReadReady state fd
  writes : ∀ fd ∈ sets.writefds, WriteReady capacity state fd

/-- The answer of a wait of this step is true: every descriptor that it reports as
ready is so. -/
def Truthful (capacity : Nat) (state : State ι) (choice : ServerChoice ι) : Prop :=
  ∀ count sets, choice.select = .returned count sets →
    TrueSets capacity state choice.order count sets

/-- The events of the wait of this step, as the loop gets them. A wait that fails
gives none. -/
def State.batch (state : State ι) (choice : ServerChoice ι) : List PollEvent :=
  match waitCall state.loop.server.poller choice.order choice.select with
  | some (.ok waited) =>
      match batchOf waited with
      | .ok batch => batch
      | .error _ => []
  | _ => []

/-- An orderly run in which `::select` tells the truth. Nothing is said of how long
anything takes. -/
def Faithful (capacity : Nat) (state : State ι) (action : Action ι) : Prop :=
  Orderly state action ∧ ∀ choice, action = .server choice → state.loop.place = .top →
    Truthful capacity state choice

/-- The same without rounds over an empty batch. At the end the flag is set. -/
def Busy (capacity : Nat) (state : State ι) (action : Action ι) : Prop :=
  Faithful capacity state action ∧ ∀ choice, action = .server choice → state.loop.place = .top →
    state.batch choice ≠ [] ∨ choice.stop = true ∧ state.loop.server.slots = []

/-- The poller tells the truth: it reports sockets once, for what they are registered
for and ready to do. -/
structure Reports (capacity : Nat) (state : State ι) (batch : List PollEvent) : Prop where
  distinct : (batch.map PollEvent.socket).Nodup
  registered : ∀ event ∈ batch, ∃ mask,
    state.loop.server.poller.interest.lookup event.socket = some mask ∧
      (event.mask.has .read = true ∨ event.mask.has .write = true) ∧
      (event.mask.has .read = true → mask.has .read = true) ∧
      (event.mask.has .write = true → mask.has .write = true)
  ready : ∀ event ∈ batch,
    (event.socket = state.loop.server.listener.nativeHandle ∧ 0 < state.pending) ∨
    ∃ name, (state.sessions name).owns event.socket = true ∧
      (event.mask.has .read = true → (state.sessions name).up.readable = true) ∧
      (event.mask.has .write = true → 0 < (state.sessions name).down.room capacity)

end Conditions

section Waits

variable {ι : Type} [Fintype ι] {capacity : Nat} {state : State ι}

/-- The descriptors of the server are those of its slots and the listener's. -/
theorem bookkept_descriptors {server : Server} (bookkept : Bookkept server) :
    (EventLoop.openDescriptors server).Nodup := by
  have distinct := lists_nodup bookkept.lists
  rwa [List.keys_cons, EventLoop.registrations_keys] at distinct

/-- No session has the descriptor of the listener. -/
theorem listener_unowned (sound : ServiceSound state)
    (bookkept : Bookkept state.loop.server) (name : ι) :
    (state.sessions name).owns state.loop.server.listener.nativeHandle = false := by
  by_contra owns
  have distinct := bookkept_descriptors bookkept
  rw [EventLoop.openDescriptors, List.nodup_cons] at distinct
  exact distinct.1 (sound.held name _ (Bool.not_eq_false _ ▸ owns))

/-- What is registered: the listener for reading, and each connection for what it calls
for, which is never an error. -/
theorem registered_cases {server : Server} (bookkept : Bookkept server) {fd : Int}
    {mask : EventMask} (listed : server.poller.interest.lookup fd = some mask) :
    mask.has .error = false ∧
      (fd = server.listener.nativeHandle ∧ mask = .read ∨ fd ∈ handles server.slots) := by
  have entry := bookkept.lists.mem_iff.mp (AList.mem_lookup_iff.mp listed)
  rcases List.mem_cons.mp entry with listener | connection
  · cases listener
    exact ⟨by decide, Or.inl ⟨rfl, rfl⟩⟩
  · obtain ⟨slot, member, same⟩ := List.mem_map.mp connection
    cases same
    refine ⟨?_, Or.inr (mem_handles.mpr ⟨slot, member, rfl⟩)⟩
    unfold InterestTracking.interestOf
    split <;> decide

/-- The events of a wait whose `::select` tells the truth are true. `wait_exact` says
which bits the events hold; each was asked for by the mask of its socket and left
because the socket is ready. -/
theorem truthful_reports {order : List Entry} {count : Nat} {sets : FdSets} {waited : Waited}
    {written : Nat} (sound : ServiceSound state) (bookkept : Bookkept state.loop.server)
    (truthful : TrueSets capacity state order count sets)
    (waits : waitCall state.loop.server.poller order (.returned count sets) = some (.ok waited))
    (result : waited.result = .ok written) :
    Reports capacity state (waited.outEvents.take written) := by
  unfold waitCall at waits
  split at waits
  · rename_i perm
    obtain ⟨call, called, _, reported⟩ := SelectWait.wait_exact state.loop.server.poller
      (poller_fits sound bookkept) ⟨order, perm⟩ events (by decide) kPollMs
      (fun _ => .returned count sets)
    obtain ⟨filled, after, returned, reports⟩ :=
      reported count sets rfl (truthful.honest call called)
    rw [returned] at waits
    cases waits
    cases result
    have exact : ∀ event ∈ after.take written, ∃ mask,
        state.loop.server.poller.interest.lookup event.socket = some mask ∧
          event.mask = readyBits sets ⟨event.socket, mask⟩ ∧
          (event.mask.has .read = true ∨ event.mask.has .write = true) := by
      intro event member
      obtain ⟨mask, listed, some_bit, same⟩ := reports.exact event member
      refine ⟨mask, listed, same, ?_⟩
      rw [same] at some_bit ⊢
      exact SelectWait.ready_bits_cases some_bit (registered_cases bookkept listed).1
    refine ⟨reports.distinct, ?_, ?_⟩
    · intro event member
      obtain ⟨mask, listed, same, named⟩ := exact event member
      refine ⟨mask, listed, named, ?_, ?_⟩
      · exact fun read => (SelectWait.ready_bits_read (same ▸ read)).1
      · exact fun write => (SelectWait.ready_bits_write (same ▸ write)).1
    · intro event member
      obtain ⟨mask, listed, same, named⟩ := exact event member
      rcases (registered_cases bookkept listed).2 with ⟨own, rfl⟩ | held
      · -- The listener is registered for reading, so its read bit is ready.
        have read : event.mask.has .read = true := by
          refine named.resolve_right fun write => ?_
          have asked : EventMask.read.has .write = true :=
            (SelectWait.ready_bits_write (same ▸ write)).1
          exact absurd asked (by decide)
        have ready := truthful.reads _ (SelectWait.ready_bits_read (same ▸ read)).2
        rcases ready with queued | ⟨name, owns, _⟩
        · exact Or.inl queued
        · rw [show event.socket = _ from own, listener_unowned sound bookkept name] at owns
          cases owns
      · obtain ⟨name, owns⟩ := sound.owned _ held
        refine Or.inr ⟨name, owns, fun read => ?_, fun write => ?_⟩
        · rcases truthful.reads _ (SelectWait.ready_bits_read (same ▸ read)).2 with
            ⟨own, _⟩ | ⟨other, also, readable⟩
          · rw [show event.socket = _ from own, listener_unowned sound bookkept name] at owns
            cases owns
          · obtain rfl := sound.single name other _ owns also
            exact readable
        · obtain ⟨other, also, space⟩ :=
            truthful.writes _ (SelectWait.ready_bits_write (same ▸ write)).2
          obtain rfl := sound.single name other _ owns also
          exact space
  · cases waits

/-- A wait reports something when a bit that a registered socket calls for is left. -/
theorem wait_call_reports {count : Nat} {sets : FdSets} (sound : ServiceSound state)
    (bookkept : Bookkept state.loop.server)
    (truthful : TrueSets capacity state state.loop.server.poller.interest.entries count sets)
    {entry : Entry} (listed : entry ∈ state.loop.server.poller.interest.entries)
    (ready : readyBits sets entry ≠ .none) :
    ∃ waited written,
      waitCall state.loop.server.poller state.loop.server.poller.interest.entries
        (.returned count sets) = some (.ok waited) ∧
      waited.result = .ok written ∧ waited.outEvents.take written ≠ [] := by
  obtain ⟨call, called, _, reported⟩ := SelectWait.wait_exact state.loop.server.poller
    (poller_fits sound bookkept) ⟨_, List.Perm.refl _⟩ events (by decide) kPollMs
    (fun _ => .returned count sets)
  obtain ⟨written, after, returned, reports⟩ :=
    reported count sets rfl (truthful.honest call called)
  refine ⟨_, written, by rw [waitCall, dif_pos (List.Perm.refl _), returned], rfl, ?_⟩
  have some_socket : 0 < state.loop.server.poller.interest.entries.countP
      fun entry => readyBits sets entry ≠ .none :=
    List.countP_pos_iff.mpr ⟨entry, listed, by simpa using ready⟩
  have size : after.length = 64 := reports.length
  have enough := reports.count
  have room : events.length = 64 := rfl
  intro nothing
  change after.take written = [] at nothing
  have none_written := congrArg List.length nothing
  rw [List.length_take, List.length_nil] at none_written
  omega

end Waits

end TcpServer.EchoService
