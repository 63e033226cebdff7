import TcpServer.EventLoopBookkeeping

/-!
# Slots and their descriptors

The descriptors of the slots are the names by which the event loop finds them.
While they are distinct, a descriptor has at most one slot, wherever that slot
stands in the vector, and the lookups of the loop find it.
-/

namespace TcpServer.EventLoop

open EchoConnection

variable {slots others : List ConnSlot} {slot : ConnSlot}

/-- A descriptor is one of the slots' descriptors exactly when some slot has it. -/
theorem mem_handles {handle : Int} :
    handle ∈ handles slots ↔ ∃ slot ∈ slots, slot.conn.nativeHandle = handle := by
  simp [handles]

/-- Whether the descriptors are distinct does not depend on the order of the slots. -/
theorem distinct_perm (same : slots.Perm others) :
    (handles slots).Nodup ↔ (handles others).Nodup := by
  unfold handles
  exact (same.map _).nodup_iff

/-- Distinct descriptors tell the slots apart: two slots with the same one are the
same slot. -/
theorem same_slot {other : ConnSlot} (distinct : (handles slots).Nodup) (member : slot ∈ slots)
    (also : other ∈ slots) (same : other.conn.nativeHandle = slot.conn.nativeHandle) :
    other = slot :=
  List.inj_on_of_nodup_map distinct also member same

/-- A descriptor of a slot is found, and what is found at the index is a slot that has
it. -/
theorem find_slot_some {socket : Int} (member : socket ∈ handles slots) :
    ∃ index slot, findSlotIndex slots socket = some index ∧ slots[index]? = some slot ∧
      slot.conn.nativeHandle = socket := by
  obtain ⟨slot, within, same⟩ := mem_handles.mp member
  cases found : findSlotIndex slots socket with
  | none =>
    have nowhere := List.findIdx?_eq_none_iff.mp found slot within
    simp [same] at nowhere
  | some index =>
    obtain ⟨other, standing, handle⟩ := found_slot found
    exact ⟨index, other, rfl, standing, handle⟩

/-- The write handler starts on the slot with the descriptor, wherever that slot has
moved in the meantime. -/
theorem write_event_serves (server : Server) (socket : Int) (rest : List PollEvent)
    (member : socket ∈ handles server.slots) :
    ∃ index slot, writeEvent server socket rest =
        .serving index socket (.flushing .eventLoop) rest ∧
      server.slots[index]? = some slot ∧ slot.conn.nativeHandle = socket := by
  obtain ⟨index, slot, found, standing, handle⟩ := find_slot_some member
  exact ⟨index, slot, by simp only [writeEvent, found], standing, handle⟩

/-- The slots with the one at an index in front. Most invariants of the slots do not
depend on their order. -/
theorem slots_focus {index : Nat} (found : slots[index]? = some slot) :
    slots.Perm ([slot] ++ slots.eraseIdx index) := by
  obtain ⟨inside, rfl⟩ := List.getElem?_eq_some_iff.mp found
  exact (List.getElem_cons_eraseIdx_perm inside).symm

/-- The other slots have other descriptors than the one that is served. -/
theorem others_differ {index : Nat} (distinct : (handles slots).Nodup)
    (found : slots[index]? = some slot) {other : ConnSlot} (member : other ∈ slots.eraseIdx index) :
    other.conn.nativeHandle ≠ slot.conn.nativeHandle := by
  have apart := (distinct_perm (slots_focus found)).mp distinct
  rw [List.singleton_append, handles, List.map_cons, List.nodup_cons] at apart
  intro same
  exact apart.1 (same ▸ List.mem_map_of_mem member)

/-- The slots with an overwritten one in front, and the others behind it. -/
theorem slots_set {index : Nat} (found : slots[index]? = some slot) (served : ConnSlot) :
    (slots.set index served).Perm (served :: slots.eraseIdx index) := by
  obtain ⟨inside, _⟩ := List.getElem?_eq_some_iff.mp found
  exact List.set_perm_cons_eraseIdx inside served

/-- Overwriting a slot on its descriptor keeps the descriptors distinct, whatever else
has changed in the slot. -/
theorem set_distinct {index : Nat} (distinct : (handles slots).Nodup)
    (found : slots[index]? = some slot) {served : ConnSlot}
    (handle : served.conn.nativeHandle = slot.conn.nativeHandle) :
    (handles (slots.set index served)).Nodup := by
  rw [distinct_perm (slots_set found served), handles, List.map_cons, handle]
  have apart := (distinct_perm (slots_focus found)).mp distinct
  rwa [List.singleton_append, handles, List.map_cons] at apart

end TcpServer.EventLoop
