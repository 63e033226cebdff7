import TcpServer.DescriptorMirror

/-!
# Descriptor ownership

A call is a sequence of basic operations on objects, each of which keeps the
agreement of objects, table and ledger. What a legal ledger says of openings
therefore holds of descriptors at every statement of every run: each is owned by one
object, or released, or closed, and none is closed twice.

The scope of a call accounts for the objects that the program does not hold. Between
two calls it is empty, so that no error path leaves a descriptor behind.
-/

namespace TcpServer.Descriptors

open SocketIo Acceptor Custody Transition

/-- Every live object belongs to the program or to the scope of the current call, so
none is forgotten. -/
def Accounted (alive : Object → Bool) (held scope : List Object) : Prop :=
  ∀ object, alive object = true → object ∈ held ∨ object ∈ scope

/-- The objects that are alive in the scope of the current call. On an error path they
are the ones to be destroyed. -/
def scope : Place → List Object
  | .idle | .creating | .trying _ | .accepting _ _ => []
  | .configuring _ sock | .binding _ sock | .discarding _ sock | .listening sock
  | .wrapping sock => [sock]
  | .storing sock parameter => [parameter, sock]
  | .dropping sock parameter listener => [parameter, listener, sock]
  | .connecting accepted => [accepted]
  | .registering accepted conn => [conn, accepted]
  | .returning _ locals _ => locals
  | .unwinding locals (.socket value) _ => locals ++ [value]
  | .unwinding locals _ _ => locals

section Scopes

variable {alive : Object → Bool} {held locals : List Object} {object : Object}

/-- A new object in scope. -/
theorem accounted_created (accounted : Accounted alive held locals) (object : Object) :
    Accounted (Function.update alive object true) held (object :: locals) := by
  intro any lives
  by_cases same : any = object
  · exact Or.inr (List.mem_cons.mpr (Or.inl same))
  · rw [Function.update_of_ne same] at lives
    exact (accounted any lives).imp id (List.mem_cons_of_mem _)

/-- The first object of the scope is destroyed. -/
theorem accounted_destroyed (accounted : Accounted alive held (object :: locals)) :
    Accounted (Function.update alive object false) held locals := by
  intro any lives
  by_cases same : any = object
  · simp [same] at lives
  · rw [Function.update_of_ne same] at lives
    exact (accounted any lives).imp id (List.mem_of_ne_of_mem same)

/-- The program gives up one of its objects. -/
theorem accounted_dropped (accounted : Accounted alive held []) (object : Object) :
    Accounted (Function.update alive object false) (held.filter (· != object)) [] := by
  intro any lives
  by_cases same : any = object
  · simp [same] at lives
  · rw [Function.update_of_ne same] at lives
    have old := (accounted any lives).resolve_right List.not_mem_nil
    exact Or.inl (List.mem_filter.mpr ⟨old, by simpa using same⟩)

/-- The same objects, listed otherwise. -/
theorem accounted_mono (accounted : Accounted alive held locals) {nextHeld nextLocals : List Object}
    (widens : ∀ object, object ∈ held ∨ object ∈ locals →
      object ∈ nextHeld ∨ object ∈ nextLocals) : Accounted alive nextHeld nextLocals := by
  intro any lives
  exact widens any (accounted any lives)

end Scopes

section Runs

variable {state next : State} {choice : Choice} {history events : List Event}

/-- The agreement of world and history, with the objects accounted for. Every
statement of every call keeps it. -/
def Settled (state : State) (history : List Event) : Prop :=
  Kept state.world history ∧ Accounted state.world.alive state.held (scope state.place)

/-- The program has a new object. -/
theorem settled_created (accounted : Accounted state.world.alive state.held [])
    (idle : state.place = .idle) {world : World} {object : Object}
    (alive : world.alive = Function.update state.world.alive object true)
    (kept : Kept world (history ++ events)) :
    Settled { state with world, held := object :: state.held } (history ++ events) := by
  refine ⟨kept, ?_⟩
  rw [alive, idle]
  apply accounted_mono (accounted_created accounted object)
  intro any member
  cases member with
  | inl old => exact Or.inl (List.mem_cons_of_mem _ old)
  | inr new => exact Or.inl (List.mem_cons.mpr (Or.inl (List.mem_singleton.mp new)))

/-- The objects stay the same. -/
theorem settled_same (accounted : Accounted state.world.alive state.held (scope state.place))
    {world : World} (alive : world.alive = state.world.alive)
    (kept : Kept world (history ++ events)) :
    Settled { state with world } (history ++ events) := by
  refine ⟨kept, ?_⟩
  rw [alive]
  exact accounted

/-- Only the place changes; its scope accounts for the same objects. -/
theorem settled_goto (settled : Settled state history) {place : Place}
    (same : ∀ object, object ∈ scope state.place → object ∈ scope place) :
    Settled { state with place } (history ++ []) := by
  rw [List.append_nil]
  refine ⟨settled.1, accounted_mono settled.2 ?_⟩
  intro object member
  exact member.imp id (same object)

/-- A call of the program keeps the agreement. One case for each function of the
interface; those that make a system call leave the thread at its first statement, the
others are done at once. -/
theorem begin_settled (settled : Settled state history) (idle : state.place = .idle)
    (fresh : HandsOutClosed state choice) {call : Call} (made : choice.call = some call)
    (stepped : beginCall state choice call = some (next, events)) :
    Settled next (history ++ events) := by
  obtain ⟨kept, accounted⟩ := settled
  have programs : Accounted state.world.alive state.held [] := by
    rw [idle] at accounted
    exact accounted
  cases call with
  | construct =>
    cases stepped
    exact settled_created programs idle (create_alive _ _) (construct_kept kept)
  | adopt s =>
    cases stepped
    have free : state.world.table s = none := fresh s (by simp [Choice.handedOut, made])
    exact settled_created programs idle (adopt_alive _ _)
      (adopt_kept kept free (descriptor_valid s))
  | moveConstruct other =>
    simp only [beginCall] at stepped
    split at stepped
    · cases stepped
      exact settled_created programs idle (move_construct_alive _ _)
        (move_construct_kept kept other)
    · cases stepped
  | moveAssign object other =>
    simp only [beginCall] at stepped
    split at stepped
    · rename_i alive
      cases stepped
      exact settled_same accounted (move_assign_alive _ _ _ _)
        (move_assign_kept kept ((Bool.and_eq_true _ _).mp alive).1 other choice.close)
    · cases stepped
  | close object =>
    simp only [beginCall] at stepped
    split at stepped
    · cases stepped
      apply settled_same accounted (close_alive _ _ _)
      rw [← List.append_assoc]
      exact kept_silent (close_kept kept object choice.close).1 rfl (by simp)
    · cases stepped
  | release object =>
    simp only [beginCall] at stepped
    split at stepped
    · cases stepped
      apply settled_same accounted (release_alive _ _)
      rw [← List.append_assoc]
      exact kept_silent (release_kept kept object) rfl (by simp)
    · cases stepped
  | reset object s =>
    simp only [beginCall] at stepped
    split at stepped
    · rename_i alive
      cases stepped
      apply settled_same accounted (reset_alive _ _ _ _)
      apply reset_kept kept alive
      rintro number rfl
      exact fresh number (by simp [Choice.handedOut, made])
    · cases stepped
  | destroy object =>
    simp only [beginCall] at stepped
    split at stepped
    · cases stepped
      obtain ⟨destroyed, gone⟩ := destroy_kept kept object choice.close
      refine ⟨destroyed, ?_⟩
      rw [gone, idle]
      exact accounted_dropped programs object
    · cases stepped
  | closeReleased s =>
    simp only [beginCall] at stepped
    split at stepped
    · rename_i serial standing
      cases stepped
      refine ⟨?_, accounted⟩
      rw [List.append_nil]
      exact ⟨mirrors_give_up kept.mirrors standing, kept.unborn, kept.proper⟩
    · cases stepped
  | createTcpV4 =>
    cases stepped
    apply settled_goto ⟨kept, accounted⟩
    simp [idle, scope]
  | bindAndListen backlog resolved =>
    simp only [beginCall] at stepped
    split at stepped
    · cases stepped
      exact ⟨kept_silent kept rfl (by simp), accounted⟩
    · split at stepped
      · cases stepped
        exact ⟨kept_silent kept rfl (by simp), accounted⟩
      · cases stepped
        apply settled_goto ⟨kept, accounted⟩
        simp [idle, scope]
  | acceptOne listener | acceptAndRegister listener =>
    simp only [beginCall] at stepped
    split at stepped
    · cases stepped
      apply settled_goto ⟨kept, accounted⟩
      simp [idle, scope]
    · cases stepped

/-- A statement puts a new object at the head of the scope. -/
theorem settled_opened (accounted : Accounted state.world.alive state.held (scope state.place))
    {world : World} {object : Object} {place : Place}
    (alive : world.alive = Function.update state.world.alive object true)
    (kept : Kept world (history ++ events))
    (opens : ∀ any, any ∈ object :: scope state.place → any ∈ scope place) :
    Settled { state with world, place } (history ++ events) := by
  refine ⟨kept, ?_⟩
  rw [alive]
  apply accounted_mono (accounted_created accounted object)
  intro any member
  exact member.imp id (opens any)

/-- A statement gives a number of the kernel to a new object. -/
theorem settled_adopted (settled : Settled state history) {s : Int}
    (free : state.world.table s = none) (valid : s ≠ kInvalidSocket) {place : Place}
    (opens : ∀ any, any ∈ state.world.nextObject :: scope state.place → any ∈ scope place) :
    Settled { state with world := (adopt state.world s).1, place }
      (history ++ (adopt state.world s).2.2) :=
  settled_opened settled.2 (adopt_alive _ _) (adopt_kept settled.1 free valid) opens

/-- A statement moves an object into a new one. -/
theorem settled_moved (settled : Settled state history) (other : Object) {place : Place}
    (opens : ∀ any, any ∈ state.world.nextObject :: scope state.place → any ∈ scope place) :
    Settled { state with world := (moveConstruct state.world other).1, place }
      (history ++ (moveConstruct state.world other).2.2) :=
  settled_opened settled.2 (move_construct_alive _ _) (move_construct_kept settled.1 other) opens

/-- A statement destroys the object at the head of the scope. -/
theorem settled_destroyed (settled : Settled state history) (answer : Option Errno)
    {object : Object} {locals : List Object} (opened : scope state.place = object :: locals)
    {place : Place} (left : scope place = locals) :
    Settled { state with world := (destroy state.world object answer).1, place }
      (history ++ (destroy state.world object answer).2) := by
  obtain ⟨kept, accounted⟩ := settled
  obtain ⟨destroyed, gone⟩ := destroy_kept kept object answer
  rw [opened] at accounted
  refine ⟨destroyed, ?_⟩
  rw [gone, left]
  exact accounted_destroyed accounted

/-- A return passes the object in the result to the program. -/
theorem settled_finished (settled : Settled state history) {outcome : Outcome}
    (result : ∀ object, object ∈ scope state.place → outcome = .socket object)
    (finished : some (state.finish outcome) = some (next, events)) :
    Settled next (history ++ events) := by
  obtain ⟨kept, accounted⟩ := settled
  cases outcome with
  | socket value =>
    cases finished
    refine ⟨kept_silent kept rfl (by simp), ?_⟩
    apply accounted_mono accounted
    intro any member
    cases member with
    | inl old => exact Or.inl (List.mem_cons_of_mem _ old)
    | inr inside =>
      have same := Outcome.socket.inj (result any inside)
      exact Or.inl (List.mem_cons.mpr (Or.inl same.symm))
  | socketFailed | listenerFailed | acceptFailed =>
    cases finished
    refine ⟨kept_silent kept rfl (by simp), ?_⟩
    apply accounted_mono accounted
    intro any member
    cases member with
    | inl old => exact Or.inl old
    | inr inside => cases result any inside

/-- A number that the kernel hands out for `::socket` is free. -/
theorem socket_free (fresh : HandsOutClosed state choice) {s : Nat}
    (opened : choice.socket = .ok s) : state.world.table s = none :=
  fresh s (by simp [Choice.handedOut, opened])

/-- One statement of a call keeps the agreement. One case for each place, error paths
included: what the statement acquires is in scope, and what leaves the scope is
destroyed. -/
theorem proceed_settled (settled : Settled state history) (fresh : HandsOutClosed state choice)
    (stepped : proceed state choice state.place = some (next, events)) :
    Settled next (history ++ events) := by
  cases standing : state.place with
  | idle =>
    rw [standing] at stepped
    simp only [proceed] at stepped
    cases made : choice.call with
    | none => simp [made] at stepped
    | some call =>
      simp only [made] at stepped
      exact begin_settled settled standing fresh made stepped
  | creating =>
    rw [standing] at stepped
    simp only [proceed] at stepped
    cases opened : choice.socket with
    | error errno =>
      rw [opened] at stepped
      exact settled_finished settled (by simp [standing, scope]) stepped
    | ok s =>
      rw [opened] at stepped
      cases stepped
      apply settled_adopted settled (socket_free fresh opened) (descriptor_valid s)
      simp [standing, scope, adopt_object]
  | trying left =>
    rw [standing] at stepped
    cases left with
    | zero => exact settled_finished settled (by simp [standing, scope]) stepped
    | succ left =>
      simp only [proceed] at stepped
      cases opened : choice.socket with
      | error errno =>
        rw [opened] at stepped
        cases stepped
        apply settled_goto settled
        simp [standing, scope]
      | ok s =>
        rw [opened] at stepped
        cases stepped
        apply settled_adopted settled (socket_free fresh opened) (descriptor_valid s)
        simp [standing, scope, adopt_object]
  | configuring left sock =>
    rw [standing] at stepped
    simp only [proceed] at stepped
    split at stepped <;> cases stepped
    all_goals
      apply settled_goto settled
      simp [standing, scope]
  | binding left sock =>
    rw [standing] at stepped
    simp only [proceed] at stepped
    split at stepped
    · cases stepped
      refine ⟨(close_kept settled.1 sock choice.close).1, ?_⟩
      have accounted := settled.2
      rw [standing] at accounted
      rw [close_alive]
      exact accounted
    · cases stepped
      apply settled_goto settled
      simp [standing, scope]
  | discarding left sock =>
    rw [standing] at stepped
    cases stepped
    exact settled_destroyed settled choice.close (standing ▸ rfl) rfl
  | listening sock =>
    rw [standing] at stepped
    simp only [proceed] at stepped
    split at stepped <;> cases stepped
    all_goals
      apply settled_goto settled
      simp [standing, scope]
  | wrapping sock =>
    rw [standing] at stepped
    cases stepped
    apply settled_moved settled sock
    simp [standing, scope]
  | storing sock parameter =>
    rw [standing] at stepped
    cases stepped
    apply settled_moved settled parameter
    simp [standing, scope]
  | dropping sock parameter listener =>
    rw [standing] at stepped
    cases stepped
    exact settled_destroyed settled choice.close (standing ▸ rfl) rfl
  | accepting listener registering =>
    rw [standing] at stepped
    simp only [proceed] at stepped
    cases accepted : acceptOne ⟨state.world.handle listener⟩ choice.accept with
    | error error =>
      rw [accepted] at stepped
      exact settled_finished settled (by simp [standing, scope]) stepped
    | ok socket =>
      rw [accepted] at stepped
      cases stepped
      obtain ⟨_, s, answer, handle⟩ := accepted_valid accepted
      have free : state.world.table socket.nativeHandle = none := by
        rw [handle]
        exact fresh s (by simp [Choice.handedOut, answer])
      apply settled_adopted settled free (handle ▸ descriptor_valid s)
      simp [standing, scope, adopt_object]
  | connecting accepted =>
    rw [standing] at stepped
    cases stepped
    apply settled_moved settled accepted
    simp [standing, scope]
  | registering accepted conn =>
    rw [standing] at stepped
    simp only [proceed] at stepped
    split at stepped <;> cases stepped
    all_goals
      apply settled_goto settled
      simp [standing, scope]
  | returning source locals registering =>
    rw [standing] at stepped
    cases stepped
    apply settled_moved settled source
    intro any member
    rw [standing] at member
    cases List.mem_cons.mp member with
    | inl new => exact List.mem_append.mpr (Or.inr (List.mem_singleton.mpr new))
    | inr old => exact List.mem_append.mpr (Or.inl old)
  | unwinding locals outcome registering =>
    rw [standing] at stepped
    cases locals with
    | cons innermost rest =>
      cases stepped
      have opened : scope state.place =
          innermost :: scope (.unwinding rest outcome registering) := by
        rw [standing]
        cases outcome <;> rfl
      exact settled_destroyed settled choice.close opened rfl
    | nil =>
      cases outcome with
      | socketFailed | listenerFailed | acceptFailed =>
        exact settled_finished settled (by simp [standing, scope]) stepped
      | socket value =>
        cases registering with
        | false => exact settled_finished settled (by simp [standing, scope]) stepped
        | true =>
          cases stepped
          apply settled_goto settled
          simp [standing, scope]

/-- The agreement holds along every run. -/
theorem run_settled (run : Run descriptors HandsOutClosed {} state history) :
    Settled state history := by
  apply run_invariant Settled _ _ run
  · refine ⟨⟨mirrors_empty, fun _ _ => rfl, nofun⟩, ?_⟩
    intro object alive
    cases alive
  · intro state history choice next events _ settled fresh stepped
    exact proceed_settled settled fresh stepped

/-- The owner of an opening is the object that holds it by the ledger. -/
theorem owns_iff (kept : Kept state.world history) (object : Object) (serial : Nat) :
    state.world.Owns object serial ↔ custody (ledger history) serial = .held object := by
  have mirrors := kept.mirrors
  constructor
  · rintro ⟨_, released, standing⟩
    have valid := mirrors_standing mirrors standing
    obtain ⟨other, found, held⟩ := mirrors.owner object valid
    rw [standing] at found
    cases found
    exact held
  · intro held
    obtain ⟨s, standing⟩ := mirrors.tabled serial object held
    have has := mirrors_number mirrors held standing
    rw [← has] at standing
    exact ⟨alive_of_valid (mirrors_standing mirrors standing), false, standing⟩

/-- The ledger has exactly the custody events of its history. -/
theorem mem_ledger (history : List Event) (event : Custody.Event Nat Object) :
    event ∈ ledger history ↔ .custody event ∈ history := by
  unfold ledger
  rw [List.mem_filterMap]
  constructor
  · rintro ⟨any, member, found⟩
    cases any with
    | custody other =>
      cases found
      exact member
    | misclosed | closeReturned | releaseReturned | returned => cases found
  · intro member
    exact ⟨.custody event, member, rfl⟩

/-- The custody of a descriptor has ended when the event that ends it has happened. -/
theorem ended_iff (kept : Kept state.world history) (event : Custody.Event Nat Object)
    (ends : event.ends = true) :
    .custody event ∈ history ↔ custody (ledger history) event.resource = event.status := by
  rw [← mem_ledger]
  exact (custody_ended_iff kept.mirrors.legal event ends).symm

/-- Descriptor ownership. In every run of a program that makes any calls in any
order, with any answers of the kernel, the resolver and the poller, and only closed
numbers handed out by the kernel, before and after every statement of a call: two
live objects never have the same valid descriptor; every descriptor that was opened
is owned by exactly one live object, or was released, or was closed, and never two
of these; none is closed twice, nor is any number that is not open. Whenever no call
is under way, the program holds every live object. -/
theorem ownership_exact (state : State) (history : List Event)
    (run : Run descriptors HandsOutClosed {} state history) :
    (∀ object other, state.world.alive object = true → state.world.alive other = true →
      state.world.handle object ≠ kInvalidSocket →
      state.world.handle object = state.world.handle other → object = other) ∧
    (∀ serial < state.world.openings,
      (∃! object, state.world.Owns object serial) ∨
        .custody (.released serial) ∈ history ∨ .custody (.closed serial) ∈ history) ∧
    (∀ serial,
      ¬ (.custody (.released serial) ∈ history ∧ .custody (.closed serial) ∈ history) ∧
      ∀ object, state.world.Owns object serial →
        .custody (.released serial) ∉ history ∧ .custody (.closed serial) ∉ history) ∧
    ((ledger history).filterMap Custody.Event.closes).Nodup ∧
    (∀ s, .misclosed s ∉ history) ∧
    (state.place = .idle → ∀ object, state.world.alive object = true → object ∈ state.held) := by
  obtain ⟨kept, accounted⟩ := run_settled run
  have mirrors := kept.mirrors
  have released : ∀ serial, .custody (.released serial) ∈ history ↔
      custody (ledger history) serial = .released := fun serial =>
    ended_iff kept (.released serial) rfl
  have closed : ∀ serial, .custody (.closed serial) ∈ history ↔
      custody (ledger history) serial = .closed := fun serial =>
    ended_iff kept (.closed serial) rfl
  refine ⟨?_, ?_, ?_, closes_nodup mirrors.legal, kept.proper, ?_⟩
  · intro object other _ _ valid same
    obtain ⟨serial, standing, held⟩ := mirrors.owner object valid
    have holds := mirrors_holder mirrors (same ▸ valid) (same ▸ standing)
    rw [held] at holds
    cases holds
    rfl
  · intro serial opened
    cases status : custody (ledger history) serial with
    | fresh =>
      have later := (mirrors.numbered serial).mp status
      omega
    | held object =>
      left
      refine ⟨object, (owns_iff kept object serial).mpr status, ?_⟩
      intro other owns
      have holds := (owns_iff kept other serial).mp owns
      rw [status] at holds
      cases holds
      rfl
    | released => exact Or.inr (Or.inl ((released serial).mpr status))
    | closed => exact Or.inr (Or.inr ((closed serial).mpr status))
  · intro serial
    rw [released, closed]
    refine ⟨?_, ?_⟩
    · rintro ⟨given, gone⟩
      rw [given] at gone
      cases gone
    · intro object owns
      rw [(owns_iff kept object serial).mp owns]
      exact ⟨nofun, nofun⟩
  · intro idle object alive
    rw [idle] at accounted
    exact (accounted object alive).resolve_right List.not_mem_nil

/-- The condition on the kernel, for a choice that is replayed. -/
def handsOutClosed (state : State) (choice : Choice) : Bool :=
  choice.handedOut.all fun s => decide (state.world.table s = none)

/-- The check of the condition on the kernel is right. -/
theorem hands_out_closed_sound (state : State) (choice : Choice)
    (passed : handsOutClosed state choice = true) : HandsOutClosed state choice := by
  intro s handed
  exact of_decide_eq_true (List.all_eq_true.mp passed s handed)

/-- The first of two addresses cannot be bound and its `::close` fails, the poller
refuses the first client, and the program takes the descriptor of the second from
its object. Both numbers are handed out twice. -/
def recycledNumbers : List Choice :=
  [{ call := some (.bindAndListen 128 (.ok 2)) },
    { socket := .ok 3 }, {}, { bind := some (.other 98), close := some (.other 5) }, {},
    { socket := .ok 3 }, {}, {}, {}, {}, {}, {}, {}, {}, {}, {},
    { call := some (.acceptAndRegister 4) }, { accept := .accepted 5 }, {}, {}, {}, {},
    { upsert := some ⟨"invalid handle", 0⟩ }, {}, {}, {},
    { call := some (.acceptOne 4) }, { accept := .accepted 5 }, {}, {}, {},
    { call := some (.release 9) }, { call := some (.destroy 9) }]

/-- Ownership on such a run. -/
theorem ownership_exact_recycled :
    ∃ (state : State) (history : List Event),
      Run descriptors HandsOutClosed {} state history ∧
        (ledger history).filterMap Custody.Event.closes = [0, 2] ∧
        ((ledger history).filterMap Custody.Event.closes).Nodup := by
  obtain ⟨state, history, run, observed⟩ :=
    replay_exhibits_under descriptors {} handsOutClosed hands_out_closed_sound
      (fun final => decide ((ledger final.2).filterMap Custody.Event.closes = [0, 2]))
      recycledNumbers (by decide)
  obtain ⟨_, _, _, distinct, _⟩ := ownership_exact state history run
  exact ⟨state, history, run, of_decide_eq_true observed, distinct⟩

end Runs

end TcpServer.Descriptors
