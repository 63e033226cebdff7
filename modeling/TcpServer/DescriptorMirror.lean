import TcpServer.Descriptors

/-!
# The table of descriptors and its ledger

The `Socket` objects and the kernel's table mirror the ledger: an object has a
valid descriptor exactly when the ledger says that it holds the opening that
stands in the table under this number. One event of the ledger changes table and
objects at its own opening only; each basic operation comes down to such events,
and so keeps the agreement.
-/

namespace TcpServer.Descriptors

open SocketIo Acceptor Custody Transition

/-- Objects and table agree with the ledger: who holds what in the ledger holds it in
the world, and nothing is open that nobody holds. -/
structure Mirrors (handle : Object → Int) (table : Int → Option Opening) (openings : Nat)
    (ledger : List (Custody.Event Nat Object)) : Prop where
  legal : Justified Legal ledger
  owner : ∀ object, handle object ≠ kInvalidSocket → ∃ serial,
    table (handle object) = some ⟨serial, false⟩ ∧ custody ledger serial = .held object
  owned : ∀ s serial, table s = some ⟨serial, false⟩ → ∃ object,
    handle object = s ∧ custody ledger serial = .held object
  lent : ∀ s serial, table s = some ⟨serial, true⟩ → custody ledger serial = .released
  tabled : ∀ serial object, custody ledger serial = .held object → ∃ s,
    table s = some ⟨serial, false⟩
  numbered : ∀ serial, custody ledger serial = .fresh ↔ openings ≤ serial
  invalid : table kInvalidSocket = none

section Ledger

variable {handle : Object → Int} {table : Int → Option Opening} {openings : Nat}
  {ledger : List (Custody.Event Nat Object)} {object target : Object} {s : Int} {serial : Nat}

/-- Nothing is open and nobody has a descriptor at first, so the empty ledger agrees.
-/
theorem mirrors_empty : Mirrors (fun _ => kInvalidSocket) (fun _ => none) 0 [] where
  legal := justified_nil _
  owner := fun _ valid => absurd rfl valid
  owned := nofun
  lent := nofun
  tabled := nofun
  numbered := by simp [custody_nil]
  invalid := rfl

/-- The object under whose descriptor an opening stands in the table is its holder in
the ledger. -/
theorem mirrors_holder (mirrors : Mirrors handle table openings ledger)
    (valid : handle object ≠ kInvalidSocket)
    (standing : table (handle object) = some ⟨serial, false⟩) :
    custody ledger serial = .held object := by
  obtain ⟨other, found, held⟩ := mirrors.owner object valid
  rw [standing] at found
  cases found
  exact held

/-- A held opening stands in the table under one number, the one of its holder. -/
theorem mirrors_number (mirrors : Mirrors handle table openings ledger)
    (held : custody ledger serial = .held object) (standing : table s = some ⟨serial, false⟩) :
    handle object = s := by
  obtain ⟨other, found, same⟩ := mirrors.owned s serial standing
  rw [held] at same
  cases same
  exact found

/-- A held opening has been made, so its serial number is an earlier one. -/
theorem mirrors_used (mirrors : Mirrors handle table openings ledger)
    (held : custody ledger serial = .held object) : serial < openings := by
  by_contra later
  have fresh := (mirrors.numbered serial).mpr (Nat.le_of_not_lt later)
  rw [held] at fresh
  cases fresh

/-- An object that has the descriptor of an opening is not empty. -/
theorem mirrors_standing (mirrors : Mirrors handle table openings ledger) {opening : Opening}
    (standing : table (handle object) = some opening) : handle object ≠ kInvalidSocket := by
  intro empty
  rw [empty, mirrors.invalid] at standing
  cases standing

/-- One event of the ledger changes table and objects at its own opening only. What
remains to be shown is that they then agree with the status the event leaves. -/
theorem mirrors_event (mirrors : Mirrors handle table openings ledger)
    (event : Custody.Event Nat Object) (legal : Legal ledger event)
    {nextHandle : Object → Int} {nextTable : Int → Option Opening} {nextOpenings : Nat}
    (entries : ∀ s opening, opening.serial ≠ event.resource →
      (nextTable s = some opening ↔ table s = some opening))
    (stays : ∀ object opening, opening.serial ≠ event.resource →
      table (handle object) = some opening → nextHandle object = handle object)
    (owner : ∀ object, nextHandle object ≠ kInvalidSocket →
      (nextTable (nextHandle object) = some ⟨event.resource, false⟩ ∧
        event.status = .held object) ∨
      (nextHandle object = handle object ∧ custody ledger event.resource ≠ .held object))
    (owned : ∀ s, nextTable s = some ⟨event.resource, false⟩ → ∃ object,
      nextHandle object = s ∧ event.status = .held object)
    (lent : ∀ s, nextTable s = some ⟨event.resource, true⟩ → event.status = .released)
    (tabled : ∀ object, event.status = .held object → ∃ s,
      nextTable s = some ⟨event.resource, false⟩)
    (numbered : ∀ serial, nextOpenings ≤ serial ↔
      openings ≤ serial ∧ serial ≠ event.resource)
    (invalid : nextTable kInvalidSocket = none) :
    Mirrors nextHandle nextTable nextOpenings (ledger ++ [event]) := by
  have self : custody (ledger ++ [event]) event.resource = event.status :=
    custody_concat_self ledger event
  have others : ∀ serial, serial ≠ event.resource →
      custody (ledger ++ [event]) serial = custody ledger serial :=
    fun serial different => custody_concat_ne ledger event different.symm
  refine ⟨justified_concat mirrors.legal legal, ?_, ?_, ?_, ?_, ?_, invalid⟩
  · intro object valid
    cases owner object valid with
    | inl given =>
      obtain ⟨standing, held⟩ := given
      exact ⟨event.resource, standing, self.trans held⟩
    | inr keeps =>
      obtain ⟨same, another⟩ := keeps
      rw [same] at valid ⊢
      obtain ⟨serial, standing, held⟩ := mirrors.owner object valid
      have different : serial ≠ event.resource := by
        rintro rfl
        exact another held
      exact ⟨serial, (entries _ _ different).mpr standing, (others serial different).trans held⟩
  · intro s serial standing
    by_cases same : serial = event.resource
    · subst same
      obtain ⟨object, has, held⟩ := owned s standing
      exact ⟨object, has, self.trans held⟩
    · have before := (entries s _ same).mp standing
      obtain ⟨object, has, held⟩ := mirrors.owned s serial before
      refine ⟨object, ?_, (others serial same).trans held⟩
      rw [stays object _ same (has ▸ before), has]
  · intro s serial standing
    by_cases same : serial = event.resource
    · subst same
      exact self.trans (lent s standing)
    · exact (others serial same).trans (mirrors.lent s serial ((entries s _ same).mp standing))
  · intro serial object held
    by_cases same : serial = event.resource
    · subst same
      exact tabled object (self.symm.trans held)
    · obtain ⟨s, standing⟩ := mirrors.tabled serial object ((others serial same).symm.trans held)
      exact ⟨s, (entries s _ same).mpr standing⟩
  · intro serial
    rw [numbered]
    by_cases same : serial = event.resource
    · subst same
      rw [self]
      cases event <;> simp [Event.status]
    · rw [others serial same, mirrors.numbered]
      exact (and_iff_left same).symm

/-- The kernel opens a descriptor, and an object without one takes it. The number was
closed, so nobody else has it; the serial number of the opening is new, so no other
entry of the table has that. -/
theorem mirrors_acquire (mirrors : Mirrors handle table openings ledger)
    (closed : table s = none) (valid : s ≠ kInvalidSocket)
    (empty : handle object = kInvalidSocket) :
    Mirrors (Function.update handle object s)
      (Function.update table s (some ⟨openings, false⟩)) (openings + 1)
      (ledger ++ [.acquired openings object]) := by
  have fresh : custody ledger openings = .fresh := (mirrors.numbered openings).mpr (Nat.le_refl _)
  apply mirrors_event mirrors (.acquired openings object) fresh
  · intro number opening different
    by_cases same : number = s
    · subst same
      rw [Function.update_self, closed]
      constructor
      · intro opened
        cases opened
        exact absurd rfl different
      · intro standing
        cases standing
    · rw [Function.update_of_ne same]
  · intro any opening different standing
    apply Function.update_of_ne
    rintro rfl
    exact mirrors_standing mirrors standing empty
  · intro any present
    by_cases same : any = object
    · subst same
      left
      rw [Function.update_self]
      exact ⟨Function.update_self .., rfl⟩
    · right
      refine ⟨Function.update_of_ne same .., ?_⟩
      intro held
      have status := fresh.symm.trans held
      cases status
  · intro number standing
    by_cases same : number = s
    · subst same
      exact ⟨object, Function.update_self .., rfl⟩
    · rw [Function.update_of_ne same] at standing
      obtain ⟨any, has, held⟩ := mirrors.owned number openings standing
      rw [fresh] at held
      cases held
  · intro number standing
    by_cases same : number = s
    · subst same
      rw [Function.update_self] at standing
      cases standing
    · rw [Function.update_of_ne same] at standing
      have lent := mirrors.lent number openings standing
      rw [fresh] at lent
      cases lent
  · intro any _
    exact ⟨s, Function.update_self ..⟩
  · intro serial
    rw [Event.resource]
    omega
  · rw [Function.update_of_ne valid.symm]
    exact mirrors.invalid

/-- A descriptor changes hands: its object is left empty, and one that was empty has
it. The table stays as it is, and the ledger names the new holder. -/
theorem mirrors_move (mirrors : Mirrors handle table openings ledger)
    (valid : handle object ≠ kInvalidSocket)
    (standing : table (handle object) = some ⟨serial, false⟩)
    (empty : handle target = kInvalidSocket) :
    Mirrors (Function.update (Function.update handle target (handle object)) object
      kInvalidSocket) table openings (ledger ++ [.moved serial target]) := by
  have held := mirrors_holder mirrors valid standing
  have apart : target ≠ object := by
    rintro rfl
    exact valid empty
  have taken : Function.update (Function.update handle target (handle object)) object
      kInvalidSocket target = handle object := by
    rw [Function.update_of_ne apart, Function.update_self]
  apply mirrors_event mirrors (.moved serial target) ⟨object, held⟩
  · intro number opening different
    exact Iff.rfl
  · intro any opening different has
    have left : any ≠ object := by
      rintro rfl
      rw [standing] at has
      cases has
      exact different rfl
    have given : any ≠ target := by
      rintro rfl
      exact mirrors_standing mirrors has empty
    rw [Function.update_of_ne left, Function.update_of_ne given]
  · intro any present
    by_cases given : any = target
    · subst given
      left
      rw [taken]
      exact ⟨standing, rfl⟩
    · have left : any ≠ object := by
        rintro rfl
        exact present (Function.update_self ..)
      right
      rw [Function.update_of_ne left, Function.update_of_ne given, Event.resource, held]
      refine ⟨rfl, ?_⟩
      intro same
      cases same
      exact left rfl
  · intro number has
    refine ⟨target, ?_, rfl⟩
    rw [taken]
    exact mirrors_number mirrors held has
  · intro number has
    have lent := mirrors.lent number serial has
    rw [held] at lent
    cases lent
  · intro any _
    exact ⟨handle object, standing⟩
  · intro other
    have used := mirrors_used mirrors held
    rw [Event.resource]
    omega
  · exact mirrors.invalid

/-- The custody of a descriptor ends: its object is left empty, and its number is
closed or marks what was released. -/
theorem mirrors_end (mirrors : Mirrors handle table openings ledger)
    (valid : handle object ≠ kInvalidSocket)
    (standing : table (handle object) = some ⟨serial, false⟩) {entry : Option Opening}
    {event : Custody.Event Nat Object}
    (ending : (entry = none ∧ event = .closed serial) ∨
      (entry = some ⟨serial, true⟩ ∧ event = .released serial)) :
    Mirrors (Function.update handle object kInvalidSocket)
      (Function.update table (handle object) entry) openings (ledger ++ [event]) := by
  have held := mirrors_holder mirrors valid standing
  have resource : event.resource = serial := by
    rcases ending with ⟨_, rfl⟩ | ⟨_, rfl⟩ <;> rfl
  have legal : Legal ledger event := by
    rcases ending with ⟨_, rfl⟩ | ⟨_, rfl⟩ <;> exact ⟨object, held⟩
  have marks : ∀ opening, entry = some opening →
      opening = ⟨serial, true⟩ ∧ event.status = .released := by
    rcases ending with ⟨rfl, rfl⟩ | ⟨rfl, rfl⟩
    · nofun
    · rintro opening ⟨⟩
      exact ⟨rfl, rfl⟩
  have ended : ∀ any, event.status ≠ .held any := by
    rcases ending with ⟨_, rfl⟩ | ⟨_, rfl⟩ <;> nofun
  apply mirrors_event mirrors event legal
  · intro number opening different
    rw [resource] at different
    by_cases same : number = handle object
    · subst same
      rw [Function.update_self, standing]
      constructor
      · intro marked
        exact absurd (congrArg Opening.serial (marks opening marked).1) different
      · rintro ⟨⟩
        exact absurd rfl different
    · rw [Function.update_of_ne same]
  · intro any opening different has
    apply Function.update_of_ne
    rintro rfl
    rw [standing] at has
    cases has
    exact different resource.symm
  · intro any present
    have left : any ≠ object := by
      rintro rfl
      exact present (Function.update_self ..)
    right
    rw [Function.update_of_ne left, resource, held]
    refine ⟨rfl, ?_⟩
    rintro ⟨⟩
    exact left rfl
  · intro number has
    rw [resource] at has
    by_cases same : number = handle object
    · subst same
      rw [Function.update_self] at has
      cases (marks _ has).1
    · rw [Function.update_of_ne same] at has
      exact absurd (mirrors_number mirrors held has).symm same
  · intro number has
    rw [resource] at has
    by_cases same : number = handle object
    · subst same
      rw [Function.update_self] at has
      exact (marks _ has).2
    · rw [Function.update_of_ne same] at has
      have lent := mirrors.lent number serial has
      rw [held] at lent
      cases lent
  · intro any holds
    exact absurd holds (ended any)
  · intro other
    have used := mirrors_used mirrors held
    rw [resource]
    omega
  · rw [Function.update_of_ne valid.symm]
    exact mirrors.invalid

/-- The program closes a descriptor that was released to it. No object held it, so the
table loses an entry that the objects do not know of. -/
theorem mirrors_give_up (mirrors : Mirrors handle table openings ledger)
    (standing : table s = some ⟨serial, true⟩) :
    Mirrors handle (Function.update table s none) openings ledger := by
  have kept : ∀ number other, table number = some ⟨other, false⟩ →
      Function.update table s none number = some ⟨other, false⟩ := by
    intro number other found
    have different : number ≠ s := by
      rintro rfl
      rw [standing] at found
      cases found
    rwa [Function.update_of_ne different]
  have left : ∀ number opening, Function.update table s none number = some opening →
      table number = some opening := by
    intro number opening found
    by_cases same : number = s
    · simp [same] at found
    · rwa [Function.update_of_ne same] at found
  refine ⟨mirrors.legal, ?_, ?_, ?_, ?_, mirrors.numbered, ?_⟩
  · intro object valid
    obtain ⟨other, found, held⟩ := mirrors.owner object valid
    exact ⟨other, kept _ other found, held⟩
  · intro number other found
    exact mirrors.owned number other (left number _ found)
  · intro number other found
    exact mirrors.lent number other (left number _ found)
  · intro other object held
    obtain ⟨number, found⟩ := mirrors.tabled other object held
    exact ⟨number, kept number other found⟩
  · by_cases same : kInvalidSocket = s
    · simp [same]
    · rw [Function.update_of_ne same]
      exact mirrors.invalid

end Ledger

/-- The world agrees with the ledger of its history, and nothing was closed that
was not open. -/
structure Kept (world : World) (history : List Event) : Prop where
  mirrors : Mirrors world.handle world.table world.openings (ledger history)
  unborn : ∀ object, world.nextObject ≤ object → world.alive object = false
  proper : ∀ s, .misclosed s ∉ history

section Objects

variable {world after : World} {history events : List Event} {object other : Object} {s : Int}

/-- The ledger of a history is kept event by event. -/
theorem ledger_append (history events : List Event) :
    ledger (history ++ events) = ledger history ++ ledger events := List.filterMap_append

/-- Events outside the ledger change nothing. -/
theorem kept_silent (kept : Kept world history) (silent : ledger events = [])
    (proper : ∀ s, .misclosed s ∉ events) : Kept world (history ++ events) := by
  refine ⟨?_, kept.unborn, ?_⟩
  · rw [ledger_append, silent, List.append_nil]
    exact kept.mirrors
  · intro s member
    exact (List.mem_append.mp member).elim (kept.proper s) (proper s)

/-- One event of the ledger, with the agreement it leads to. -/
theorem kept_event (kept : Kept world history) {event : Custody.Event Nat Object}
    (mirrors : Mirrors after.handle after.table after.openings (ledger history ++ [event]))
    (unborn : ∀ object, after.nextObject ≤ object → after.alive object = false) :
    Kept after (history ++ [.custody event]) := by
  refine ⟨?_, unborn, ?_⟩
  · rw [ledger_append]
    exact mirrors
  · intro s member
    cases List.mem_append.mp member with
    | inl before => exact kept.proper s before
    | inr new => simp at new

/-- Only a live object has a valid descriptor. -/
theorem alive_of_valid (valid : world.handle object ≠ kInvalidSocket) :
    world.alive object = true := by
  unfold World.handle at valid
  unfold World.alive
  cases found : world.objects object with
  | none => simp [found] at valid
  | some socket => rfl

/-- A destroyed object holds no descriptor. -/
theorem dead_handle (dead : world.alive object = false) :
    world.handle object = kInvalidSocket :=
  by_contra fun valid => by simp [alive_of_valid valid] at dead

/-- Storing changes the descriptor of one object that is alive, and of no other. An
object that is not alive stores nothing. -/
theorem store_handle (alive : world.alive object = true) (s : Int) :
    (world.store object s).handle = Function.update world.handle object s := by
  obtain ⟨socket, found⟩ := Option.isSome_iff_exists.mp alive
  funext any
  by_cases same : any = object
  · subst same
    simp [World.handle, World.store, found, Socket.nativeHandle]
  · simp [World.handle, World.store, same]

/-- Emptying needs no live object: there is nothing to empty otherwise. -/
theorem store_empty_handle (world : World) (object : Object) :
    (world.store object kInvalidSocket).handle =
      Function.update world.handle object kInvalidSocket := by
  cases alive : world.alive object with
  | true => exact store_handle alive kInvalidSocket
  | false =>
    have missing : world.objects object = none := Option.not_isSome_iff_eq_none.mp (by
      rw [← World.alive, alive]
      exact Bool.false_ne_true)
    funext any
    by_cases same : any = object
    · subst same
      simp [World.handle, World.store, missing]
    · simp [World.handle, World.store, same]

/-- Storing creates no object and destroys none. What an object holds is independent
of whether it exists. -/
@[simp] theorem store_alive (world : World) (object : Object) (s : Int) :
    (world.store object s).alive = world.alive := by
  funext any
  by_cases same : any = object
  · subst same
    simp [World.alive, World.store]
  · simp [World.alive, World.store, same]

/-- A new object holds the descriptor it was made of. It has the next number, which no
object has had before. -/
@[simp] theorem create_handle (world : World) (s : Int) :
    (world.create s).1.handle = Function.update world.handle world.nextObject s := by
  funext any
  by_cases same : any = world.nextObject
  · subst same
    simp [World.handle, World.create, Socket.nativeHandle]
  · simp [World.handle, World.create, same]

/-- A new object is alive from then on, and the others are as they were. -/
@[simp] theorem create_alive (world : World) (s : Int) :
    (world.create s).1.alive = Function.update world.alive world.nextObject true := by
  funext any
  by_cases same : any = world.nextObject
  · subst same
    simp [World.alive, World.create]
  · simp [World.alive, World.create, same]

/-- Behind a creation the next object is not yet born. -/
theorem create_unborn (unborn : ∀ object, world.nextObject ≤ object → world.alive object = false)
    (s : Int) : ∀ object, world.nextObject + 1 ≤ object →
      (world.create s).1.alive object = false := by
  intro object later
  have different : object ≠ world.nextObject := Nat.ne_of_gt later
  rw [create_alive, Function.update_of_ne different]
  exact unborn object (Nat.le_of_succ_le later)

/-- All that `close` can do: nothing to an empty object, and otherwise to give its
descriptor up, in the object and to the kernel, whatever the kernel answers. -/
theorem close_cases (kept : Kept world history) (object : Object) (answer : Option Errno) :
    (world.handle object = kInvalidSocket ∧ (close world object answer).2 = (world, [])) ∨
    (world.handle object ≠ kInvalidSocket ∧ ∃ serial,
      world.table (world.handle object) = some ⟨serial, false⟩ ∧
      (close world object answer).2 = ({ world.store object kInvalidSocket with
          table := Function.update world.table (world.handle object) none },
        [.custody (.closed serial)])) := by
  by_cases empty : world.handle object = kInvalidSocket
  · exact Or.inl ⟨empty, by simp [close, empty]⟩
  · obtain ⟨serial, standing, _⟩ := kept.mirrors.owner object empty
    refine Or.inr ⟨empty, serial, standing, ?_⟩
    have still : (world.store object kInvalidSocket).table (world.handle object) =
        some ⟨serial, false⟩ := standing
    simp only [close, empty, ↓reduceIte, osClose, still]
    cases answer <;> rfl

/-- Closing destroys no object. -/
theorem close_alive (world : World) (object : Object) (answer : Option Errno) :
    (close world object answer).2.1.alive = world.alive := by
  have closing : ∀ s, (osClose (world.store object kInvalidSocket) s).1.alive = world.alive := by
    intro s
    rw [← store_alive world object kInvalidSocket]
    unfold osClose
    split <;> rfl
  unfold close
  split
  · rfl
  · cases answer <;> exact closing _

/-- Closing keeps the agreement and leaves its object empty. -/
theorem close_kept (kept : Kept world history) (object : Object) (answer : Option Errno) :
    Kept (close world object answer).2.1 (history ++ (close world object answer).2.2) ∧
      (close world object answer).2.1.handle =
        Function.update world.handle object kInvalidSocket ∧
      (close world object answer).2.1.nextObject = world.nextObject := by
  cases close_cases kept object answer with
  | inl idle =>
    obtain ⟨empty, same⟩ := idle
    rw [same]
    refine ⟨kept_silent kept rfl (by simp), ?_, rfl⟩
    rw [← empty, Function.update_eq_self]
  | inr closes =>
    obtain ⟨valid, serial, standing, same⟩ := closes
    rw [same]
    have handle := store_empty_handle world object
    refine ⟨kept_event kept ?_ ?_, handle, rfl⟩
    · have ended := mirrors_end kept.mirrors valid standing (Or.inl ⟨rfl, rfl⟩)
      rw [← handle] at ended
      exact ended
    · intro any later
      exact (congrFun (store_alive world object kInvalidSocket) any).trans (kept.unborn any later)

/-- The kernel's descriptors are not the invalid one. -/
theorem descriptor_valid (number : Nat) : (number : Int) ≠ kInvalidSocket := by
  unfold kInvalidSocket
  omega

/-- What both moves do at last: an empty object takes the descriptor of another,
which is left empty. Nothing happens to the ledger when there was none. -/
theorem transfer_kept (kept : Kept world history) (empty : world.handle object = kInvalidSocket)
    (handle : after.handle = Function.update
      (Function.update world.handle object (world.handle other)) other kInvalidSocket)
    (table : after.table = world.table) (openings : after.openings = world.openings)
    (unborn : ∀ any, after.nextObject ≤ any → after.alive any = false) :
    Kept after (history ++ moves world (world.handle other) object) := by
  by_cases idle : world.handle other = kInvalidSocket
  · have same : after.handle = world.handle := by
      rw [handle, idle, ← empty, Function.update_eq_self, empty, ← idle, Function.update_eq_self]
    have silent : moves world (world.handle other) object = [] := by
      rw [idle, moves, kept.mirrors.invalid]
    rw [silent, List.append_nil]
    refine ⟨?_, unborn, kept.proper⟩
    rw [same, table, openings]
    exact kept.mirrors
  · obtain ⟨serial, standing, _⟩ := kept.mirrors.owner other idle
    have moved : moves world (world.handle other) object = [.custody (.moved serial object)] := by
      rw [moves, standing]
    rw [moved]
    apply kept_event kept ?_ unborn
    rw [handle, table, openings]
    exact mirrors_move kept.mirrors idle standing empty

/-- The default constructor makes an empty object. -/
theorem construct_kept (kept : Kept world history) : Kept (construct world).1 (history ++ []) := by
  have empty : world.handle world.nextObject = kInvalidSocket :=
    dead_handle (kept.unborn _ (Nat.le_refl _))
  have same : (construct world).1.handle = world.handle := by
    rw [construct, create_handle, ← empty, Function.update_eq_self]
  rw [List.append_nil]
  refine ⟨?_, create_unborn kept.unborn _, kept.proper⟩
  rw [same]
  exact kept.mirrors

/-- A new object takes a descriptor that was just opened. -/
theorem adopt_kept (kept : Kept world history) (closed : world.table s = none)
    (valid : s ≠ kInvalidSocket) :
    Kept (adopt world s).1 (history ++ (adopt world s).2.2) := by
  have empty : world.handle world.nextObject = kInvalidSocket :=
    dead_handle (kept.unborn _ (Nat.le_refl _))
  apply kept_event kept ?_ (create_unborn kept.unborn s)
  rw [adopt, create_handle]
  exact mirrors_acquire kept.mirrors closed valid empty

/-- The move constructor keeps the agreement. -/
theorem move_construct_kept (kept : Kept world history) (other : Object) :
    Kept (moveConstruct world other).1 (history ++ (moveConstruct world other).2.2) := by
  have empty : world.handle world.nextObject = kInvalidSocket :=
    dead_handle (kept.unborn _ (Nat.le_refl _))
  refine transfer_kept kept empty ?_ rfl rfl ?_
  · rw [moveConstruct, store_empty_handle, create_handle]
  · intro any later
    rw [moveConstruct, store_alive]
    exact create_unborn kept.unborn _ any later

/-- The move assignment keeps the agreement: it closes what its object owned, and
does nothing at all on the object itself. -/
theorem move_assign_kept (kept : Kept world history) (alive : world.alive object = true)
    (other : Object) (answer : Option Errno) :
    Kept (moveAssign world object other answer).1
      (history ++ (moveAssign world object other answer).2) := by
  unfold moveAssign
  by_cases same : object = other
  · rw [if_pos same, List.append_nil]
    exact kept
  · obtain ⟨closed, handle, _⟩ := close_kept kept object answer
    have lives := close_alive world object answer
    rw [if_neg same]
    generalize close world object answer = outcome at closed handle lives
    obtain ⟨_, emptied, events⟩ := outcome
    have empty : emptied.handle object = kInvalidSocket := by
      rw [handle, Function.update_self]
    rw [← List.append_assoc]
    refine transfer_kept closed empty ?_ rfl rfl ?_
    · rw [store_empty_handle, store_handle (by rw [lives, alive])]
    · intro any later
      rw [store_alive, store_alive]
      exact closed.unborn any later

/-- `reset` keeps the agreement. A descriptor that was just opened differs from the
one that its object owned, so the order of opening and closing does not matter. -/
theorem reset_kept (kept : Kept world history) (alive : world.alive object = true)
    {s : Option Nat} (closed : ∀ number : Nat, s = some number → world.table number = none)
    (answer : Option Errno) :
    Kept (reset world object s answer).1 (history ++ (reset world object s answer).2) := by
  cases s with
  | none => exact (close_kept kept object answer).1
  | some number =>
    have free : world.table number = none := closed number rfl
    by_cases empty : world.handle object = kInvalidSocket
    · have still : (world.opened number).handle object = kInvalidSocket := empty
      simp only [reset, close, still, ↓reduceIte, List.nil_append]
      apply kept_event kept
      · have handle : ((world.opened number).store object number).handle =
            Function.update world.handle object number := store_handle alive number
        rw [handle]
        exact mirrors_acquire kept.mirrors free (descriptor_valid number) empty
      · intro any later
        rw [store_alive]
        exact kept.unborn any later
    · obtain ⟨serial, standing, _⟩ := kept.mirrors.owner object empty
      have different : world.handle object ≠ number := by
        intro same
        rw [same, free] at standing
        cases standing
      have given := mirrors_end kept.mirrors empty standing (Or.inl ⟨rfl, rfl⟩)
      have taken := mirrors_acquire given (by rwa [Function.update_of_ne different.symm])
        (descriptor_valid number) (Function.update_self object kInvalidSocket world.handle)
      rw [Function.update_idem, Function.update_comm different] at taken
      have still : (world.opened number).handle object = world.handle object := rfl
      have found : ((world.opened number).store object kInvalidSocket).table
          (world.handle object) = some ⟨serial, false⟩ := by
        simpa [World.opened, World.store, Function.update_of_ne different] using standing
      let emptied : World := { (world.opened number).store object kInvalidSocket with
        table := Function.update (world.opened number).table (world.handle object) none }
      have result : reset world object (some number) answer = (emptied.store object number,
          [.custody (.closed serial), .custody (.acquired world.openings object)]) := by
        simp only [reset, close, still, empty, ↓reduceIte, osClose, found]
        cases answer <;> rfl
      have lives : emptied.alive = world.alive :=
        store_alive (world.opened number) object kInvalidSocket
      have handle : (emptied.store object number).handle =
          Function.update world.handle object number := by
        rw [store_handle (by rw [lives, alive])]
        have before : emptied.handle = Function.update world.handle object kInvalidSocket :=
          store_empty_handle (world.opened number) object
        rw [before, Function.update_idem]
      rw [result]
      refine ⟨?_, ?_, ?_⟩
      · rw [handle, ledger_append]
        rw [List.append_assoc] at taken
        exact taken
      · intro any later
        rw [store_alive, lives]
        exact kept.unborn any later
      · intro s member
        cases List.mem_append.mp member with
        | inl before => exact kept.proper s before
        | inr new => simp at new

/-- `release` hands the descriptor of its object, if any, to the program. -/
theorem release_kept (kept : Kept world history) (object : Object) :
    Kept (release world object).2.1 (history ++ (release world object).2.2) := by
  have handle := store_empty_handle world object
  by_cases empty : world.handle object = kInvalidSocket
  · simp only [release, empty, kept.mirrors.invalid, List.append_nil]
    refine ⟨?_, ?_, kept.proper⟩
    · rw [handle, ← empty, Function.update_eq_self]
      exact kept.mirrors
    · rw [store_alive]
      exact kept.unborn
  · obtain ⟨serial, standing, _⟩ := kept.mirrors.owner object empty
    have ended := mirrors_end kept.mirrors empty standing (Or.inr ⟨rfl, rfl⟩)
    rw [← handle] at ended
    simp only [release, standing]
    apply kept_event kept ended
    intro any later
    exact (congrFun (store_alive world object kInvalidSocket) any).trans (kept.unborn any later)

/-- The destructor closes what its object owns, and then the object is gone. It holds
nothing any more, so its handle no longer counts. -/
theorem destroy_kept (kept : Kept world history) (object : Object) (answer : Option Errno) :
    Kept (destroy world object answer).1 (history ++ (destroy world object answer).2) ∧
      (destroy world object answer).1.alive = Function.update world.alive object false := by
  obtain ⟨closed, handle, next⟩ := close_kept kept object answer
  have lives := close_alive world object answer
  have gone : (destroy world object answer).1.alive = Function.update world.alive object false := by
    rw [← lives]
    funext any
    by_cases same : any = object
    · subst same
      simp [destroy, World.alive]
    · simp [destroy, World.alive, same]
  have left : (destroy world object answer).1.handle = (close world object answer).2.1.handle := by
    rw [handle]
    funext any
    by_cases same : any = object
    · subst same
      simp [destroy, World.handle]
    · rw [Function.update_of_ne same, ← Function.update_of_ne same kInvalidSocket world.handle,
        ← handle]
      simp [destroy, World.handle, same]
  refine ⟨⟨?_, ?_, closed.proper⟩, gone⟩
  · rw [left]
    exact closed.mirrors
  · intro any later
    rw [gone]
    by_cases same : any = object
    · rw [same, Function.update_self]
    · rw [Function.update_of_ne same]
      exact kept.unborn any (next ▸ later)

/-- Adopting a descriptor makes one object more: the one with the next number. -/
@[simp] theorem adopt_alive (world : World) (s : Int) :
    (adopt world s).1.alive = Function.update world.alive world.nextObject true :=
  create_alive (world.opened s) s

/-- Moving into a new object makes one object more as well. The moved one stays alive,
though it is left empty. -/
@[simp] theorem move_construct_alive (world : World) (other : Object) :
    (moveConstruct world other).1.alive = Function.update world.alive world.nextObject true := by
  rw [moveConstruct, store_alive, create_alive]

/-- The object that takes over a descriptor is the next one. -/
theorem adopt_object (world : World) (s : Int) : (adopt world s).2.1 = world.nextObject := rfl

/-- Assigning makes no object and destroys none, whichever way the closing of the old
descriptor ends. -/
@[simp] theorem move_assign_alive (world : World) (object other : Object)
    (answer : Option Errno) : (moveAssign world object other answer).1.alive = world.alive := by
  unfold moveAssign
  split
  · rfl
  · rw [store_alive, store_alive, close_alive]

/-- Releasing a descriptor keeps the object, which is empty from then on. The caller
has the descriptor. -/
@[simp] theorem release_alive (world : World) (object : Object) :
    (release world object).2.1.alive = world.alive := by
  cases found : world.table (world.handle object) with
  | none =>
    simp only [release, found]
    exact store_alive world object kInvalidSocket
  | some opening =>
    simp only [release, found]
    exact store_alive world object kInvalidSocket

/-- Resetting keeps the object as well, whichever way the closing of the old
descriptor ends. -/
@[simp] theorem reset_alive (world : World) (object : Object) (s : Option Nat)
    (answer : Option Errno) : (reset world object s answer).1.alive = world.alive := by
  cases s with
  | none => exact close_alive world object answer
  | some number =>
    rw [reset, store_alive, close_alive]
    rfl

end Objects

end TcpServer.Descriptors
