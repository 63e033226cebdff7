import TcpServer.SelectWait

/-!
# The range of the descriptor sets

`FD_SET` and `FD_ISSET` are defined for descriptors below `FD_SETSIZE`.
`SelectPoller::wait` applies them to whatever is registered, and `upsert`
refuses only the invalid socket. The system below lets all operations that
change a poller be called in any order, with any descriptors of the kernel.

As long as every descriptor that is registered fits into an `fd_set`, no call of
`wait` leaves the range, whatever `::select` answers. One that does not fit
suffices for a call of `wait` that does; and wherever a registered socket asks for
anything, an honest answer of `::select` does it.
-/

namespace TcpServer.FdSetRange

open Acceptor EventLoop SelectWait Transition

/-- The calls that can change a poller, with what the kernel answers, and waiting with
whatever order of the map, span and answer of `::select`. -/
inductive Operation where
  | upsert (socket : Int) (interest : EventMask)
  | erase (socket : Int)
  | registerListener (listener : Socket)
  | unregisterListener (listener : Socket)
  | acceptAndRegister (listener : Socket) (answer : AcceptAnswer) (flags : FcntlAnswers)
  | wait (order : List Entry) (outEvents : List PollEvent) (timeoutMs : Int)
      (select : SelectCall → SelectAnswer)

/-- The poller, and the fault that has ended the run, if one has. -/
structure State where
  poller : SelectPoller := {}
  fault : Option WaitFault := none

/-- One call on the poller. A faulted `wait` ends the run, since nothing is known of
the program behind it. -/
def pollerStep (state : State) (operation : Operation) : Option (State × List Unit) :=
  match state.fault with
  | some _ => none
  | none =>
      match operation with
      | .upsert socket interest =>
          some ({ state with poller := (state.poller.upsert socket interest).2 }, [])
      | .erase socket => some ({ state with poller := (state.poller.erase socket).2 }, [])
      | .registerListener listener =>
          some ({ state with poller := (registerListener listener state.poller).2 }, [])
      | .unregisterListener listener =>
          some ({ state with poller := (unregisterListener listener state.poller).2 }, [])
      | .acceptAndRegister listener answer flags =>
          some ({ state with
            poller :=
              (acceptAndRegister SelectPoller.upsert listener state.poller answer flags).2 }, [])
      | .wait order outEvents timeoutMs select =>
          if perm : order.Perm state.poller.interest.entries then
            match wait state.poller ⟨order, perm⟩ outEvents timeoutMs select with
            | .error fault => some ({ state with fault := some fault }, [])
            | .ok waited => some ({ state with poller := waited.poller }, [])
          else none

/-- All sequences of such calls, with any descriptors, masks and answers. -/
def polling : System State Operation Unit where
  step := pollerStep

/-- The descriptor that an operation registers: one that is handed to `upsert`
and is not the invalid socket. -/
def registered : Operation → Option Int
  | .upsert socket _ => if socket = kInvalidSocket then none else some socket
  | .registerListener listener =>
      if listener.nativeHandle = kInvalidSocket then none else some listener.nativeHandle
  | .acceptAndRegister listener (.accepted descriptor) flags =>
      if listener.valid && flags.getFlags.isNone && flags.setFlags.isNone then some descriptor
      else none
  | _ => none

/-- The operation registers no descriptor, or one that fits into an `fd_set`. Erasing
and waiting register none. -/
def RegistersInRange (operation : Operation) : Prop :=
  ∀ fd, registered operation = some fd → InRange fd

/-- Every registered descriptor fits into an `fd_set`, whatever its mask asks for. -/
def Fits (poller : SelectPoller) : Prop := ∀ fd ∈ poller.interest, InRange fd

/-- Registering a descriptor that fits. -/
theorem insert_fits {poller : SelectPoller} (fits : Fits poller) {socket : Int} {mask : EventMask}
    (inRange : InRange socket) : Fits { interest := poller.interest.insert socket mask } := by
  intro fd registered
  rcases AList.mem_insert poller.interest |>.mp registered with rfl | earlier
  · exact inRange
  · exact fits fd earlier

/-- What `upsert` leaves behind. -/
theorem upsert_poller (poller : SelectPoller) (socket : Int) (interest : EventMask) :
    (poller.upsert socket interest).2 =
      if socket = kInvalidSocket then poller
      else { interest := poller.interest.insert socket interest } := by
  unfold SelectPoller.upsert
  split
  · rfl
  · rfl

/-- `upsert` registers the descriptor that `registered` names, or nothing. -/
theorem upsert_cases (operation : Operation) {socket : Int}
    (named : registered operation = if socket = kInvalidSocket then none else some socket)
    (poller : SelectPoller) (interest : EventMask) :
    (∃ fd mask, registered operation = some fd ∧
      (poller.upsert socket interest).2 = { interest := poller.interest.insert fd mask }) ∨
    registered operation = none ∧ (poller.upsert socket interest).2 = poller := by
  rw [upsert_poller]
  by_cases invalid : socket = kInvalidSocket
  · rw [if_pos invalid] at named
    exact Or.inr ⟨named, if_pos invalid⟩
  · rw [if_neg invalid] at named
    exact Or.inl ⟨socket, interest, named, if_neg invalid⟩

/-- What `accept_and_register` leaves behind: it registers the descriptor that
`registered` names, or nothing. -/
theorem accept_poller (listener : Socket) (poller : SelectPoller) (answer : AcceptAnswer)
    (flags : FcntlAnswers) :
    (acceptAndRegister SelectPoller.upsert listener poller answer flags).2 =
      match registered (.acceptAndRegister listener answer flags) with
      | none => poller
      | some fd => { interest := poller.interest.insert fd .read } := by
  cases valid : listener.valid with
  | false => cases answer <;> simp [acceptAndRegister, acceptOne, registered, valid]
  | true =>
    cases answer with
    | failed errno => simp [acceptAndRegister, acceptOne, registered, valid]
    | accepted descriptor =>
      have accepted : (Socket.mk descriptor).valid = true := by simp [Socket.valid, kInvalidSocket]
      have handle : (descriptor : Int) ≠ kInvalidSocket := by simp [kInvalidSocket]
      obtain ⟨getFlags, setFlags⟩ := flags
      cases getFlags with
      | some errno =>
        simp [acceptAndRegister, acceptOne, registerAccepted, setNonblocking, registered, valid,
          accepted]
      | none =>
        cases setFlags with
        | some errno =>
          simp [acceptAndRegister, acceptOne, registerAccepted, setNonblocking, registered, valid,
            accepted]
        | none =>
          simp [acceptAndRegister, acceptOne, registerAccepted, setNonblocking, registered, valid,
            accepted, Connection.nativeHandle, Socket.nativeHandle, SelectPoller.upsert, handle]

/-- All that one call can do: register a descriptor, at most forget some, or
fault in a `wait`. -/
theorem poller_step_cases {state next : State} {operation : Operation} {events : List Unit}
    (stepped : pollerStep state operation = some (next, events)) :
    state.fault = none ∧
    ((∃ fd mask, registered operation = some fd ∧ next.fault = none ∧
        next.poller = { interest := state.poller.interest.insert fd mask }) ∨
      (registered operation = none ∧ next.fault = none ∧
        ∀ fd ∈ next.poller.interest, fd ∈ state.poller.interest) ∨
      (registered operation = none ∧ ∃ (traversal : Traversal state.poller)
        (outEvents : List PollEvent) (timeoutMs : Int) (select : SelectCall → SelectAnswer)
        (fault : WaitFault),
        wait state.poller traversal outEvents timeoutMs select = .error fault)) := by
  unfold pollerStep at stepped
  cases running : state.fault with
  | some fault => simp [running] at stepped
  | none =>
    refine ⟨rfl, ?_⟩
    simp only [running] at stepped
    cases operation with
    | upsert socket interest =>
      cases stepped
      have outcomes := upsert_cases (.upsert socket interest) rfl state.poller interest
      obtain ⟨fd, mask, named, inserted⟩ | ⟨unnamed, same⟩ := outcomes
      · exact Or.inl ⟨fd, mask, named, rfl, inserted⟩
      · exact Or.inr (Or.inl ⟨unnamed, rfl, fun fd kept => same ▸ kept⟩)
    | erase socket =>
      cases stepped
      refine Or.inr (Or.inl ⟨rfl, rfl, ?_⟩)
      exact fun fd kept => (AList.mem_erase.mp kept).2
    | registerListener listener =>
      cases stepped
      have outcomes := upsert_cases (.registerListener listener) rfl state.poller .read
      obtain ⟨fd, mask, named, inserted⟩ | ⟨unnamed, same⟩ := outcomes
      · exact Or.inl ⟨fd, mask, named, rfl, inserted⟩
      · exact Or.inr (Or.inl ⟨unnamed, rfl, fun fd kept => same ▸ kept⟩)
    | unregisterListener listener =>
      cases stepped
      refine Or.inr (Or.inl ⟨rfl, rfl, ?_⟩)
      exact fun fd kept => (AList.mem_erase.mp kept).2
    | acceptAndRegister listener answer flags =>
      cases stepped
      cases named : registered (.acceptAndRegister listener answer flags) with
      | none =>
        refine Or.inr (Or.inl ⟨rfl, rfl, ?_⟩)
        simp [accept_poller, named]
      | some fd =>
        refine Or.inl ⟨fd, .read, rfl, rfl, ?_⟩
        simp [accept_poller, named]
    | wait order outEvents timeoutMs select =>
      simp only at stepped
      split at stepped
      · rename_i perm
        cases waiting : wait state.poller ⟨order, perm⟩ outEvents timeoutMs select with
        | error fault => exact Or.inr (Or.inr ⟨rfl, _, _, _, _, _, waiting⟩)
        | ok waited =>
          simp only [waiting] at stepped
          cases stepped
          refine Or.inr (Or.inl ⟨rfl, rfl, ?_⟩)
          rw [wait_poller waiting]
          exact fun fd kept => kept
      · cases stepped

/-- `FD_ISSET` is applied three times to the same descriptor. -/
theorem fired_mask_defined_iff (sock : Int) (sets : FdSets) :
    (∃ fired, firedMask sock sets = .ok fired) ↔ InRange sock := by
  by_cases inRange : InRange sock
  · have added (set : FdSet) (bit fired : EventMask) :
        addIfSet sock set bit fired = .ok (if sock ∈ set then fired ||| bit else fired) := by
      by_cases ready : sock ∈ set
      · simp [addIfSet, fdIsset, inRange, ready, bind, Except.bind, pure, Except.pure]
      · simp [addIfSet, fdIsset, inRange, ready, bind, Except.bind, pure, Except.pure]
    constructor
    · exact fun _ => inRange
    · intro _
      simp only [firedMask, added, bind, Except.bind]
      exact ⟨_, rfl⟩
  · simp [firedMask, addIfSet, fdIsset, inRange, bind, Except.bind]

/-- The second loop does not fault over entries in range. -/
theorem write_events_defined (sets : FdSets) (entries : List Entry)
    (inRange : ∀ entry ∈ entries, InRange entry.fst) (written : Nat)
    (outEvents : List PollEvent) :
    ∃ outcome, writeEvents sets entries written outEvents = .ok outcome := by
  induction entries generalizing written outEvents with
  | nil => exact ⟨_, rfl⟩
  | cons entry rest inductionHypothesis =>
    have later (other) (member : other ∈ rest) : InRange other.fst :=
      inRange other (List.mem_cons_of_mem entry member)
    obtain ⟨fired, defined⟩ :=
      (fired_mask_defined_iff entry.fst sets).mpr (inRange entry List.mem_cons_self)
    by_cases full : written ≥ outEvents.length
    · exact ⟨_, by simp only [writeEvents, full, ↓reduceIte]; rfl⟩
    · simp only [writeEvents, full, defined, bind, Except.bind, ↓reduceIte]
      split
      · exact inductionHypothesis later (written + 1) _
      · exact inductionHypothesis later written outEvents

/-- The second loop tests every entry when the span cannot become full, so all of
them were in range when it ends. -/
theorem write_events_tests (sets : FdSets) (entries : List Entry) (written : Nat)
    (outEvents : List PollEvent) (room : written + entries.length ≤ outEvents.length)
    (outcome : Nat × List PollEvent)
    (ended : writeEvents sets entries written outEvents = .ok outcome) :
    ∀ entry ∈ entries, InRange entry.fst := by
  induction entries generalizing written outEvents with
  | nil => exact fun _ impossible => nomatch impossible
  | cons entry rest inductionHypothesis =>
    simp only [List.length_cons] at room
    have space : ¬ written ≥ outEvents.length := by omega
    cases tested : firedMask entry.fst sets with
    | error fault => simp [writeEvents, space, tested, bind, Except.bind] at ended
    | ok fired =>
      have first : InRange entry.fst := (fired_mask_defined_iff entry.fst sets).mp ⟨fired, tested⟩
      have others : ∀ other ∈ rest, InRange other.fst := by
        simp only [writeEvents, space, tested, bind, Except.bind, ↓reduceIte] at ended
        split at ended
        · exact inductionHypothesis (written + 1) _ (by rw [List.length_set]; omega) ended
        · exact inductionHypothesis written outEvents (by omega) ended
      intro other member
      rcases List.mem_cons.mp member with rfl | later
      · exact first
      · exact others other later

section Waiting

variable {poller : SelectPoller}

/-- A call of `wait` over registered descriptors in range does not fault,
whatever `::select` answers. -/
theorem wait_defined (fits : Fits poller) (traversal : Traversal poller)
    (outEvents : List PollEvent) (timeoutMs : Int) (select : SelectCall → SelectAnswer) :
    ∃ waited, wait poller traversal outEvents timeoutMs select = .ok waited := by
  by_cases empty : outEvents = []
  · exact ⟨_, by simp only [wait, empty, ↓reduceIte]; rfl⟩
  · obtain ⟨call, called, _⟩ := traversal_requests traversal fits timeoutMs
    have entryRange (entry) (listed : entry ∈ traversal.entries) : InRange entry.fst := by
      apply fits
      rw [← AList.lookup_isSome, (traversal_mem traversal entry.fst entry.snd).mp listed]
      rfl
    cases answered : select call with
    | failed errno =>
      exact ⟨_, by simp only [wait, empty, called, answered, bind, Except.bind, ↓reduceIte]; rfl⟩
    | returned count sets =>
      cases count with
      | zero =>
        exact ⟨_, by simp only [wait, empty, called, answered, bind, Except.bind, ↓reduceIte]; rfl⟩
      | succ others =>
        obtain ⟨outcome, filled⟩ := write_events_defined sets traversal.entries entryRange 0 outEvents
        refine ⟨⟨.ok outcome.fst, outcome.snd, poller⟩, ?_⟩
        simp only [wait, empty, called, answered, filled, bind, Except.bind, pure, Except.pure,
          ↓reduceIte]

/-- How many bits a call of `::select` asks for. A kernel that reports all of them
answers with this number. -/
def asked (call : SelectCall) : Nat :=
  call.sets.readfds.card + call.sets.writefds.card + call.sets.exceptfds.card

/-- Everything that was asked for is ready. Where nothing was asked for, no honest answer
makes `wait` look at its sockets; the count of this one does. -/
def everythingReady (call : SelectCall) : SelectAnswer := .returned (max 1 (asked call)) call.sets

/-- The answer is honest where anything was asked for. -/
theorem everything_ready_honest {call : SelectCall} (asks : asked call ≠ 0) {count : Nat}
    {sets : FdSets} (answered : everythingReady call = .returned count sets) :
    Honest call count sets := by
  cases answered
  have positive : 1 ≤ asked call := Nat.one_le_iff_ne_zero.mpr asks
  exact ⟨Finset.Subset.refl _, Finset.Subset.refl _, Finset.Subset.refl _, max_eq_right positive⟩

/-- Where this call of `wait` does not fault, every registered descriptor is in range: its
span has room for all sockets and its answer reports something, so the second loop
tests each of them. -/
theorem fits_of_defined {waited : Waited}
    (returned : wait poller ⟨poller.interest.entries, .refl _⟩
      (List.replicate (poller.interest.entries.length + 1) ⟨0, .none⟩) 0 everythingReady =
        .ok waited) : Fits poller := by
  intro fd registered
  obtain ⟨mask, known⟩ := Option.isSome_iff_exists.mp (AList.lookup_isSome.mpr registered)
  have listed : (⟨fd, mask⟩ : Entry) ∈ poller.interest.entries := AList.mem_lookup_iff.mp known
  cases called : selectCall poller.interest.entries 0 with
  | error fault => simp [wait, called, bind, Except.bind] at returned
  | ok call =>
    obtain ⟨others, positive⟩ : ∃ others, max 1 (asked call) = others + 1 :=
      Nat.exists_eq_add_of_le' (Nat.le_max_left 1 (asked call))
    cases filled : writeEvents call.sets poller.interest.entries 0
        (List.replicate (poller.interest.entries.length + 1) ⟨0, .none⟩) with
    | error fault =>
      simp [wait, called, everythingReady, positive, filled, bind, Except.bind] at returned
    | ok outcome =>
      have room : 0 + poller.interest.entries.length ≤
          (List.replicate (poller.interest.entries.length + 1) (⟨0, .none⟩ : PollEvent)).length := by
        simp
      exact write_events_tests call.sets poller.interest.entries 0 _ room outcome filled _ listed

end Waiting

/-- Along a run that registers only descriptors in range, they all stay in range
and nothing faults. -/
theorem run_fits {state : State} {history : List Unit}
    (run : Run polling (fun _ operation => RegistersInRange operation) {} state history) :
    state.fault = none ∧ Fits state.poller := by
  apply run_invariant (fun state _ => state.fault = none ∧ Fits state.poller) _ _ run
  · exact ⟨rfl, fun fd registered => absurd registered (AList.notMem_empty fd)⟩
  · intro state history operation next events _ ⟨_, fits⟩ permitted stepped
    obtain ⟨_, cases⟩ := poller_step_cases stepped
    rcases cases with ⟨fd, mask, named, running, same⟩ | ⟨_, running, forgets⟩ |
      ⟨_, traversal, outEvents, timeoutMs, select, fault, faulted⟩
    · refine ⟨running, ?_⟩
      rw [same]
      exact insert_fits fits (permitted fd named)
    · exact ⟨running, fun fd kept => fits fd (forgets fd kept)⟩
    · obtain ⟨waited, returned⟩ := wait_defined fits traversal outEvents timeoutMs select
      rw [returned] at faulted
      cases faulted

/-- The descriptor sets are used within their range in every run whose
registrations fit into an `fd_set`: no reached state has faulted, and no call of
`wait` in it faults. The condition cannot be weakened for any registration: after
the first one that does not fit, some call of `wait` faults, with an honest answer
of `::select` if the sockets ask for anything at all. -/
theorem fd_sets_in_range_exact (state : State) (history : List Unit)
    (run : Run polling (fun _ operation => RegistersInRange operation) {} state history) :
    (state.fault = none ∧
      ∀ (traversal : Traversal state.poller) (outEvents : List PollEvent) (timeoutMs : Int)
        (select : SelectCall → SelectAnswer),
        ∃ waited, wait state.poller traversal outEvents timeoutMs select = .ok waited) ∧
    (∀ operation next events, pollerStep state operation = some (next, events) →
      ¬ RegistersInRange operation →
        ∃ (traversal : Traversal next.poller) (outEvents : List PollEvent) (timeoutMs : Int)
          (select : SelectCall → SelectAnswer) (fault : WaitFault),
          wait next.poller traversal outEvents timeoutMs select = .error fault ∧
          ∀ call, selectCall traversal.entries timeoutMs = .ok call → asked call ≠ 0 →
            ∀ count sets, select call = .returned count sets → Honest call count sets) := by
  constructor
  · obtain ⟨running, fits⟩ := run_fits run
    exact ⟨running, wait_defined fits⟩
  · intro operation next events stepped outside
    refine ⟨⟨next.poller.interest.entries, .refl _⟩,
      List.replicate (next.poller.interest.entries.length + 1) ⟨0, .none⟩, 0, everythingReady, ?_⟩
    cases waiting : wait next.poller ⟨next.poller.interest.entries, .refl _⟩
        (List.replicate (next.poller.interest.entries.length + 1) ⟨0, .none⟩) 0
        everythingReady with
    | error fault =>
      exact ⟨fault, rfl, fun call _ asks count sets => everything_ready_honest asks⟩
    | ok waited =>
      have fits : Fits next.poller := fits_of_defined waiting
      refine absurd (fun fd named => ?_) outside
      obtain ⟨_, cases⟩ := poller_step_cases stepped
      rcases cases with ⟨other, mask, same, _, inserted⟩ | ⟨unnamed, _⟩ | ⟨unnamed, _⟩
      · rw [named] at same
        cases same
        apply fits
        rw [inserted]
        exact AList.mem_insert _ |>.mpr (Or.inl rfl)
      · rw [named] at unnamed
        cases unnamed
      · rw [named] at unnamed
        cases unnamed

/-- The largest descriptor that fits is accepted and registered, and the next wait stays
within the range. -/
theorem fd_sets_in_range_accepted :
    ∃ state : State, state.poller.interest.lookup 1023 = some .read ∧ state.fault = none ∧
      ∀ (traversal : Traversal state.poller) (outEvents : List PollEvent) (timeoutMs : Int)
        (select : SelectCall → SelectAnswer),
        ∃ waited, wait state.poller traversal outEvents timeoutMs select = .ok waited := by
  have permitted : RegistersInRange (.acceptAndRegister ⟨3⟩ (.accepted 1023) {}) := by
    intro fd named
    cases named
    decide
  have accepted : polling.step {} (.acceptAndRegister ⟨3⟩ (.accepted 1023) {}) =
      some ({ poller := (SelectPoller.upsert {} 1023 .read).2 }, []) := rfl
  exact ⟨{ poller := (SelectPoller.upsert {} 1023 .read).2 }, rfl,
    (fd_sets_in_range_exact _ _ (Run.step Run.start permitted accepted)).1⟩

/-- The kernel returns the descriptor 1024: it is registered, and the next call
of `wait` sets a bit behind the end of its `fd_set`. -/
theorem fd_sets_not_always_in_range :
    ¬ ∀ state history, Reaches polling {} state history →
      ∀ (traversal : Traversal state.poller) (outEvents : List PollEvent) (timeoutMs : Int)
        (select : SelectCall → SelectAnswer),
        ∃ waited, wait state.poller traversal outEvents timeoutMs select = .ok waited := by
  intro always
  have accepted : polling.step {} (.acceptAndRegister ⟨3⟩ (.accepted 1024) {}) =
      some ({ poller := (SelectPoller.upsert {} 1024 .read).2 }, []) := rfl
  obtain ⟨waited, returned⟩ := always _ _ (reaches_step Run.start accepted)
    ⟨[⟨1024, .read⟩], .refl _⟩ [⟨-1, .none⟩] 0 (fun _ => .returned 0 {})
  cases returned

end TcpServer.FdSetRange
