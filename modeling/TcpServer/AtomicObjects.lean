import TcpServer.Transition

/-!
# Atomic objects

An atomic object does one operation after the other. An operation comes with its
answer, and the object allows it in its state or not. A system implements the object
when its steps can be marked with the operations that take effect in them, so that
the marks of every run are a run of the object.

The marks stand in the history beside the events; they change no run, and every run
has them. What one participant sees is a run of an atomic object of another kind, a
protocol, which allows its marks in the order call, effect, return. Together the two
are linearizability: the effects are one sequential run, and each falls into its call.
-/

namespace AtomicObjects

open Transition

universe u v w x y

/-- What an operation does in one indivisible step; `none` means that it is not
possible with this answer. Operations carry their answers, so a run of them is a legal
history of the object. -/
structure AtomicObject (Object : Type u) (Operation : Type v) where
  apply : Object → Operation → Option Object

section Objects

variable {Object : Type u} {Operation : Type v} (object : AtomicObject Object Operation)

/-- Do the operations one after the other. The run fails as a whole where one of them
is not possible. -/
def AtomicObject.run : Object → List Operation → Option Object
  | state, [] => some state
  | state, operation :: later =>
      match object.apply state operation with
      | none => none
      | some next => AtomicObject.run next later

/-- Operations after operations. -/
theorem run_append {state middle : Object} {before : List Operation}
    (first : object.run state before = some middle) (later : List Operation) :
    object.run state (before ++ later) = object.run middle later := by
  induction before generalizing state with
  | nil => rw [List.nil_append, Option.some.inj first]
  | cons operation rest inductionHypothesis =>
    rw [AtomicObject.run] at first
    rw [List.cons_append, AtomicObject.run]
    cases applied : object.apply state operation with
    | none => simp [applied] at first
    | some next =>
      simp only [applied] at first ⊢
      exact inductionHypothesis first

/-- A run of more operations goes through the state behind the first ones. -/
theorem run_split {state final : Object} {before later : List Operation}
    (ran : object.run state (before ++ later) = some final) :
    ∃ middle, object.run state before = some middle ∧ object.run middle later = some final := by
  induction before generalizing state with
  | nil => exact ⟨state, rfl, ran⟩
  | cons operation rest inductionHypothesis =>
    rw [List.cons_append, AtomicObject.run] at ran
    cases applied : object.apply state operation with
    | none => simp [applied] at ran
    | some next =>
      simp only [applied] at ran
      obtain ⟨middle, first, second⟩ := inductionHypothesis ran
      exact ⟨middle, by rw [AtomicObject.run, applied]; exact first, second⟩

/-- A single operation. -/
theorem run_single (state : Object) (operation : Operation) :
    object.run state [operation] = object.apply state operation := by
  rw [AtomicObject.run]
  cases object.apply state operation <;> rfl

end Objects

section Marks

variable {State : Type u} {Choice : Type v} {Event : Type w} {Mark : Type x}

/-- The system with marks in front of the events of its steps. It takes the same steps, so
what is said of its runs is said of every run of the system. -/
def marked (system : System State Choice Event) (marks : State → Choice → List Mark) :
    System State Choice (Mark ⊕ Event) where
  step state choice :=
    match system.step state choice with
    | none => none
    | some (next, events) => some (next, (marks state choice).map .inl ++ events.map .inr)

/-- The events of a history with marks, in their order. This is the history of the
system that was marked. -/
def eventsOf (history : List (Mark ⊕ Event)) : List Event := history.filterMap Sum.getRight?

/-- The marks of a history, in their order. For a marked program they are the effects
and events that its steps stand for. -/
def marksOf (history : List (Mark ⊕ Event)) : List Mark := history.filterMap Sum.getLeft?

/-- The events of a history are read off piece by piece, so an induction over a run
may look at its last step alone. -/
theorem events_of_append (history events : List (Mark ⊕ Event)) :
    eventsOf (history ++ events) = eventsOf history ++ eventsOf events :=
  List.filterMap_append

/-- The marks of a history are read off piece by piece as well, and independently of
the events between them. -/
theorem marks_of_append (history events : List (Mark ⊕ Event)) :
    marksOf (history ++ events) = marksOf history ++ marksOf events :=
  List.filterMap_append

/-- The events of a single marked step are those of the plain step. The marks in front
of them add none. -/
theorem events_of_step (marks : List Mark) (events : List Event) :
    eventsOf (marks.map .inl ++ events.map .inr) = events := by
  simp [eventsOf, List.filterMap_map, Function.comp_def]

/-- The marks of a single marked step are those it was marked with. The events behind
them are no marks. -/
theorem marks_of_step (marks : List Mark) (events : List Event) :
    marksOf (marks.map .inl ++ events.map .inr) = marks := by
  simp [marksOf, List.filterMap_map, Function.comp_def]

variable {system : System State Choice Event} {marks : State → Choice → List Mark}
  {allowed : State → Choice → Prop} {start state : State}

/-- A step of the system with marks is a step of the system. -/
theorem marked_step_cases {choice : Choice} {next : State} {longer : List (Mark ⊕ Event)}
    (stepped : (marked system marks).step state choice = some (next, longer)) :
    ∃ events, system.step state choice = some (next, events) ∧
      longer = (marks state choice).map .inl ++ events.map .inr := by
  cases ran : system.step state choice with
  | none => simp [marked, ran] at stepped
  | some result =>
    obtain ⟨after, events⟩ := result
    simp only [marked, ran, Option.some.injEq, Prod.mk.injEq] at stepped
    obtain ⟨rfl, rfl⟩ := stepped
    exact ⟨events, rfl, rfl⟩

/-- Without its marks a run is a run of the system. -/
theorem marked_erased {longer : List (Mark ⊕ Event)}
    (run : Run (marked system marks) allowed start state longer) :
    Run system allowed start state (eventsOf longer) := by
  induction run with
  | start => exact Run.start
  | step before permitted stepped inductionHypothesis =>
    obtain ⟨events, ran, rfl⟩ := marked_step_cases stepped
    rw [events_of_append, events_of_step]
    exact Run.step inductionHypothesis permitted ran

/-- The marks of every run are a run of the object when those of each step are: some
of the marks are operations, and each state of the system stands for one of the object. -/
theorem marks_refine {Object : Type y} {Operation : Type x}
    (object : AtomicObject Object Operation) (abstract : State → Object)
    (effects : Mark → Option Operation)
    (simulates : ∀ state history choice next events, Run system allowed start state history →
      allowed state choice → system.step state choice = some (next, events) →
      object.run (abstract state) ((marks state choice).filterMap effects) = some (abstract next))
    {longer : List (Mark ⊕ Event)}
    (run : Run (marked system marks) allowed start state longer) :
    object.run (abstract start) ((marksOf longer).filterMap effects) = some (abstract state) := by
  induction run with
  | start => rfl
  | step before permitted stepped inductionHypothesis =>
    obtain ⟨events, ran, rfl⟩ := marked_step_cases stepped
    rw [marks_of_append, marks_of_step, List.filterMap_append,
      run_append object inductionHypothesis]
    exact simulates _ _ _ _ _ (marked_erased before) permitted ran

/-- The marks of every run tell what its events tell when those of each step do. -/
theorem marks_tell {Seen : Type x} (told : Mark → Option Seen) (seen : Event → Option Seen)
    (tells : ∀ state history choice next events, Run system allowed start state history →
      allowed state choice → system.step state choice = some (next, events) →
      (marks state choice).filterMap told = events.filterMap seen)
    {longer : List (Mark ⊕ Event)}
    (run : Run (marked system marks) allowed start state longer) :
    (marksOf longer).filterMap told = (eventsOf longer).filterMap seen := by
  induction run with
  | start => rfl
  | step before permitted stepped inductionHypothesis =>
    obtain ⟨events, ran, rfl⟩ := marked_step_cases stepped
    rw [marks_of_append, events_of_append, marks_of_step, events_of_step, List.filterMap_append,
      List.filterMap_append, inductionHypothesis,
      tells _ _ _ _ _ (marked_erased before) permitted ran]

end Marks

section Owners

variable {Mark : Type u} {T : Type v} [DecidableEq T] {owner : Mark → Option T} {name : T}
  {marks : List Mark}

/-- The mark, if it is of this owner. Filtering a list with it gives what one owner
has done. -/
def ownedBy (owner : Mark → Option T) (name : T) (mark : Mark) : Option Mark :=
  if owner mark = some name then some mark else none

/-- Marks of one owner are all its own. -/
theorem owned_all (own : ∀ mark ∈ marks, owner mark = some name) :
    marks.filterMap (ownedBy owner name) = marks := by
  induction marks with
  | nil => rfl
  | cons mark rest inductionHypothesis =>
    have first := own mark (List.mem_cons_self ..)
    rw [List.filterMap_cons_some (by rw [ownedBy, if_pos first]),
      inductionHypothesis fun other member => own other (List.mem_cons_of_mem _ member)]

/-- Marks of others are not. -/
theorem owned_none (others : ∀ mark ∈ marks, owner mark ≠ some name) :
    marks.filterMap (ownedBy owner name) = [] := by
  refine List.filterMap_eq_nil_iff.mpr fun mark member => ?_
  rw [ownedBy, if_neg (others mark member)]

/-- What is of an owner belongs to it. -/
theorem owned_owner {mark : Mark} (member : mark ∈ marks.filterMap (ownedBy owner name)) :
    owner mark = some name := by
  obtain ⟨other, _, own⟩ := List.mem_filterMap.mp member
  simp only [ownedBy, Option.ite_none_right_eq_some, Option.some.injEq] at own
  exact own.2 ▸ own.1

variable {Account : Type w} [DecidableEq Account]

/-- What an account has of a list it has of the marks of its owner. -/
theorem count_owned (entry : Mark → Option Account) (accountOwner : Account → T)
    (owned : ∀ mark account, entry mark = some account → owner mark = some (accountOwner account))
    (account : Account) (marks : List Mark) :
    ((marks.filterMap (ownedBy owner (accountOwner account))).filterMap entry).count account =
      (marks.filterMap entry).count account := by
  induction marks with
  | nil => rfl
  | cons mark rest inductionHypothesis =>
    by_cases own : owner mark = some (accountOwner account)
    · rw [List.filterMap_cons_some (by rw [ownedBy, if_pos own])]
      cases entered : entry mark with
      | none => rw [List.filterMap_cons_none entered, List.filterMap_cons_none entered,
          inductionHypothesis]
      | some other => rw [List.filterMap_cons_some entered, List.filterMap_cons_some entered,
          List.count_cons, List.count_cons, inductionHypothesis]
    · rw [List.filterMap_cons_none (by rw [ownedBy, if_neg own])]
      cases entered : entry mark with
      | none => rw [List.filterMap_cons_none entered, inductionHypothesis]
      | some other =>
        have different : other ≠ account := by
          rintro rfl
          exact own (owned mark other entered)
        rw [List.filterMap_cons_some entered, List.count_cons_of_ne different,
          inductionHypothesis]

variable (owner) in
/-- Accounts that agree for each owner agree. -/
theorem owned_perm (first second : Mark → Option Account) (accountOwner : Account → T)
    (firstOwned : ∀ mark account, first mark = some account →
      owner mark = some (accountOwner account))
    (secondOwned : ∀ mark account, second mark = some account →
      owner mark = some (accountOwner account))
    (each : ∀ name, ((marks.filterMap (ownedBy owner name)).filterMap first).Perm
      ((marks.filterMap (ownedBy owner name)).filterMap second)) :
    (marks.filterMap first).Perm (marks.filterMap second) := by
  refine List.perm_iff_count.mpr fun account => ?_
  rw [← count_owned first accountOwner firstOwned, ← count_owned second accountOwner secondOwned]
  exact List.perm_iff_count.mp (each (accountOwner account)) account

end Owners

end AtomicObjects
