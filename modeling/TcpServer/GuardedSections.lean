import TcpServer.AtomicObjects
import TcpServer.Monitors

/-!
# Objects behind one mutex

An object that is used inside of one mutex only, and a flag beside it that is read and
written without the mutex. A routine stores the flag, reads it, or tests it and, when the
test passes, takes the mutex and does its pieces one after the other.

A guarded routine takes effect twice: where it tests and where it enters. The pieces need
no care, since nobody else is inside. The two effects do not make one: the flag may change
between them, and routines that test in one order may enter in the other.
-/

namespace GuardedSections

open AtomicObjects Monitors Threads Transition

universe u

/-- What a routine does: it stores the flag, loads it, or tests it and then works
inside of the mutex. There, `answer` is read from the object as it was left by the
pieces. -/
inductive Routine (Flag Piece Object Answer : Type u) where
  | store (flag : Flag) (answer : Answer)
  | load (answer : Flag → Answer)
  | guarded (passes : Flag → Bool) (skipped : Answer) (pieces : List Piece)
      (answer : Object → Answer)

/-- The routines of a guarded object, by request, and what a single piece of work does
to the object. -/
structure Interface (Request Flag Piece Object Answer : Type u) where
  routine : Request → Routine Flag Piece Object Answer
  act : Piece → Object → Object

/-- What the threads share: the flag, which is read and written without the mutex, and
the object, which is used inside of it only. -/
structure Shared (ι Flag Object : Type u) where
  flag : Flag
  object : Object
  mutex : Monitor ι := {}

/-- Where a thread is in its routine. Between the test of the flag and the end of its
pieces it carries what is left to be done. -/
inductive Pc (Request Piece Object Answer : Type u) where
  | idle
  | called (request : Request)
  | entering (request : Request) (pieces : List Piece) (answer : Object → Answer)
  | inside (request : Request) (rest : List Piece) (answer : Object → Answer)

/-- What is seen from outside: calls and returns. Effects on the object are marks and
no events. -/
inductive Event (ι Request Answer : Type u) where
  | called (thread : ι) (request : Request)
  | returned (thread : ι) (request : Request) (answer : Answer)
deriving DecidableEq

variable {ι Request Flag Piece Object Answer : Type u} [DecidableEq ι]

/-- The pieces one after the other, as a thread inside of the mutex does them without
an interruption. -/
def Interface.perform (interface : Interface Request Flag Piece Object Answer)
    (pieces : List Piece) (object : Object) : Object :=
  pieces.foldl (fun object piece => interface.act piece object) object

/-- A step of one thread; an idle thread makes the chosen call. One step loads or
stores the flag, takes or returns the mutex, or does one piece. -/
def guardedStep (interface : Interface Request Flag Piece Object Answer) (thread : ι)
    (shared : Shared ι Flag Object) (choice : Option Request) :
    Pc Request Piece Object Answer →
      Option (Shared ι Flag Object × Pc Request Piece Object Answer ×
        List (Event ι Request Answer))
  | .idle =>
      match choice with
      | none => none
      | some request => some (shared, .called request, [.called thread request])
  | .called request =>
      match interface.routine request with
      | .store flag answer =>
          some ({ shared with flag }, .idle, [.returned thread request answer])
      | .load answer =>
          some (shared, .idle, [.returned thread request (answer shared.flag)])
      | .guarded passes skipped pieces answer =>
          if passes shared.flag then some (shared, .entering request pieces answer, [])
          else some (shared, .idle, [.returned thread request skipped])
  | .entering request pieces answer =>
      match shared.mutex.lock thread with
      | none => none
      | some mutex => some ({ shared with mutex }, .inside request pieces answer, [])
  | .inside request (piece :: rest) answer =>
      some ({ shared with object := interface.act piece shared.object },
        .inside request rest answer, [])
  | .inside request [] answer =>
      some ({ shared with mutex := shared.mutex.unlock }, .idle,
        [.returned thread request (answer shared.object)])

/-- The program of all threads, of which any may take the next step. Nothing but the
mutex keeps them apart. -/
def guardedProgram (interface : Interface Request Flag Piece Object Answer) (ι : Type u)
    [DecidableEq ι] :
    Program ι (fun _ => Pc Request Piece Object Answer) (Shared ι Flag Object) (Option Request)
      (Event ι Request Answer) where
  step thread shared own choice := guardedStep interface thread shared choice own

/-- The configurations of the program: the shared part, and where each thread is. -/
abbrev GuardedConfig (ι Request Flag Piece Object Answer : Type u) :=
  Config (fun _ : ι => Pc Request Piece Object Answer) (Shared ι Flag Object)

/-- All threads are idle, and nobody has the mutex. Every run starts from here. -/
def idle (ι Request Piece Answer : Type u) (flag : Flag) (object : Object) :
    GuardedConfig ι Request Flag Piece Object Answer where
  shared := { flag, object }
  locals _ := .idle

/-- The flag and the object, as the effects change them. The mutex and the places of
the threads are no part of it. -/
structure State (Flag Object : Type u) where
  flag : Flag
  object : Object

/-- An effect of a routine with its answer. A routine that passes its test has two
effects: the test, and its work as a whole. -/
inductive Effect (ι Request Answer : Type u) where
  | stored (thread : ι) (request : Request)
  | loaded (thread : ι) (request : Request) (answer : Answer)
  | tested (thread : ι) (request : Request) (passed : Bool)
  | performed (thread : ι) (request : Request) (answer : Answer)
deriving DecidableEq

/-- A mark of a step: an event, or an effect on the flag or the object. A step has at
most two. -/
inductive Mark (ι Request Answer : Type u) where
  | event (event : Event ι Request Answer)
  | effect (effect : Effect ι Request Answer)
deriving DecidableEq

/-- The effect of a mark, if it is one. The effects alone are what happens to the
guarded object. -/
def Mark.operation : Mark ι Request Answer → Option (Effect ι Request Answer)
  | .effect taken => some taken
  | .event _ => none

/-- The event of a mark, if it is one. The events alone are what the callers notice.
-/
def Mark.told : Mark ι Request Answer → Option (Event ι Request Answer)
  | .event seen => some seen
  | .effect _ => none

/-- The thread whose mark it is. Every mark has one. -/
def Mark.owner : Mark ι Request Answer → Option ι
  | .event (.called thread _) | .event (.returned thread _ _) | .effect (.stored thread _)
  | .effect (.loaded thread _ _) | .effect (.tested thread _ _)
  | .effect (.performed thread _ _) => some thread

section Objects

variable [DecidableEq Answer]

/-- The effects on the flag and the object. A routine that works does all its pieces
in one effect, and its answer is the one that is read behind them. -/
def sections (interface : Interface Request Flag Piece Object Answer) (ι : Type u) :
    AtomicObject (State Flag Object) (Effect ι Request Answer) where
  apply state
    | .stored _ request =>
        match interface.routine request with
        | .store flag _ => some { state with flag }
        | _ => none
    | .loaded _ request answer =>
        match interface.routine request with
        | .load read => if answer = read state.flag then some state else none
        | _ => none
    | .tested _ request passed =>
        match interface.routine request with
        | .guarded passes _ _ _ => if passed = passes state.flag then some state else none
        | _ => none
    | .performed _ request answer =>
        match interface.routine request with
        | .guarded _ _ pieces read =>
            let object := interface.perform pieces state.object
            if answer = read object then some { state with object } else none
        | _ => none

/-- The pieces of a guarded routine. The other routines have none. -/
def Interface.body (interface : Interface Request Flag Piece Object Answer) (request : Request) :
    List Piece :=
  match interface.routine request with
  | .guarded _ _ pieces _ => pieces
  | _ => []

/-- The request, if its pieces are done in this effect. The other effects leave the
object alone. -/
def Effect.request : Effect ι Request Answer → Option Request
  | .performed _ request _ => some request
  | _ => none

omit [DecidableEq ι] in
/-- An effect does the pieces of the routine that enters in it. -/
theorem section_object {interface : Interface Request Flag Piece Object Answer}
    {state next : State Flag Object} {effect : Effect ι Request Answer}
    (applied : (sections interface ι).apply state effect = some next) :
    next.object = effect.request.toList.foldl
      (fun object request => interface.perform (interface.body request) object) state.object := by
  cases effect with
  | stored _ request | loaded _ request _ | tested _ request _ =>
    simp only [sections] at applied
    split at applied
    · first
      | cases applied; rfl
      | split at applied <;> cases applied
        rfl
    · cases applied
  | performed _ request answer =>
    simp only [sections] at applied
    split at applied
    · rename_i pieces read routine
      split at applied <;> cases applied
      simp only [Effect.request, Option.toList_some, List.foldl_cons, List.foldl_nil,
        Interface.body, routine]
    · cases applied

omit [DecidableEq ι] in
/-- The effects do the pieces of the routines that enter, in their order. -/
theorem sections_object {interface : Interface Request Flag Piece Object Answer}
    {state final : State Flag Object} {effects : List (Effect ι Request Answer)}
    (ran : (sections interface ι).run state effects = some final) :
    final.object = (effects.filterMap Effect.request).foldl
      (fun object request => interface.perform (interface.body request) object) state.object := by
  induction effects generalizing state with
  | nil =>
    obtain rfl := Option.some.inj ran
    rfl
  | cons first later inductionHypothesis =>
    rw [AtomicObject.run] at ran
    cases applied : (sections interface ι).apply state first with
    | none => simp [applied] at ran
    | some next =>
      simp only [applied] at ran
      rw [inductionHypothesis ran, section_object applied]
      cases entered : first.request with
      | none => simp [entered]
      | some request => simp [entered]

omit [DecidableEq ι] in
/-- A routine that enters answers from the object that the routines before it have left. -/
theorem performed_answer {interface : Interface Request Flag Piece Object Answer}
    {state final : State Flag Object} {before after : List (Effect ι Request Answer)} {thread : ι}
    {request : Request} {answer : Answer}
    (ran : (sections interface ι).run state
      (before ++ .performed thread request answer :: after) = some final) :
    ∃ passes skipped pieces read,
      interface.routine request = .guarded passes skipped pieces read ∧
      answer = read (interface.perform pieces ((before.filterMap Effect.request).foldl
        (fun object request => interface.perform (interface.body request) object)
          state.object)) := by
  obtain ⟨middle, first, second⟩ := run_split (sections interface ι) ran
  rw [← sections_object first]
  rw [AtomicObject.run] at second
  cases routine : interface.routine request with
  | store _ _ | load _ => simp [sections, routine] at second
  | guarded passes skipped pieces read =>
    refine ⟨passes, skipped, pieces, read, rfl, ?_⟩
    by_contra wrong
    simp [sections, routine, wrong] at second

variable [DecidableEq Request]

/-- Where a thread is in its call, as its marks tell: ready, called, past its test, or
settled with an answer that it has still to return. -/
inductive Session (Request Answer : Type u) where
  | ready
  | called (request : Request)
  | passed (request : Request)
  | settled (request : Request) (answer : Answer)

/-- The marks of one thread: a call, its effect or its two effects, and its return
with the answer of the last effect. Nothing else is a session. -/
def session (interface : Interface Request Flag Piece Object Answer) (ι : Type u) :
    AtomicObject (Session Request Answer) (Mark ι Request Answer) where
  apply
    | .ready, .event (.called _ request) => some (.called request)
    | .called request, .effect (.stored _ other) =>
        match interface.routine request with
        | .store _ answer => if other = request then some (.settled request answer) else none
        | _ => none
    | .called request, .effect (.loaded _ other answer) =>
        match interface.routine request with
        | .load _ => if other = request then some (.settled request answer) else none
        | _ => none
    | .called request, .effect (.tested _ other passed) =>
        match interface.routine request with
        | .guarded _ skipped _ _ =>
            if other = request then some (if passed then .passed request
              else .settled request skipped) else none
        | _ => none
    | .passed request, .effect (.performed _ other answer) =>
        if other = request then some (.settled request answer) else none
    | .settled request answer, .event (.returned _ other returned) =>
        if other = request ∧ returned = answer then some .ready else none
    | _, _ => none

end Objects

/-- The marks of a step of one thread, as its place and the shared part decide them.
The step that enters the mutex carries the whole effect. -/
def marksAt (interface : Interface Request Flag Piece Object Answer) (thread : ι)
    (shared : Shared ι Flag Object) (choice : Option Request) :
    Pc Request Piece Object Answer → List (Mark ι Request Answer)
  | .idle =>
      match choice with
      | none => []
      | some request => [.event (.called thread request)]
  | .called request =>
      match interface.routine request with
      | .store _ answer =>
          [.effect (.stored thread request), .event (.returned thread request answer)]
      | .load answer =>
          [.effect (.loaded thread request (answer shared.flag)),
            .event (.returned thread request (answer shared.flag))]
      | .guarded passes skipped _ _ =>
          if passes shared.flag then [.effect (.tested thread request true)]
          else [.effect (.tested thread request false), .event (.returned thread request skipped)]
  | .entering request pieces answer =>
      [.effect (.performed thread request (answer (interface.perform pieces shared.object)))]
  | .inside _ (_ :: _) _ => []
  | .inside request [] answer => [.event (.returned thread request (answer shared.object))]

/-- The marks of a step, in the order in which they take place. They are a function of
the configuration and the choice. -/
def guardedMarks (interface : Interface Request Flag Piece Object Answer)
    (config : GuardedConfig ι Request Flag Piece Object Answer) (choice : ι × Option Request) :
    List (Mark ι Request Answer) :=
  marksAt interface choice.1 config.shared choice.2 (config.locals choice.1)

/-- The pieces that a thread inside of the mutex still has to do. A thread outside has
none. -/
def Pc.rest : Pc Request Piece Object Answer → List Piece
  | .inside _ rest _ => rest
  | _ => []

/-- The thread is inside of the mutex. For a reached configuration this says that it
is the holder. -/
def Pc.isInside : Pc Request Piece Object Answer → Bool
  | .inside _ _ _ => true
  | _ => false

/-- The thread is in no call, so its session is ready. -/
def Pc.isIdle : Pc Request Piece Object Answer → Bool
  | .idle => true
  | _ => false

/-- What the holder of the mutex still has to do. Without a holder the object is as it
should be. -/
def unfinished (config : GuardedConfig ι Request Flag Piece Object Answer) : List Piece :=
  match config.shared.mutex.holder with
  | none => []
  | some thread => (config.locals thread).rest

/-- The object as the holder of the mutex leaves it. This is what the configuration
stands for: the work of a section is done as soon as it is entered. -/
def standsFor (interface : Interface Request Flag Piece Object Answer)
    (config : GuardedConfig ι Request Flag Piece Object Answer) : State Flag Object where
  flag := config.shared.flag
  object := interface.perform (unfinished config) config.shared.object

/-- Where a thread is in its call, as its place tells. The answer of a thread inside
is known already, since nobody else can change the object. -/
def sessionOf (interface : Interface Request Flag Piece Object Answer)
    (shared : Shared ι Flag Object) : Pc Request Piece Object Answer → Session Request Answer
  | .idle => .ready
  | .called request => .called request
  | .entering request _ _ => .passed request
  | .inside request rest answer => .settled request (answer (interface.perform rest shared.object))

/-- The branches of `guardedStep` with their marks, one rule for each. Invariants are
proved rule by rule. -/
inductive Move (interface : Interface Request Flag Piece Object Answer) (thread : ι)
    (shared : Shared ι Flag Object) :
    Pc Request Piece Object Answer → Shared ι Flag Object → Pc Request Piece Object Answer →
      List (Event ι Request Answer) → List (Mark ι Request Answer) → Prop
  | call {request : Request} :
      Move interface thread shared .idle shared (.called request) [.called thread request]
        [.event (.called thread request)]
  | store {request : Request} {flag : Flag} {answer : Answer}
      (routine : interface.routine request = .store flag answer) :
      Move interface thread shared (.called request) { shared with flag } .idle
        [.returned thread request answer]
        [.effect (.stored thread request), .event (.returned thread request answer)]
  | load {request : Request} {answer : Flag → Answer}
      (routine : interface.routine request = .load answer) :
      Move interface thread shared (.called request) shared .idle
        [.returned thread request (answer shared.flag)]
        [.effect (.loaded thread request (answer shared.flag)),
          .event (.returned thread request (answer shared.flag))]
  | pass {request : Request} {passes : Flag → Bool} {skipped : Answer} {pieces : List Piece}
      {answer : Object → Answer}
      (routine : interface.routine request = .guarded passes skipped pieces answer)
      (passed : passes shared.flag = true) :
      Move interface thread shared (.called request) shared (.entering request pieces answer) []
        [.effect (.tested thread request true)]
  | skip {request : Request} {passes : Flag → Bool} {skipped : Answer} {pieces : List Piece}
      {answer : Object → Answer}
      (routine : interface.routine request = .guarded passes skipped pieces answer)
      (failed : passes shared.flag = false) :
      Move interface thread shared (.called request) shared .idle
        [.returned thread request skipped]
        [.effect (.tested thread request false), .event (.returned thread request skipped)]
  | enter {request : Request} {pieces : List Piece} {answer : Object → Answer} {mutex : Monitor ι}
      (locked : shared.mutex.lock thread = some mutex) :
      Move interface thread shared (.entering request pieces answer) { shared with mutex }
        (.inside request pieces answer) []
        [.effect (.performed thread request (answer (interface.perform pieces shared.object)))]
  | act {request : Request} {piece : Piece} {rest : List Piece} {answer : Object → Answer} :
      Move interface thread shared (.inside request (piece :: rest) answer)
        { shared with object := interface.act piece shared.object } (.inside request rest answer)
        [] []
  | leave {request : Request} {answer : Object → Answer} :
      Move interface thread shared (.inside request [] answer)
        { shared with mutex := shared.mutex.unlock } .idle
        [.returned thread request (answer shared.object)]
        [.event (.returned thread request (answer shared.object))]

section Moves

variable {interface : Interface Request Flag Piece Object Answer} {thread : ι}
  {shared after : Shared ι Flag Object} {choice : Option Request}
  {before own : Pc Request Piece Object Answer} {events : List (Event ι Request Answer)}
  {marks : List (Mark ι Request Answer)}

omit [DecidableEq ι] in
/-- Every step is one of the moves, with the marks that it is given. No other lemma
unfolds `guardedStep`. -/
theorem guarded_step_move
    (stepped : guardedStep interface thread shared choice before = some (after, own, events)) :
    Move interface thread shared before after own events
      (marksAt interface thread shared choice before) := by
  cases before with
  | idle =>
    cases choice with
    | none => cases stepped
    | some request =>
      cases stepped
      exact .call
  | called request =>
    cases routine : interface.routine request with
    | store flag answer =>
      simp only [guardedStep, routine, Option.some.injEq, Prod.mk.injEq] at stepped
      obtain ⟨rfl, rfl, rfl⟩ := stepped
      simp only [marksAt, routine]
      exact .store routine
    | load answer =>
      simp only [guardedStep, routine, Option.some.injEq, Prod.mk.injEq] at stepped
      obtain ⟨rfl, rfl, rfl⟩ := stepped
      simp only [marksAt, routine]
      exact .load routine
    | guarded passes skipped pieces answer =>
      simp only [guardedStep, routine] at stepped
      simp only [marksAt, routine]
      cases passed : passes shared.flag with
      | true =>
        simp only [passed, ↓reduceIte, Option.some.injEq, Prod.mk.injEq] at stepped
        obtain ⟨rfl, rfl, rfl⟩ := stepped
        exact .pass routine passed
      | false =>
        simp only [passed, Bool.false_eq_true, ↓reduceIte, Option.some.injEq,
          Prod.mk.injEq] at stepped
        obtain ⟨rfl, rfl, rfl⟩ := stepped
        exact .skip routine passed
  | entering request pieces answer =>
    cases locked : shared.mutex.lock thread with
    | none => simp [guardedStep, locked] at stepped
    | some mutex =>
      simp only [guardedStep, locked, Option.some.injEq, Prod.mk.injEq] at stepped
      obtain ⟨rfl, rfl, rfl⟩ := stepped
      exact .enter locked
  | inside request rest answer =>
    cases rest with
    | nil =>
      cases stepped
      exact .leave
    | cons piece rest =>
      cases stepped
      exact .act

omit [DecidableEq ι] in
/-- A move keeps the discipline of the mutex. -/
theorem move_disciplined (move : Move interface thread shared before after own events marks) :
    Disciplined shared.mutex.holder after.mutex.holder thread before.isInside own.isInside := by
  cases move with
  | enter locked =>
    obtain ⟨free, taken, _⟩ := Monitor.lock_cases locked
    exact Or.inr (Or.inl ⟨free, taken, rfl, rfl⟩)
  | leave => exact Or.inr (Or.inr ⟨rfl, rfl, rfl⟩)
  | _ => exact Or.inl ⟨rfl, rfl⟩

omit [DecidableEq ι] in
/-- The object changes inside of the mutex only. -/
theorem move_object (move : Move interface thread shared before after own events marks)
    (outside : before.isInside = false) : after.object = shared.object := by
  cases move <;> first | rfl | cases outside

/-- A thread that is about to enter has its pieces and its answer from its routine, and
one that has entered has the last of them left. -/
def Pc.Routed (interface : Interface Request Flag Piece Object Answer) :
    Pc Request Piece Object Answer → Prop
  | .entering request pieces answer =>
      ∃ passes skipped, interface.routine request = .guarded passes skipped pieces answer
  | .inside request rest answer =>
      ∃ passes skipped finished,
        interface.routine request = .guarded passes skipped (finished ++ rest) answer
  | _ => True

omit [DecidableEq ι] in
/-- A move leaves its thread with the pieces of its routine. -/
theorem move_routed (routed : before.Routed interface)
    (move : Move interface thread shared before after own events marks) :
    own.Routed interface := by
  cases move with
  | pass routine => exact ⟨_, _, routine⟩
  | enter locked =>
    obtain ⟨passes, skipped, routine⟩ := routed
    exact ⟨passes, skipped, [], routine⟩
  | @act request piece rest answer =>
    obtain ⟨passes, skipped, finished, routine⟩ := routed
    refine ⟨passes, skipped, finished ++ [piece], ?_⟩
    rw [List.append_assoc]
    exact routine
  | _ => trivial

omit [DecidableEq ι] in
/-- The check is right. -/
theorem idle_sound (idle : own.isIdle = true) : own = .idle := by
  cases own with
  | idle => rfl
  | _ => cases idle

omit [DecidableEq ι] in
/-- Only a thread inside of the mutex has pieces left. -/
theorem rest_inside (own : Pc Request Piece Object Answer) :
    (if own.isInside then own.rest else []) = own.rest := by
  cases own <;> rfl

omit [DecidableEq ι] in
/-- The same as an elimination, as the lemmas on locks have it. -/
theorem unfinished_elim (config : GuardedConfig ι Request Flag Piece Object Answer) :
    unfinished config = config.shared.mutex.holder.elim [] fun thread =>
      (config.locals thread).rest := by
  unfold unfinished
  cases config.shared.mutex.holder <;> rfl

omit [DecidableEq ι] in
/-- The marks of a move tell its events. -/
theorem move_told (move : Move interface thread shared before after own events marks) :
    marks.filterMap Mark.told = events := by
  cases move <;> rfl

omit [DecidableEq ι] in
/-- The marks of a move are its thread's. -/
theorem move_owner (move : Move interface thread shared before after own events marks) :
    ∀ mark ∈ marks, mark.owner = some thread := by
  cases move <;> simp [Mark.owner]

omit [DecidableEq ι] in
/-- A session depends on the object inside of the mutex only. -/
theorem session_same (same : own.isInside = true → after.object = shared.object) :
    sessionOf interface after own = sessionOf interface shared own := by
  cases own with
  | inside => simp only [sessionOf, same rfl]
  | _ => rfl

section Effects

variable [DecidableEq Answer]

omit [DecidableEq ι] in
/-- A move is the effect that it is marked with, or none, on the flag and on the object
as the thread inside of the mutex leaves it. -/
theorem move_simulates {state : State Flag Object} (flagSame : state.flag = shared.flag)
    (objectSame : (before.isInside || own.isInside) = true →
      state.object = interface.perform before.rest shared.object)
    (routed : before.Routed interface)
    (move : Move interface thread shared before after own events marks) :
    (sections interface ι).run state (marks.filterMap Mark.operation) =
      some ⟨after.flag, if before.isInside || own.isInside then
        interface.perform own.rest after.object else state.object⟩ := by
  obtain ⟨flag, object⟩ := state
  obtain rfl : flag = shared.flag := flagSame
  cases move with
  | call => rfl
  | store routine =>
    refine (run_single _ _ _).trans ?_
    simp [sections, routine, Pc.isInside]
  | load routine =>
    refine (run_single _ _ _).trans ?_
    simp [sections, routine, Pc.isInside]
  | pass routine passed =>
    refine (run_single _ _ _).trans ?_
    simp [sections, routine, passed, Pc.isInside]
  | skip routine failed =>
    refine (run_single _ _ _).trans ?_
    simp [sections, routine, failed, Pc.isInside]
  | enter locked =>
    obtain ⟨passes, skipped, routine⟩ := routed
    have entered : object = shared.object := objectSame rfl
    refine (run_single _ _ _).trans ?_
    simp [sections, routine, entered, Pc.isInside, Pc.rest]
  | act | leave =>
    exact congrArg (fun object => some (State.mk shared.flag object)) (objectSame rfl)

variable [DecidableEq Request]

omit [DecidableEq ι] in
/-- A move is what the session of its thread allows. -/
theorem move_session (move : Move interface thread shared before after own events marks) :
    (session interface ι).run (sessionOf interface shared before) marks =
      some (sessionOf interface after own) := by
  cases move with
  | store routine => simp [sessionOf, AtomicObject.run, session, routine]
  | load routine => simp [sessionOf, AtomicObject.run, session, routine]
  | pass routine passed => simp [sessionOf, run_single, session, routine]
  | skip routine failed => simp [sessionOf, AtomicObject.run, session, routine]
  | enter locked => simp [sessionOf, run_single, session]
  | leave => simp [sessionOf, run_single, session, Interface.perform]
  | _ => rfl

end Effects

end Moves

section Runs

variable {interface : Interface Request Flag Piece Object Answer} {flag : Flag} {object : Object}
  {config next : GuardedConfig ι Request Flag Piece Object Answer} {thread : ι}
  {choice : Option Request} {history events : List (Event ι Request Answer)}

/-- The runs from idle threads, with any interleaving and any calls. -/
abbrev Reached (interface : Interface Request Flag Piece Object Answer) (flag : Flag)
    (object : Object) (config : GuardedConfig ι Request Flag Piece Object Answer)
    (history : List (Event ι Request Answer)) : Prop :=
  Reaches (guardedProgram interface ι).system (idle ι Request Piece Answer flag object) config
    history

/-- A step of the system is a move of one thread, and all others stay. -/
theorem guarded_moves
    (stepped : (guardedProgram interface ι).system.step config (thread, choice) =
      some (next, events)) :
    Move interface thread config.shared (config.locals thread) next.shared (next.locals thread)
        events (guardedMarks interface config (thread, choice)) ∧
      ∀ other, other ≠ thread → next.locals other = config.locals other := by
  obtain ⟨taken, kept⟩ := system_step_cases stepped
  exact ⟨guarded_step_move taken, kept⟩

/-- The threads inside are exactly the holder of the mutex. -/
theorem inside_exclusive (reached : Reached interface flag object config history) (thread : ι) :
    (config.locals thread).isInside = true ↔ config.shared.mutex.holder = some thread := by
  refine mutual_exclusion (fun shared => shared.mutex.holder) (fun _ own => own.isInside)
    ?_ ?_ reached thread
  · intro thread
    simp [idle, Pc.isInside]
  · intro thread shared own choice after next events stepped
    exact move_disciplined (guarded_step_move stepped)

/-- In every reached state each thread has the pieces of its routine. -/
theorem run_routed (reached : Reached interface flag object config history) (thread : ι) :
    (config.locals thread).Routed interface := by
  refine run_invariant (fun config _ => ∀ thread, (config.locals thread).Routed interface)
    ?_ ?_ reached thread
  · intro thread
    trivial
  · rintro config history ⟨stepping, choice⟩ next events _ routed _ stepped thread
    obtain ⟨move, kept⟩ := guarded_moves stepped
    by_cases same : thread = stepping
    · subst thread
      exact move_routed (routed _) move
    · exact kept thread same ▸ routed thread

/-- Idle threads leave the mutex free. -/
theorem rest_unlocked (reached : Reached interface flag object config history)
    (atRest : ∀ thread, config.locals thread = .idle) : config.shared.mutex.holder = none := by
  cases holder : config.shared.mutex.holder with
  | none => rfl
  | some thread =>
    have inside := (inside_exclusive reached thread).mpr holder
    rw [atRest thread] at inside
    cases inside

/-- What is left to do inside of the mutex is what the thread in it has left, before and
behind each of its steps; no other step changes it. -/
theorem step_unfinished (reached : Reached interface flag object config history)
    (stepped : (guardedProgram interface ι).system.step config (thread, choice) =
      some (next, events)) :
    if (config.locals thread).isInside || (next.locals thread).isInside then
      unfinished config = (config.locals thread).rest ∧
        unfinished next = (next.locals thread).rest
    else unfinished next = unfinished config := by
  obtain ⟨move, kept⟩ := guarded_moves stepped
  have held := held_step [] (fun other => (config.locals other).rest)
    (fun other => (next.locals other).rest) (inside_exclusive reached thread)
    (move_disciplined move) fun _ _ other different => by rw [kept other different]
  rw [← unfinished_elim, ← unfinished_elim, rest_inside, rest_inside] at held
  exact held

variable [DecidableEq Answer]

/-- Every step is the effect that it is marked with, or none. -/
theorem step_simulates (reached : Reached interface flag object config history)
    (stepped : (guardedProgram interface ι).system.step config (thread, choice) =
      some (next, events)) :
    (sections interface ι).run (standsFor interface config)
        ((guardedMarks interface config (thread, choice)).filterMap Mark.operation) =
      some (standsFor interface next) := by
  have left := step_unfinished reached stepped
  have move := (guarded_moves stepped).1
  rw [move_simulates rfl ?_ (run_routed reached thread) move]
  · cases inside : (config.locals thread).isInside || (next.locals thread).isInside with
    | true =>
      simp only [inside, ↓reduceIte] at left
      simp only [standsFor, left.2, ↓reduceIte]
    | false =>
      simp only [inside, Bool.false_eq_true, ↓reduceIte] at left
      obtain ⟨before, own⟩ := Bool.or_eq_false_iff.mp inside
      simp only [standsFor, left, move_object move before, Bool.false_eq_true, ↓reduceIte]
  · intro inside
    simp only [inside, ↓reduceIte] at left
    simp only [standsFor, left.1]

variable [DecidableEq Request]

/-- Every step is what the session of each thread allows. -/
theorem step_session (reached : Reached interface flag object config history)
    (stepped : (guardedProgram interface ι).system.step config (thread, choice) =
      some (next, events)) (caller : ι) :
    (session interface ι).run (sessionOf interface config.shared (config.locals caller))
        ((guardedMarks interface config (thread, choice)).filterMap (ownedBy Mark.owner caller)) =
      some (sessionOf interface next.shared (next.locals caller)) := by
  obtain ⟨move, kept⟩ := guarded_moves stepped
  by_cases same : caller = thread
  · subst caller
    have own : (guardedMarks interface config (thread, choice)).filterMap
        (ownedBy Mark.owner thread) = guardedMarks interface config (thread, choice) :=
      owned_all (move_owner move)
    rw [own]
    exact move_session move
  · have nothing : (guardedMarks interface config (thread, choice)).filterMap
        (ownedBy Mark.owner caller) = [] := owned_none fun mark member belongs =>
      same (Option.some.inj (belongs.symm.trans (move_owner move mark member)))
    rw [nothing, kept caller same]
    refine congrArg some (session_same fun inside => ?_).symm
    exact move_object move (exclusive_outside (inside_exclusive reached) caller inside
      (Ne.symm same))

/-- The runs with marks: the same steps, with the marks of each in front of its
events. -/
abbrev markedGuarded (interface : Interface Request Flag Piece Object Answer) (ι : Type u)
    [DecidableEq ι] :=
  marked (guardedProgram interface ι).system (guardedMarks interface)

/-- In every run the effects come one after the other on the flag and on the object as the
thread inside of the mutex leaves it; each call of each thread has its effect, or its
two effects, between its call and its return; and the marks tell all events. -/
theorem guarded_runs {longer : List (Mark ι Request Answer ⊕ Event ι Request Answer)}
    (reached : Reaches (markedGuarded interface ι) (idle ι Request Piece Answer flag object)
      config longer) :
    Reached interface flag object config (eventsOf longer) ∧
    (sections interface ι).run ⟨flag, object⟩ ((marksOf longer).filterMap Mark.operation) =
      some (standsFor interface config) ∧
    (∀ thread, (session interface ι).run .ready
        ((marksOf longer).filterMap (ownedBy Mark.owner thread)) =
      some (sessionOf interface config.shared (config.locals thread))) ∧
    (marksOf longer).filterMap Mark.told = eventsOf longer ∧
    (config.shared.mutex.holder = none → unfinished config = []) := by
  refine ⟨marked_erased reached, ?_, ?_, ?_, ?_⟩
  · refine marks_refine (sections interface ι) (standsFor interface) Mark.operation ?_ reached
    rintro config history ⟨thread, choice⟩ next events before _ stepped
    exact step_simulates before stepped
  · intro thread
    refine marks_refine (session interface ι)
      (fun config => sessionOf interface config.shared (config.locals thread))
      (ownedBy Mark.owner thread) ?_ reached
    rintro config history ⟨stepping, choice⟩ next events before _ stepped
    exact step_session before stepped thread
  · refine (marks_tell Mark.told some ?_ reached).trans (List.filterMap_some ..)
    rintro config history ⟨thread, choice⟩ next events _ _ stepped
    rw [List.filterMap_some]
    exact move_told (guarded_moves stepped).1
  · intro free
    simp only [unfinished, free]

end Runs

end GuardedSections
