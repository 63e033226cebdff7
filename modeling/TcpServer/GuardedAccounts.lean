import TcpServer.GuardedSections

/-!
# Accounts of guarded calls

A call of a guarded routine is pending, has failed its test, or has entered. So once all
threads are idle, and where no test fails, the routines that have entered are those that
were called, each as often: no call is lost and none is done twice.
-/

namespace GuardedSections

open AtomicObjects Threads Transition

universe u

variable {ι Request Flag Piece Object Answer : Type u} [DecidableEq ι]

section Accounts

variable (interface : Interface Request Flag Piece Object Answer)

/-- Whether the routine of a request takes the mutex, when its test passes. The others
only touch the flag. -/
def Interface.isGuarded (request : Request) : Bool :=
  match interface.routine request with
  | .guarded _ _ _ _ => true
  | _ => false

/-- The calls of guarded routines. Each opens an account that is settled when the
routine enters or is turned away. -/
def Mark.guardedCall : Mark ι Request Answer → Option (ι × Request)
  | .event (.called thread request) =>
      if interface.isGuarded request then some (thread, request) else none
  | .event (.returned _ _ _) | .effect _ => none

/-- The calls that have been settled: those that have entered, and those that have not
passed their test. -/
def Mark.resolved : Mark ι Request Answer → Option (ι × Request)
  | .effect (.performed thread request _) | .effect (.tested thread request false) =>
      some (thread, request)
  | .effect (.tested _ _ true) | .effect (.stored _ _) | .effect (.loaded _ _ _) | .event _ => none

/-- The guarded routine that a session is in, until it enters. A session has at most
one. -/
def Session.pending (thread : ι) : Session Request Answer → List (ι × Request)
  | .called request => if interface.isGuarded request then [(thread, request)] else []
  | .passed request => [(thread, request)]
  | .ready | .settled _ _ => []

variable {interface} [DecidableEq Answer] [DecidableEq Request] {thread : ι}

omit [DecidableEq ι] in
/-- What a session has called is resolved or pending, mark by mark. The cases are the
states of the session and the marks that each allows; all others are refused by it. -/
theorem session_mark_account {state next : Session Request Answer}
    {mark : Mark ι Request Answer} (own : mark.owner = some thread)
    (applied : (session interface ι).apply state mark = some next) :
    state.pending interface thread ++ (mark.guardedCall interface).toList =
      mark.resolved.toList ++ next.pending interface thread := by
  cases state with
  | ready =>
    cases mark with
    | effect taken => cases applied
    | event seen =>
      cases seen with
      | returned _ _ _ => cases applied
      | called caller request =>
        obtain rfl : caller = thread := Option.some.inj own
        obtain rfl := Option.some.inj applied
        cases guarded : interface.isGuarded request <;>
          simp [Session.pending, Mark.guardedCall, Mark.resolved, guarded]
  | called request =>
    cases mark with
    | event seen => cases seen <;> cases applied
    | effect taken =>
      cases taken with
      | performed _ _ _ => cases applied
      | stored caller other =>
        cases routine : interface.routine request with
        | load _ | guarded _ _ _ _ => simp [session, routine] at applied
        | store flag answer =>
          simp only [session, routine, Option.ite_none_right_eq_some, Option.some.injEq] at applied
          obtain ⟨rfl, rfl⟩ := applied
          simp [Session.pending, Mark.guardedCall, Mark.resolved, Interface.isGuarded, routine]
      | loaded caller other answer =>
        cases routine : interface.routine request with
        | store _ _ | guarded _ _ _ _ => simp [session, routine] at applied
        | load read =>
          simp only [session, routine, Option.ite_none_right_eq_some, Option.some.injEq] at applied
          obtain ⟨rfl, rfl⟩ := applied
          simp [Session.pending, Mark.guardedCall, Mark.resolved, Interface.isGuarded, routine]
      | tested caller other passed =>
        obtain rfl : caller = thread := Option.some.inj own
        cases routine : interface.routine request with
        | store _ _ | load _ => simp [session, routine] at applied
        | guarded passes skipped pieces answer =>
          simp only [session, routine, Option.ite_none_right_eq_some, Option.some.injEq] at applied
          obtain ⟨rfl, rfl⟩ := applied
          cases passed <;>
            simp [Session.pending, Mark.guardedCall, Mark.resolved, Interface.isGuarded, routine]
  | passed request =>
    cases mark with
    | event seen => cases seen <;> cases applied
    | effect taken =>
      cases taken with
      | stored _ _ | loaded _ _ _ | tested _ _ _ => cases applied
      | performed caller other answer =>
        obtain rfl : caller = thread := Option.some.inj own
        simp only [session, Option.ite_none_right_eq_some, Option.some.injEq] at applied
        obtain ⟨rfl, rfl⟩ := applied
        simp [Session.pending, Mark.guardedCall, Mark.resolved]
  | settled request answer =>
    cases mark with
    | effect taken => cases applied
    | event seen =>
      cases seen with
      | called _ _ => cases applied
      | returned caller other returned =>
        simp only [session, Option.ite_none_right_eq_some, Option.some.injEq] at applied
        obtain ⟨_, rfl⟩ := applied
        simp [Session.pending, Mark.guardedCall, Mark.resolved]

omit [DecidableEq ι] in
/-- The same for all marks of a session. -/
theorem session_account {state final : Session Request Answer}
    {marks : List (Mark ι Request Answer)} (own : ∀ mark ∈ marks, mark.owner = some thread)
    (ran : (session interface ι).run state marks = some final) :
    state.pending interface thread ++ marks.filterMap (Mark.guardedCall interface) =
      marks.filterMap Mark.resolved ++ final.pending interface thread := by
  induction marks generalizing state with
  | nil =>
    obtain rfl := Option.some.inj ran
    simp
  | cons mark rest inductionHypothesis =>
    rw [AtomicObject.run] at ran
    cases applied : (session interface ι).apply state mark with
    | none => simp [applied] at ran
    | some next =>
      simp only [applied] at ran
      have first := session_mark_account (own mark (List.mem_cons_self ..)) applied
      have later := inductionHypothesis
        (fun other member => own other (List.mem_cons_of_mem _ member)) ran
      have calls : (mark :: rest).filterMap (Mark.guardedCall interface) =
          (mark.guardedCall interface).toList ++ rest.filterMap (Mark.guardedCall interface) := by
        cases called : mark.guardedCall interface <;> simp [called]
      have resolutions : (mark :: rest).filterMap Mark.resolved =
          mark.resolved.toList ++ rest.filterMap Mark.resolved := by
        cases entered : mark.resolved <;> simp [entered]
      rw [calls, resolutions, ← List.append_assoc, first, List.append_assoc, later,
        List.append_assoc]

omit [DecidableEq ι] [DecidableEq Answer] [DecidableEq Request] in
/-- A call belongs to the thread that makes it: the account that its mark opens is one
of that thread. -/
theorem guarded_call_owner (mark : Mark ι Request Answer) (account : ι × Request)
    (called : mark.guardedCall interface = some account) : mark.owner = some account.1 := by
  cases mark with
  | effect _ => cases called
  | event seen =>
    cases seen with
    | returned _ _ _ => cases called
    | called thread request =>
      simp only [Mark.guardedCall, Option.ite_none_right_eq_some, Option.some.injEq] at called
      obtain ⟨_, rfl⟩ := called
      rfl

omit [DecidableEq ι] [DecidableEq Answer] [DecidableEq Request] in
/-- What has become of a call belongs to the same thread: the effect that settles an
account is marked with its owner. -/
theorem resolved_owner (mark : Mark ι Request Answer) (account : ι × Request)
    (resolved : mark.resolved = some account) : mark.owner = some account.1 := by
  cases mark with
  | event _ => cases resolved
  | effect taken =>
    cases taken with
    | stored _ _ | loaded _ _ _ => cases resolved
    | performed thread request _ =>
      cases resolved
      rfl
    | tested thread request passed =>
      cases passed <;> cases resolved
      rfl

variable {flag : Flag} {object : Object}
  {config : GuardedConfig ι Request Flag Piece Object Answer}
  {longer : List (Mark ι Request Answer ⊕ Event ι Request Answer)}

/-- While all threads are idle, all calls of guarded routines are resolved. -/
theorem calls_resolved
    (reached : Reaches (markedGuarded interface ι) (idle ι Request Piece Answer flag object)
      config longer) (atRest : ∀ thread, config.locals thread = .idle) :
    ((marksOf longer).filterMap (Mark.guardedCall interface)).Perm
      ((marksOf longer).filterMap Mark.resolved) := by
  obtain ⟨_, _, sessions, _⟩ := guarded_runs reached
  refine owned_perm Mark.owner _ _ Prod.fst guarded_call_owner resolved_owner fun thread => ?_
  have accounts := session_account (fun mark => owned_owner) (sessions thread)
  rw [atRest thread] at accounts
  simp only [sessionOf, Session.pending, List.nil_append, List.append_nil] at accounts
  rw [accounts]

/-- The requests that have entered, in the order in which they have done their work.
-/
def entered (marks : List (Mark ι Request Answer)) : List Request :=
  (marks.filterMap Mark.operation).filterMap Effect.request

omit [DecidableEq ι] [DecidableEq Answer] [DecidableEq Request] in
/-- What has entered is read off the marks piece by piece. -/
theorem entered_append (marks later : List (Mark ι Request Answer)) :
    entered (marks ++ later) = entered marks ++ entered later := by
  simp [entered]

/-- The guarded routine that an event calls. The caller does not matter to the sum of
the work. -/
def Event.guardedCall (interface : Interface Request Flag Piece Object Answer) :
    Event ι Request Answer → Option Request
  | .called _ request => if interface.isGuarded request then some request else none
  | .returned _ _ _ => none

omit [DecidableEq ι] [DecidableEq Answer] [DecidableEq Request] in
/-- The marks call what their events call. -/
theorem guarded_calls_told (marks : List (Mark ι Request Answer)) :
    (marks.filterMap (Mark.guardedCall interface)).map Prod.snd =
      (marks.filterMap Mark.told).filterMap (Event.guardedCall interface) := by
  rw [List.map_filterMap, List.filterMap_filterMap]
  refine List.filterMap_congr fun mark _ => ?_
  cases mark with
  | effect _ => rfl
  | event seen =>
    cases seen with
    | returned _ _ _ => rfl
    | called thread request =>
      cases guarded : interface.isGuarded request <;>
        simp [Mark.guardedCall, Mark.told, Event.guardedCall, guarded]

omit [DecidableEq ι] [DecidableEq Answer] [DecidableEq Request] in
/-- Where every test passes, what is resolved has entered. -/
theorem resolved_entered (marks : List (Mark ι Request Answer))
    (pass : ∀ thread request, Mark.effect (.tested thread request false) ∉ marks) :
    (marks.filterMap Mark.resolved).map Prod.snd = entered marks := by
  rw [entered, List.map_filterMap, List.filterMap_filterMap]
  refine List.filterMap_congr fun mark member => ?_
  cases mark with
  | event _ => rfl
  | effect taken =>
    cases taken with
    | stored _ _ | loaded _ _ _ | performed _ _ _ => rfl
    | tested thread request passed =>
      cases passed with
      | true => rfl
      | false => exact absurd member (pass thread request)

omit [DecidableEq ι] [DecidableEq Answer] [DecidableEq Request] in
/-- A thread is in the routine that it was chosen to call. -/
theorem called_choice {shared after : Shared ι Flag Object} {choice : Option Request}
    {before : Pc Request Piece Object Answer} {request : Request}
    {events : List (Event ι Request Answer)}
    (stepped : guardedStep interface thread shared choice before =
      some (after, .called request, events)) : choice = some request := by
  have move := guarded_step_move stepped
  generalize marksAt interface thread shared choice before = marks at move
  cases move with
  | call =>
    cases choice with
    | none => cases stepped
    | some other =>
      cases stepped
      rfl

omit [DecidableEq ι] [DecidableEq Answer] [DecidableEq Request] in
/-- A move keeps the flag good and fails no test, when the routine that it is in may be called. -/
theorem move_passes {permitted : Request → Prop} {good : Flag → Prop}
    (stores : ∀ request stored answer, permitted request →
      interface.routine request = .store stored answer → good stored)
    (passing : ∀ request passes skipped pieces answer, permitted request →
      interface.routine request = .guarded passes skipped pieces answer →
        ∀ stored, good stored → passes stored = true)
    {shared after : Shared ι Flag Object} {before own : Pc Request Piece Object Answer}
    {events : List (Event ι Request Answer)} {marks : List (Mark ι Request Answer)}
    (goodFlag : good shared.flag) (called : ∀ request, before = .called request → permitted request)
    (move : Move interface thread shared before after own events marks) :
    good after.flag ∧ ∀ caller request, Mark.effect (.tested caller request false) ∉ marks := by
  cases move with
  | @store request flag answer routine =>
    exact ⟨stores request flag answer (called request rfl) routine, by simp⟩
  | @skip request passes skipped pieces answer routine failed =>
    have passed := passing request passes skipped pieces answer (called request rfl) routine _
      goodFlag
    simp [failed] at passed
  | _ => exact ⟨goodFlag, by simp⟩

/-- The routine that a thread has been let into: its test has passed, and its work is
to be done or is being done. -/
def Pc.admitted : Pc Request Piece Object Answer → Option Request
  | .entering request _ _ | .inside request _ _ => some request
  | .idle | .called _ => none

omit [DecidableEq ι] [DecidableEq Answer] [DecidableEq Request] in
/-- A move keeps the flag bad and lets no blocked routine in. Only a routine that has
passed its test is let in, and the test of a blocked one fails on a bad flag. -/
theorem move_fails {permitted blocked : Request → Prop} {bad : Flag → Prop}
    (stores : ∀ request stored answer, permitted request →
      interface.routine request = .store stored answer → bad stored)
    (failing : ∀ request passes skipped pieces answer, blocked request →
      interface.routine request = .guarded passes skipped pieces answer →
        ∀ stored, bad stored → passes stored = false)
    {shared after : Shared ι Flag Object} {before own : Pc Request Piece Object Answer}
    {events : List (Event ι Request Answer)} {marks : List (Mark ι Request Answer)}
    (badFlag : bad shared.flag) (called : ∀ request, before = .called request → permitted request)
    (admits : ∀ request, before.admitted = some request → ¬ blocked request)
    (move : Move interface thread shared before after own events marks) :
    bad after.flag ∧ (∀ request, own.admitted = some request → ¬ blocked request) ∧
      ∀ request ∈ entered marks, ¬ blocked request := by
  cases move with
  | @store request flag answer routine =>
    exact ⟨stores request flag answer (called request rfl) routine, by simp [Pc.admitted],
      by simp [entered, Mark.operation, Effect.request]⟩
  | @pass request passes skipped pieces answer routine passed =>
    refine ⟨badFlag, ?_, by simp [entered, Mark.operation, Effect.request]⟩
    rintro other ⟨⟩ refused
    have failed := failing request passes skipped pieces answer refused routine _ badFlag
    simp [failed] at passed
  | @enter request pieces answer =>
    refine ⟨badFlag, admits, ?_⟩
    intro other member
    obtain rfl : other = request := by
      simpa [entered, Mark.operation, Effect.request] using member
    exact admits other rfl
  | act => exact ⟨badFlag, admits, by simp [entered]⟩
  | _ =>
    exact ⟨badFlag, by simp [Pc.admitted], by simp [entered, Mark.operation, Effect.request]⟩

/-- Only these requests are called. It is a condition on the calls, and on nothing
that the threads do inside. -/
def Permits (permitted : Request → Prop)
    (_ : GuardedConfig ι Request Flag Piece Object Answer) (choice : ι × Option Request) : Prop :=
  ∀ request, choice.2 = some request → permitted request

omit [DecidableEq Answer] [DecidableEq Request] in
/-- A thread is in a routine that may be called. -/
theorem called_permitted {permitted : Request → Prop}
    (run : Run (markedGuarded interface ι) (Permits permitted)
      (idle ι Request Piece Answer flag object) config longer)
    (thread : ι) (request : Request) (inside : config.locals thread = .called request) :
    permitted request := by
  refine run_invariant (fun config _ => ∀ thread request,
    config.locals thread = .called request → permitted request) ?_ ?_ run thread request inside
  · rintro _ _ ⟨⟩
  · rintro config longer ⟨thread, choice⟩ next events _ called permits stepped caller request inside
    obtain ⟨_, ran, _⟩ := marked_step_cases stepped
    obtain ⟨taken, kept⟩ := system_step_cases ran
    by_cases same : caller = thread
    · subst caller
      rw [inside] at taken
      exact permits request (called_choice taken)
    · exact called caller request (kept caller same ▸ inside)

omit [DecidableEq Answer] [DecidableEq Request] in
/-- While only such flags are stored for which every test passes, no test fails. -/
theorem tests_pass {permitted : Request → Prop} (good : Flag → Prop) (initial : good flag)
    (stores : ∀ request stored answer, permitted request →
      interface.routine request = .store stored answer → good stored)
    (passing : ∀ request passes skipped pieces answer, permitted request →
      interface.routine request = .guarded passes skipped pieces answer →
        ∀ stored, good stored → passes stored = true)
    (run : Run (markedGuarded interface ι) (Permits permitted)
      (idle ι Request Piece Answer flag object) config longer) :
    good config.shared.flag ∧
      ∀ thread request, Mark.effect (.tested thread request false) ∉ marksOf longer := by
  refine run_invariant (fun config longer => good config.shared.flag ∧
      ∀ thread request, Mark.effect (.tested thread request false) ∉ marksOf longer)
    ⟨initial, by rintro _ _ ⟨⟩⟩ ?_ run
  rintro config longer ⟨thread, choice⟩ next events before ⟨goodFlag, pass⟩ _ stepped
  obtain ⟨plain, ran, rfl⟩ := marked_step_cases stepped
  obtain ⟨goodNext, passes⟩ := move_passes stores passing goodFlag
    (called_permitted before thread) (guarded_moves ran).1
  refine ⟨goodNext, fun caller request member => ?_⟩
  rw [marks_of_append, marks_of_step, List.mem_append] at member
  rcases member with earlier | later
  · exact pass caller request earlier
  · exact passes caller request later

omit [DecidableEq Answer] [DecidableEq Request] in
/-- While only such flags are stored for which the tests of some routines fail, none of
these is let in, and none enters. -/
theorem tests_fail {permitted blocked : Request → Prop} (bad : Flag → Prop) (initial : bad flag)
    (stores : ∀ request stored answer, permitted request →
      interface.routine request = .store stored answer → bad stored)
    (failing : ∀ request passes skipped pieces answer, blocked request →
      interface.routine request = .guarded passes skipped pieces answer →
        ∀ stored, bad stored → passes stored = false)
    (run : Run (markedGuarded interface ι) (Permits permitted)
      (idle ι Request Piece Answer flag object) config longer) :
    bad config.shared.flag ∧
      (∀ thread request, (config.locals thread).admitted = some request → ¬ blocked request) ∧
      ∀ request ∈ entered (marksOf longer), ¬ blocked request := by
  refine run_invariant (fun config longer => bad config.shared.flag ∧
      (∀ thread request, (config.locals thread).admitted = some request → ¬ blocked request) ∧
      ∀ request ∈ entered (marksOf longer), ¬ blocked request)
    ⟨initial, by rintro _ _ ⟨⟩, by rintro _ ⟨⟩⟩ ?_ run
  rintro config longer ⟨thread, choice⟩ next events before ⟨badFlag, admits, inside⟩ _ stepped
  obtain ⟨plain, ran, rfl⟩ := marked_step_cases stepped
  obtain ⟨move, kept⟩ := guarded_moves ran
  obtain ⟨badNext, admitted, passes⟩ := move_fails stores failing badFlag
    (called_permitted before thread) (admits thread) move
  refine ⟨badNext, ?_, ?_⟩
  · intro caller request enter
    by_cases same : caller = thread
    · subst caller
      exact admitted request enter
    · exact admits caller request (kept caller same ▸ enter)
  · intro request member
    rw [marks_of_append, marks_of_step, entered_append, List.mem_append] at member
    rcases member with earlier | later
    · exact inside request earlier
    · exact passes request later

/-- In a run in which every test passes, all guarded calls have entered once all threads
are idle, each as often as it was called. -/
theorem all_calls_enter {permitted : Request → Prop} (good : Flag → Prop) (initial : good flag)
    (stores : ∀ request stored answer, permitted request →
      interface.routine request = .store stored answer → good stored)
    (passing : ∀ request passes skipped pieces answer, permitted request →
      interface.routine request = .guarded passes skipped pieces answer →
        ∀ stored, good stored → passes stored = true)
    (run : Run (markedGuarded interface ι) (Permits permitted)
      (idle ι Request Piece Answer flag object) config longer)
    (atRest : ∀ thread, config.locals thread = .idle) :
    ((eventsOf longer).filterMap (Event.guardedCall interface)).Perm
      (entered (marksOf longer)) := by
  have pass := (tests_pass good initial stores passing run).2
  have told := (guarded_runs (run_reaches run)).2.2.2.1
  rw [← told, ← guarded_calls_told, ← resolved_entered _ pass]
  exact (calls_resolved (run_reaches run) atRest).map Prod.snd

end Accounts

end GuardedSections
