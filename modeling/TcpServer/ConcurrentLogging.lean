import TcpServer.GuardedAccounts
import TcpServer.LogRecords

/-!
# Logging from several threads

The facade in front of any number of threads. `configure` and `enabled` are one access
of the level; `log` loads the level, takes the lock of the sink and then makes one call of
`fputc` or `fwrite` after the other, each of them a step of its own.

Other threads come between the calls of `fputc` and `fwrite`, but no other record does:
whatever the interleaving, `stderr` has whole records in the order in which their calls
took the lock, and behind them what the holder of the lock has written so far.
-/

namespace TcpServer.Logging

open AtomicObjects Config GuardedSections Monitors TextLines Transition

/-- A call of the facade, with its arguments as the caller passes them. -/
inductive Request where
  | configure (cfg : LoggingConfig)
  | enabled (level : LogLevel)
  | log (call : Call)
deriving DecidableEq, Repr

/-- What a call of the facade returns. Only asking for a level is answered. -/
inductive Answer where
  | done
  | enabled (passes : Bool)
deriving DecidableEq, Repr

/-- The calls of `fputc` in `write_escaped`, with what they write. Another thread
could come in between any two. -/
def escapedWrites : Text → List Text
  | [] => []
  | ch :: rest =>
      if ch = quote ∨ ch = backslash then [backslash] :: [ch] :: escapedWrites rest
      else [ch] :: escapedWrites rest

/-- The writes in `write_kv`: those of the key and the value, and the single
characters between them. -/
def kvWrites (field : LogField) : List Text :=
  [space] :: field.key :: [equals] ::
    if needsQuotes field.value then [quote] :: escapedWrites field.value ++ [[quote]]
    else [field.value]

/-- The writes in the loop over the fields, which skips those without a key. -/
def fieldsWrites : List LogField → List Text
  | [] => []
  | field :: rest =>
      if field.key = [] then fieldsWrites rest else kvWrites field ++ fieldsWrites rest

/-- The writes in `log`, under the lock. The sink is not buffered, so `fflush` adds
nothing. -/
def logWrites (call : Call) : List Text :=
  chars "level=" :: levelName call.level :: chars " msg=\"" :: escapedWrites call.message ++
    [quote] :: fieldsWrites call.fields ++ [[newline]]

/-- The facade, with the level as its flag and `stderr` as its object. The level is
tested in front of the lock. -/
def loggingInterface : Interface Request LogLevel Text Text Answer where
  routine
    | .configure cfg => .store cfg.level .done
    | .enabled level => .load fun threshold =>
        .enabled (decide (levelValue level ≥ levelValue threshold))
    | .log call =>
        .guarded (fun threshold => decide (levelValue call.level ≥ levelValue threshold)) .done
          (logWrites call) fun _ => .done
  act := fwrite

section Writing

/-- Writes in a row append what they write. -/
theorem perform_writes (writes : List Text) (out : Text) :
    loggingInterface.perform writes out = out ++ writes.flatten := by
  induction writes generalizing out with
  | nil => simp [Interface.perform]
  | cons data rest inductionHypothesis =>
    have later := inductionHypothesis (fwrite data out)
    simp only [Interface.perform] at later ⊢
    rw [List.foldl_cons, show loggingInterface.act data out = fwrite data out from rfl, later]
    simp [fwrite]

/-- The single writes of an escaped text, one after the other, are that text. Each
byte is written by one `fputc`, with the escape in front where there is one. -/
theorem escaped_writes_text (s : Text) :
    (escapedWrites s).flatten = Quoting.escaped quote backslash s := by
  induction s with
  | nil => rfl
  | cons ch rest inductionHypothesis =>
    rw [escapedWrites, Quoting.escaped]
    split <;> simp [inductionHypothesis]

/-- The single writes of a field are the text of the field, with the space in front of
it. Both branches of `write_kv` give it. -/
theorem kv_writes_text (field : LogField) : (kvWrites field).flatten = fieldText field := by
  rw [kvWrites, fieldText, valueText]
  split <;> simp [escaped_writes_text]

/-- The single writes of all fields are the texts of the fields with a key, in their
order. A field without a key is not written at all. -/
theorem fields_writes_text (fields : List LogField) :
    (fieldsWrites fields).flatten = (named fields).flatMap fieldText := by
  induction fields with
  | nil => rfl
  | cons field rest inductionHypothesis =>
    rw [fieldsWrites]
    split
    · rename_i skipped
      simp [inductionHypothesis, named, skipped]
    · rename_i kept
      simp [inductionHypothesis, named, kept, kv_writes_text]

/-- The writes of a call are its record and a newline. -/
theorem log_writes_text (call : Call) : (logWrites call).flatten = call.text ++ [newline] := by
  simp [logWrites, escaped_writes_text, fields_writes_text, Call.text, recordText]

/-- They are what the call writes when nobody else is there. -/
theorem log_writes_sequential (logger : Logger) (call : Call)
    (passes : enabled logger call.level = true) :
    loggingInterface.perform (logWrites call) logger.stderr =
      (log logger call.level call.message call.fields).stderr := by
  rw [perform_writes, log_writes_text, log_enabled logger _ _ _ passes]
  rfl

end Writing

section Records

variable {T : Type} [DecidableEq T]

/-- The facade in front of its threads: the level, the sink, the lock, and where each
thread is. -/
abbrev LoggingConfiguration (T : Type) := GuardedConfig T Request LogLevel Text Text Answer

/-- A mark of a routine of the log: what it does to the level or the sink, or an
event. -/
abbrev LoggingMark (T : Type) := GuardedSections.Mark T Request Answer

/-- An event of a routine of the log: it is called, or returns. -/
abbrev LoggingEvent (T : Type) := GuardedSections.Event T Request Answer

/-- The call of `log` that a request is, if it is one. The others write nothing. -/
def Request.record : Request → Option Call
  | .log call => some call
  | .configure _ | .enabled _ => none

/-- The calls of `log` that have taken the lock, in this order. It is the order of
their records in the sink. -/
def writtenCalls (longer : List (LoggingMark T ⊕ LoggingEvent T)) : List Call :=
  (entered (marksOf longer)).filterMap Request.record

/-- The call of `log` that an event is. Returns are none. -/
def loggedCall : LoggingEvent T → Option Call
  | .called _ (.log call) => some call
  | .called _ (.configure _) | .called _ (.enabled _) | .returned _ _ _ => none

/-- The threshold stays at or below `least`, and no call is below it. So no call is
turned away. -/
def AtLeast (least : LogLevel) : Request → Prop
  | .configure cfg => levelValue cfg.level ≤ levelValue least
  | .enabled _ => True
  | .log call => levelValue least ≤ levelValue call.level

/-- Routines that enter in a row append their records. -/
theorem entered_records (requests : List Request) (out : Text) :
    requests.foldl (fun out request =>
        loggingInterface.perform (loggingInterface.body request) out) out =
      out ++ (requests.filterMap Request.record).flatMap fun call => call.text ++ [newline] := by
  induction requests generalizing out with
  | nil => simp
  | cons request rest inductionHypothesis =>
    rw [List.foldl_cons, inductionHypothesis, perform_writes]
    cases request with
    | configure cfg =>
      have body : loggingInterface.body (.configure cfg) = [] := rfl
      rw [body, List.flatten_nil, List.append_nil]
      rfl
    | enabled level =>
      have body : loggingInterface.body (.enabled level) = [] := rfl
      rw [body, List.flatten_nil, List.append_nil]
      rfl
    | log call =>
      have body : loggingInterface.body (.log call) = logWrites call := rfl
      simp [body, log_writes_text, Request.record]

/-- Records that are plain are read back line by line. -/
theorem plain_lines_read (calls : List Call) (plain : ∀ call ∈ calls, Plain call) :
    (lines newline (calls.flatMap fun call => call.text ++ [newline])).map readRecord =
      calls.map fun call => some call.kept := by
  have whole : ∀ call ∈ calls, newline ∉ call.text := by
    intro call member
    exact (newline_free_iff call).mpr (plain_newline_free (plain call member))
  rw [(lines_printed_iff Call.text calls).mpr whole, List.map_map]
  refine List.map_congr_left fun call member => ?_
  exact read_plain_record (plain call member)

/-- Where no call is below a threshold, all calls are written once all threads are idle,
each once. -/
theorem all_calls_written {least level : LogLevel} {out : Text} {config : LoggingConfiguration T}
    {longer : List (LoggingMark T ⊕ LoggingEvent T)} (low : levelValue level ≤ levelValue least)
    (run : Run (markedGuarded loggingInterface T) (Permits (AtLeast least))
      (idle T Request Text Answer level out) config longer)
    (atRest : ∀ thread, config.locals thread = .idle) :
    ((eventsOf longer).filterMap loggedCall).Perm (writtenCalls longer) := by
  have enter := all_calls_enter (fun threshold => levelValue threshold ≤ levelValue least)
    low ?_ ?_ run atRest
  · have calls : ((eventsOf longer).filterMap (Event.guardedCall loggingInterface)).filterMap
        Request.record = (eventsOf longer).filterMap loggedCall := by
      rw [List.filterMap_filterMap]
      refine List.filterMap_congr fun event _ => ?_
      cases event with
      | returned _ _ _ => rfl
      | called _ request => cases request <;> rfl
    rw [← calls]
    exact enter.filterMap Request.record
  · intro request stored answer permitted routine
    cases request with
    | configure cfg =>
      cases routine
      exact permitted
    | enabled _ | log _ => cases routine
  · intro request passes skipped pieces answer permitted routine stored within
    cases request with
    | configure _ | enabled _ => cases routine
    | log call =>
      cases routine
      exact decide_eq_true (le_trans within permitted)

/-- Logging from several threads. In every run, whatever the interleaving, `stderr`
with what the holder of the lock still has to write is the records of the calls that have
taken the lock, whole and in this order; each call that passes the test of the level has
one record, between the test and its return; the tests read the level that was stored
last. While nobody holds the lock, plain records are read back line by line; and where no
call is below a threshold, idle threads leave the records of all calls, each once. -/
theorem concurrent_records (T : Type) [DecidableEq T] (level : LogLevel) (out : Text)
    (config : LoggingConfiguration T) (longer : List (LoggingMark T ⊕ LoggingEvent T))
    (reached : Reaches (markedGuarded loggingInterface T)
      (idle T Request Text Answer level out) config longer) :
    config.shared.object ++ (unfinished config).flatten =
      out ++ (writtenCalls longer).flatMap (fun call => call.text ++ [newline]) ∧
    (config.shared.mutex.holder = none → unfinished config = []) ∧
    (∀ thread, (session loggingInterface T).run .ready
        ((marksOf longer).filterMap (ownedBy Mark.owner thread)) =
      some (sessionOf loggingInterface config.shared (config.locals thread))) ∧
    (sections loggingInterface T).run ⟨level, out⟩
        ((marksOf longer).filterMap Mark.operation) =
      some ⟨config.shared.flag, config.shared.object ++ (unfinished config).flatten⟩ ∧
    (marksOf longer).filterMap Mark.told = eventsOf longer ∧
    (config.shared.mutex.holder = none → out = [] →
      (∀ call ∈ writtenCalls longer, Plain call) →
      (lines newline config.shared.object).map readRecord =
        (writtenCalls longer).map fun call => some call.kept) ∧
    ∀ least, levelValue level ≤ levelValue least →
      Run (markedGuarded loggingInterface T) (Permits (AtLeast least))
        (idle T Request Text Answer level out) config longer →
      (∀ thread, config.locals thread = .idle) →
      ((eventsOf longer).filterMap loggedCall).Perm (writtenCalls longer) := by
  obtain ⟨_, effects, sessions, told, free⟩ := guarded_runs reached
  have whole : standsFor loggingInterface config =
      ⟨config.shared.flag, config.shared.object ++ (unfinished config).flatten⟩ := by
    simp only [standsFor, perform_writes]
  have written : config.shared.object ++ (unfinished config).flatten =
      out ++ (writtenCalls longer).flatMap (fun call => call.text ++ [newline]) := by
    have object := sections_object effects
    rw [whole, entered_records] at object
    exact object
  refine ⟨written, free, sessions, whole ▸ effects, told, ?_,
    fun least low run atRest => all_calls_written low run atRest⟩
  rintro unlocked rfl plain
  rw [free unlocked, List.flatten_nil, List.append_nil, List.nil_append] at written
  rw [written]
  exact plain_lines_read _ plain

/-- A call of `log` without fields, at a level that the threshold may keep out. -/
def quietRecord : Call := ⟨.info, [], []⟩

/-- A record that passes every threshold. -/
def loudRecord : Call := ⟨.error, [], []⟩

/-- A call passes its test; the level is raised, and another call writes its record; then
the first one takes the lock. -/
def overtakenRecord : List (Bool × Option Request) :=
  (true, some (.log quietRecord)) :: (true, none) ::
    (false, some (.configure ⟨.error⟩)) :: (false, none) ::
    (false, some (.log loudRecord)) :: List.replicate 8 (false, none) ++
    List.replicate 3 (true, none)

/-- A record below the level stands behind one that was written after the level was
raised; two of its parts are out. -/
theorem concurrent_records_overtaken :
    ∃ (config : LoggingConfiguration Bool) (longer : List (LoggingMark Bool ⊕ LoggingEvent Bool)),
      config.shared.flag = .error ∧ writtenCalls longer = [loudRecord, quietRecord] ∧
      config.shared.object = loudRecord.text ++ newline :: chars "level=info" ∧
      config.shared.object ++ (unfinished config).flatten =
        [] ++ (writtenCalls longer).flatMap (fun call => call.text ++ [newline]) := by
  obtain ⟨config, longer, reached, observed⟩ :=
    replay_exhibits (markedGuarded loggingInterface Bool)
      (idle Bool Request Text Answer .info [])
      (fun final => decide (final.1.shared.flag = .error ∧
        writtenCalls final.2 = [loudRecord, quietRecord] ∧
        final.1.shared.object = loudRecord.text ++ newline :: chars "level=info"))
      overtakenRecord (by decide)
  obtain ⟨raised, written, out⟩ := of_decide_eq_true observed
  exact ⟨config, longer, raised, written, out,
    (concurrent_records Bool .info [] config longer reached).1⟩

end Records

end TcpServer.Logging
