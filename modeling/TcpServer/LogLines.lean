import TcpServer.Logging
import TcpServer.TextLines

/-!
# One record, one line

Escaping puts a backslash in front of quotation marks and backslashes and lets
every other character through, and a value with a newline need not even be
quoted. So a record is one line exactly when its message and its named fields
have no newline, and a sequence of calls writes as many lines as records exactly
when this holds of all of them.
-/

namespace TcpServer.Logging

open Config (Text LogLevel LoggingConfig chars equals newline)
open Quoting (escaped mem_escaped)
open TextLines (lines)

/-- The arguments of a call of `log`, before anything is known of the threshold. -/
structure Call where
  level : LogLevel
  message : Text
  fields : List LogField
deriving DecidableEq, Repr

/-- What a call writes in front of its newline. It does not depend on the logger. -/
def Call.text (call : Call) : Text := recordText call.level call.message call.fields

/-- Exactly one newline, as the last byte. This is what a reader of lines takes for
one record. -/
def OneLine (bytes : Text) : Prop := ∃ line, bytes = line ++ [newline] ∧ newline ∉ line

/-- Neither the message nor the key or the value of a named field has a newline. The
fields that are skipped may. -/
def NewlineFree (call : Call) : Prop :=
  newline ∉ call.message ∧
    ∀ field ∈ named call.fields, newline ∉ field.key ∧ newline ∉ field.value

/-- The operations on the log, as one thread may call them one after the other. -/
inductive Operation where
  | configure (cfg : LoggingConfig)
  | log (call : Call)
deriving DecidableEq, Repr

/-- Perform one operation: store a threshold, or log under the one that is stored. -/
def perform (logger : Logger) : Operation → Logger
  | .configure cfg => configure logger cfg
  | .log call => log logger call.level call.message call.fields

/-- Perform several operations, one after the other, each with the logger that the one
before it has left. -/
def run (logger : Logger) : List Operation → Logger
  | [] => logger
  | operation :: rest => run (perform logger operation) rest

/-- The calls that find their level enabled when they are made, each under the
threshold stored by then. -/
def enabledCalls (logger : Logger) : List Operation → List Call
  | [] => []
  | .configure cfg :: rest => enabledCalls (configure logger cfg) rest
  | .log call :: rest =>
      let later := enabledCalls (log logger call.level call.message call.fields) rest
      if enabled logger call.level then call :: later else later

section Newlines

/-- The names of the levels hold no newline. -/
theorem newline_level_name (level : LogLevel) : newline ∉ levelName level := by
  cases level <;> decide

/-- A value is written with a newline exactly when it has one. Quoting puts a
backslash in front of `"` and of itself, and of nothing else. -/
theorem newline_value_text (value : Text) : newline ∈ valueText value ↔ newline ∈ value := by
  have unquoted : newline ≠ quote := by decide
  have unescaped : newline ≠ backslash := by decide
  rw [valueText]
  split
  · simp [unquoted, mem_escaped unescaped]
  · rfl

/-- A field is written with a newline exactly when its key or its value has one. The
key is written as it is. -/
theorem newline_field_text (field : LogField) :
    newline ∈ fieldText field ↔ newline ∈ field.key ∨ newline ∈ field.value := by
  have unspaced : newline ≠ space := by decide
  have unequal : newline ≠ equals := by decide
  simp [fieldText, newline_value_text, unspaced, unequal]

/-- The text of a record has the newlines of its message and its named fields, and no
others. -/
theorem newline_free_iff (call : Call) : newline ∉ call.text ↔ NewlineFree call := by
  have unescaped : newline ≠ backslash := by decide
  have unquoted : newline ≠ quote := by decide
  have front : newline ∉ chars "level=" := by decide
  have middle : newline ∉ chars " msg=\"" := by decide
  simp only [Call.text, recordText, NewlineFree, List.mem_append, front, newline_level_name, middle,
    mem_escaped unescaped, List.mem_singleton, unquoted, List.mem_flatMap, newline_field_text]
  simp only [false_or, or_false, not_or, not_exists, not_and]

/-- A terminated text is one line exactly when it has no newline inside. -/
theorem one_line_iff (text : Text) : OneLine (text ++ [newline]) ↔ newline ∉ text := by
  constructor
  · rintro ⟨line, same, whole⟩
    rwa [List.append_cancel_right same]
  · intro whole
    exact ⟨text, rfl, whole⟩

end Newlines

/-- A run writes the records of its enabled calls, each with a newline, in the order
of the calls. -/
theorem run_written (logger : Logger) (operations : List Operation) :
    (run logger operations).stderr = logger.stderr ++
      (enabledCalls logger operations).flatMap fun call => call.text ++ [newline] := by
  induction operations generalizing logger with
  | nil => simp [run, enabledCalls]
  | cons operation rest inductionHypothesis =>
    rw [run, inductionHypothesis]
    cases operation with
    | configure cfg => rfl
    | log call =>
      cases passes : enabled logger call.level with
      | true =>
        simp only [perform, enabledCalls, passes, if_true,
          log_enabled logger _ _ _ passes, List.flatMap_cons, Call.text, List.append_assoc]
      | false =>
        simp [perform, enabledCalls, passes, log_disabled logger _ _ _ passes]

/-- A call writes one line exactly when its record is free of newlines. A run has
one line for each enabled call, and these lines are the records themselves,
exactly when all of its records are. -/
theorem one_line_each_exact (logger : Logger) (operations : List Operation) :
    (∀ call : Call, enabled logger call.level = true →
      ∃ bytes, (log logger call.level call.message call.fields).stderr = logger.stderr ++ bytes ∧
        (OneLine bytes ↔ NewlineFree call)) ∧
    ∃ bytes, (run logger operations).stderr = logger.stderr ++ bytes ∧
      ((lines newline bytes).length = (enabledCalls logger operations).length ↔
        ∀ call ∈ enabledCalls logger operations, NewlineFree call) ∧
      (lines newline bytes = (enabledCalls logger operations).map Call.text ↔
        ∀ call ∈ enabledCalls logger operations, NewlineFree call) := by
  constructor
  · intro call passes
    refine ⟨call.text ++ [newline], ?_, ?_⟩
    · rw [log_enabled logger _ _ _ passes]
      rfl
    · rw [one_line_iff, newline_free_iff]
  · have free : (∀ call ∈ enabledCalls logger operations, newline ∉ call.text) ↔
        ∀ call ∈ enabledCalls logger operations, NewlineFree call := by
      simp only [newline_free_iff]
    refine ⟨_, run_written logger operations, ?_, ?_⟩
    · rw [← free]
      exact TextLines.lines_printed_length_iff Call.text (enabledCalls logger operations)
    · rw [← free]
      exact TextLines.lines_printed_iff Call.text (enabledCalls logger operations)

/-- A message with a newline in it, behind which it goes on like a record of its own.
-/
def forgingCall : Call := ⟨.info, chars "accepted\nlevel=error msg=forged", []⟩

example :
    lines newline (run {} [.log forgingCall]).stderr =
      [chars "level=info msg=\"accepted", chars "level=error msg=forged\""] := by
  decide

/-- One enabled call can write two lines, of which the second begins like a record. -/
theorem records_not_always_one_line :
    ¬ ∀ (logger : Logger) (call : Call), enabled logger call.level = true →
      ∃ bytes, (log logger call.level call.message call.fields).stderr = logger.stderr ++ bytes ∧
        OneLine bytes := by
  intro always
  obtain ⟨bytes, written, line, rfl, whole⟩ := always {} forgingCall rfl
  have shape : (log {} .info forgingCall.message []).stderr = line ++ [newline] := written
  have inside : line = (log {} .info forgingCall.message []).stderr.dropLast := by
    rw [shape, List.dropLast_concat]
  rw [inside] at whole
  exact absurd (by decide) whole

end TcpServer.Logging
