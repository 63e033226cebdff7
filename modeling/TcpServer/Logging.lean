import TcpServer.ConfigLoader
import TcpServer.Quoting

/-!
# The logging facade

`log` embeds `logging::log` with everything it writes to `stderr`, one call of
`fputc` or `fwrite` after the other, under the lock of the sink. The state is the
threshold that `configure` stores and the bytes written so far.

What one enabled call writes has a closed form: the text of the record, and a
newline behind it.
-/

namespace TcpServer.Logging

open Config (Text LogLevel LoggingConfig chars equals newline)
open Quoting (escaped)

/-- A key with its value, as a caller passes it. Either may be empty, and neither is
restricted to printable bytes. -/
structure LogField where
  key : Text
  value : Text
deriving DecidableEq, Repr

/-- The level of `level_ref()`, which starts as `Info`, and the bytes written to
`stderr` so far. -/
structure Logger where
  level : LogLevel := .info
  stderr : Text := []
deriving DecidableEq, Repr

/-- `std::fputc` to the stream: one byte behind those that were written. A write that
fails is not reported by the source and not modelled. -/
def fputc (ch : Byte) (out : Text) : Text := out ++ [ch]

/-- `std::fwrite` to the stream: all bytes of a text. The source ignores both results,
so a failing stream is not modelled. -/
def fwrite (data : Text) (out : Text) : Text := out ++ data

/-- The value of the enumerator, as an `unsigned`. The comparison with the threshold
is one of these values. -/
def levelValue : LogLevel → Nat
  | .trace => 0
  | .debug => 1
  | .info => 2
  | .warn => 3
  | .error => 4

/-- `level_name`: the text under which a level is logged. The function has a fallback
for other values of the enumeration, which no caller has. -/
def levelName : LogLevel → Text
  | .trace => chars "trace"
  | .debug => chars "debug"
  | .info => chars "info"
  | .warn => chars "warn"
  | .error => chars "error"

/-- The character that stands in front of a field. A value that has it is quoted. -/
def space : Byte := 0x20

/-- The character `"`, which stands at both ends of a message and of a quoted value.
-/
def quote : Byte := 0x22

/-- The escape character. It stands in front of a quote or another escape character,
never in front of anything else. -/
def backslash : Byte := 0x5C

/-- `needs_quotes`: a value with a space, a tab, a quote or an equals sign is written
in quotes. A newline does not count. -/
def needsQuotes (s : Text) : Bool :=
  s.any fun ch => ch == space || ch == 0x09 || ch == quote || ch == equals

/-- `write_escaped`: byte by byte, with a backslash in front of each quote and each
backslash. All other bytes are written as they are. -/
def writeEscaped (out : Text) : Text → Text
  | [] => out
  | ch :: rest =>
      let out := if ch = quote ∨ ch = backslash then fputc backslash out else out
      writeEscaped (fputc ch out) rest

/-- `write_kv`: a space, the key as it is, an equals sign, and the value in quotes if
it needs them. -/
def writeKv (out : Text) (field : LogField) : Text :=
  let out := fputc space out
  let out := fwrite field.key out
  let out := fputc equals out
  if needsQuotes field.value then
    let out := fputc quote out
    let out := writeEscaped out field.value
    fputc quote out
  else fwrite field.value out

/-- The loop over the fields. One with an empty key is skipped, together with its
value and the space in front. -/
def writeFields (out : Text) : List LogField → Text
  | [] => out
  | field :: rest =>
      if field.key = [] then writeFields out rest else writeFields (writeKv out field) rest

/-- `logging::configure` stores the level. Nothing of what was written changes, and
earlier records stay as they are. -/
def configure (logger : Logger) (cfg : LoggingConfig) : Logger := { logger with level := cfg.level }

/-- `logging::enabled`: the level is at least the threshold. The test is made on every
call, with the level stored by then. -/
def enabled (logger : Logger) (level : LogLevel) : Bool :=
  decide (levelValue level ≥ levelValue logger.level)

/-- `logging::log`. Below the threshold nothing is written; otherwise the parts of the
record are written one after the other, with a newline at the end. -/
def log (logger : Logger) (level : LogLevel) (message : Text) (fields : List LogField) : Logger :=
  if enabled logger level then
    let out := fwrite (chars "level=") logger.stderr
    let out := fwrite (levelName level) out
    let out := fwrite (chars " msg=\"") out
    let out := writeEscaped out message
    let out := fputc quote out
    let out := writeFields out fields
    { logger with stderr := fputc newline out }
  else logger

/-- A value as it is written: escaped and in quotes if it needs them, else as it is.
-/
def valueText (value : Text) : Text :=
  if needsQuotes value then quote :: escaped quote backslash value ++ [quote] else value

/-- A field as it is written, with the space in front of it. The key is written as it
is, the value quoted where it needs to be. -/
def fieldText (field : LogField) : Text := space :: field.key ++ equals :: valueText field.value

/-- The fields that are not skipped, in their order. Only these can be read back from
a record. -/
def named (fields : List LogField) : List LogField := fields.filter (·.key != [])

/-- What is written for a record in front of its newline. It does not depend on what
was written before. -/
def recordText (level : LogLevel) (message : Text) (fields : List LogField) : Text :=
  chars "level=" ++ levelName level ++ chars " msg=\"" ++ escaped quote backslash message ++
    [quote] ++ (named fields).flatMap fieldText

section Writing

/-- The loop of `write_escaped` appends the escaped text, whatever stands in front.
Proof: by induction on the text, with the bytes in front generalised, since each round
changes them. -/
theorem write_escaped_exact (out s : Text) :
    writeEscaped out s = out ++ escaped quote backslash s := by
  induction s generalizing out with
  | nil => simp [writeEscaped, escaped]
  | cons ch rest inductionHypothesis =>
    rw [writeEscaped, inductionHypothesis, escaped]
    split
    · simp [fputc]
    · simp [fputc]

/-- `write_kv` appends the text of its field, in both branches, and touches nothing
that was written before. -/
theorem write_kv_exact (out : Text) (field : LogField) :
    writeKv out field = out ++ fieldText field := by
  cases quoted : needsQuotes field.value with
  | true => simp [writeKv, fieldText, valueText, quoted, fputc, fwrite, write_escaped_exact]
  | false => simp [writeKv, fieldText, valueText, quoted, fputc, fwrite]

/-- The loop over the fields appends the texts of those with a key, in their order.
Proof: by induction on the fields, for every prefix already written. -/
theorem write_fields_exact (out : Text) (fields : List LogField) :
    writeFields out fields = out ++ (named fields).flatMap fieldText := by
  induction fields generalizing out with
  | nil => simp [writeFields, named]
  | cons field rest inductionHypothesis =>
    rw [writeFields]
    split
    · rename_i skipped
      rw [inductionHypothesis]
      simp [named, skipped]
    · rename_i kept
      rw [inductionHypothesis, write_kv_exact]
      simp [named, kept]

/-- An enabled call writes the text of its record and a newline, behind whatever was
written before. It is put together from the closed forms of its parts. -/
theorem log_enabled (logger : Logger) (level : LogLevel) (message : Text)
    (fields : List LogField) (passes : enabled logger level = true) :
    log logger level message fields =
      { logger with stderr := logger.stderr ++ (recordText level message fields ++ [newline]) } := by
  rw [log, if_pos passes]
  simp only [write_fields_exact, write_escaped_exact, fputc, fwrite, recordText,
    List.append_assoc]

/-- A call below the threshold leaves everything as it is. It does not look at the
message or the fields. -/
theorem log_disabled (logger : Logger) (level : LogLevel) (message : Text)
    (fields : List LogField) (drops : enabled logger level = false) :
    log logger level message fields = logger := by
  rw [log, drops]
  rfl

end Writing

end TcpServer.Logging
