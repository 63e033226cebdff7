import TcpServer.LogLines

/-!
# Reading log records back

`readRecord` reads a line by the documented format alone: the level up to a
space, the message between quotation marks, then fields up to the end of the
line. A value that begins with a quotation mark is quoted and its backslashes
are taken away; any other value reaches to the next space.

The reader undoes what `log` writes, so the line of a record determines its
level, its message and its named fields.
-/

namespace TcpServer.Logging

open Config (Text LogLevel chars equals newline)
open Quoting

/-- The level with the given name. The names are looked up, so this reader knows no
more than the writer's table. -/
def readLevel (name : Text) : Option LogLevel :=
  [LogLevel.trace, .debug, .info, .warn, .error].find? fun level => levelName level == name

/-- A value, and what follows it: up to its closing quote, or up to the next space. -/
def readValue (text : Text) : Option (Text × Text) :=
  if text.head? = some quote then readQuoted quote backslash text.tail
  else some (text.takeWhile (· != space), text.dropWhile (· != space))

/-- A field behind a space, and what follows it. Its key ends at the first `=`. -/
def readField : Text → Option (LogField × Text)
  | [] => none
  | first :: text =>
      if first = space then
        let key := text.takeWhile (· != equals)
        match text.dropWhile (· != equals) with
        | [] => none
        | _ :: behind => (readValue behind).map fun (value, rest) => (⟨key, value⟩, rest)
      else none

/-- The record of a line: the level, the quoted message, and fields up to the end.
Apart from the names of the levels it shares nothing with the functions that write. -/
def readRecord (line : Text) : Option Call := do
  let header ← line.dropPrefix? (chars "level=")
  let level ← readLevel (header.takeWhile (· != space))
  let quoted ← (header.dropWhile (· != space)).dropPrefix? (chars " msg=\"")
  let (message, fields) ← readQuoted quote backslash quoted
  let fields ← readAll readField fields
  return ⟨level, message, fields⟩

/-- The call without the fields that are skipped. Nothing else of a call is lost in
its record. -/
def Call.kept (call : Call) : Call := { call with fields := named call.fields }

/-- No newline in the message or in a value, and keys that end in front of their `=`.
Such a call is one line that can be read back. -/
structure Plain (call : Call) : Prop where
  message : newline ∉ call.message
  keys : ∀ field ∈ call.fields, space ∉ field.key ∧ equals ∉ field.key ∧ newline ∉ field.key
  values : ∀ field ∈ call.fields, newline ∉ field.value

section Reading

/-- The reader finds the level of each name, since no two levels share one. -/
theorem read_level_name (level : LogLevel) : readLevel (levelName level) = some level := by
  cases level <;> decide

/-- The reader can tell a quote from the character that escapes it. This is all that
reading back a quoted text rests on. -/
theorem quote_backslash : quote ≠ backslash := by decide

/-- A value without quotes holds neither a space nor a quote, so the reader knows
where it ends. -/
theorem unquoted_clear (value : Text) (unquoted : needsQuotes value = false) :
    space ∉ value ∧ quote ∉ value := by
  rw [needsQuotes, List.any_eq_false] at unquoted
  constructor
  · intro member
    exact unquoted space member (by decide)
  · intro member
    exact unquoted quote member (by decide)

/-- A value is read back in front of a space or the end of the line. -/
theorem read_value_text (value rest : Text) (delimits : Delimits space rest) :
    readValue (valueText value ++ rest) = some (value, rest) := by
  cases quoted : needsQuotes value with
  | true =>
    have shape : valueText value ++ rest =
        quote :: (escaped quote backslash value ++ quote :: rest) := by
      simp [valueText, quoted]
    rw [shape, readValue, List.head?_cons, if_pos rfl]
    exact read_quoted_escaped quote_backslash value rest
  | false =>
    have shape : valueText value = value := by simp [valueText, quoted]
    obtain ⟨unspaced, unmarked⟩ := unquoted_clear value quoted
    have raw : (value ++ rest).head? ≠ some quote := by
      intro first
      cases value with
      | nil => exact absurd (delimits quote first) (by decide)
      | cons symbol value =>
        have same : symbol = quote := Option.some.inj first
        exact unmarked (same ▸ List.mem_cons_self)
    rw [shape, readValue, if_neg raw, takeWhile_delimited unspaced delimits,
      dropWhile_delimited unspaced delimits]

/-- A field is read back in front of a space or the end of the line. -/
theorem read_field_text (field : LogField) (keyed : equals ∉ field.key) (rest : Text)
    (delimits : Delimits space rest) :
    readField (fieldText field ++ rest) = some (field, rest) := by
  have shape : fieldText field ++ rest =
      space :: (field.key ++ equals :: (valueText field.value ++ rest)) := by
    simp [fieldText]
  have behind := delimits_cons equals (valueText field.value ++ rest)
  rw [shape, readField, if_pos rfl]
  simp only [takeWhile_delimited keyed behind, dropWhile_delimited keyed behind,
    read_value_text field.value rest delimits]
  rfl

/-- The fields of a record are read back up to the end of its line. -/
theorem read_fields_text (fields : List LogField) (keyed : ∀ field ∈ fields, equals ∉ field.key) :
    readAll readField (fields.flatMap fieldText) = some fields := by
  apply read_all_printed readField fieldText (Delimits space) fields (delimits_nil space)
  · exact fun field _ rest => delimits_cons space _
  · exact fun field _ => List.cons_ne_nil _ _
  · exact fun field member => read_field_text field (keyed field member)

/-- The text of a record is read back. -/
theorem read_record_text (call : Call) (keyed : ∀ field ∈ named call.fields, equals ∉ field.key) :
    readRecord call.text = some call.kept := by
  have unspaced : space ∉ levelName call.level := by
    cases call.level <;> decide
  let fieldsText := (named call.fields).flatMap fieldText
  let quotedText := escaped quote backslash call.message ++ quote :: fieldsText
  have shape : call.text =
      chars "level=" ++ (levelName call.level ++ (chars " msg=\"" ++ quotedText)) := by
    simp [Call.text, recordText, quotedText, fieldsText]
  have behind : Delimits space (chars " msg=\"" ++ quotedText) := delimits_cons space _
  have message : readQuoted quote backslash quotedText = some (call.message, fieldsText) :=
    read_quoted_escaped quote_backslash call.message fieldsText
  have fields : readAll readField fieldsText = some (named call.fields) :=
    read_fields_text (named call.fields) keyed
  rw [shape, readRecord, List.dropPrefix?_append_of_beq _ (beq_self_eq_true _)]
  simp only [Option.bind_eq_bind, Option.bind_some, takeWhile_delimited unspaced behind,
    dropWhile_delimited unspaced behind, read_level_name,
    List.dropPrefix?_append_of_beq _ (beq_self_eq_true (chars " msg=\"")), message, fields]
  rfl

/-- A plain record is one line: nothing in it brings a newline of its own. -/
theorem plain_newline_free {call : Call} (plain : Plain call) : NewlineFree call := by
  refine ⟨plain.message, fun field member => ?_⟩
  have written := List.mem_of_mem_filter member
  exact ⟨(plain.keys field written).2.2, plain.values field written⟩

/-- The record of a plain call is read back, but for the fields that were not written.
-/
theorem read_plain_record {call : Call} (plain : Plain call) :
    readRecord call.text = some call.kept :=
  read_record_text call fun field member =>
    (plain.keys field (List.mem_of_mem_filter member)).2.1

end Reading

/-- The line that a record is written to is read back, and no other record is
written to it. -/
theorem records_decodable (logger : Logger) (call : Call)
    (passes : enabled logger call.level = true) (plain : Plain call) :
    ∃ line, (log logger call.level call.message call.fields).stderr =
        logger.stderr ++ (line ++ [newline]) ∧
      newline ∉ line ∧ readRecord line = some call.kept ∧
      ∀ (otherLogger : Logger) (other : Call), enabled otherLogger other.level = true →
        Plain other →
        (log otherLogger other.level other.message other.fields).stderr =
          otherLogger.stderr ++ (line ++ [newline]) → other.kept = call.kept := by
  have read := read_plain_record plain
  have free := (newline_free_iff call).mpr (plain_newline_free plain)
  refine ⟨call.text, ?_, free, read, ?_⟩
  · rw [log_enabled logger _ _ _ passes]
    rfl
  · intro otherLogger other otherPasses otherPlain written
    rw [log_enabled otherLogger _ _ _ otherPasses] at written
    have same : other.text = call.text :=
      List.append_cancel_right (List.append_cancel_left written)
    have otherRead := read_plain_record otherPlain
    rw [same, read] at otherRead
    exact (Option.some.inj otherRead).symm

/-- A record with a quoted value, an empty value, a value of one backslash and a
field that is skipped. -/
def sampleCall : Call :=
  ⟨.warn, chars "say \"hi\"", [⟨chars "peer", chars "a b=\\"⟩, ⟨chars "none", []⟩,
    ⟨[], chars "skipped"⟩, ⟨chars "path", chars "\\"⟩]⟩

/-- A record with quotes, backslashes, an equals sign and a skipped field is read
back. -/
theorem records_decodable_sample :
    ∃ line, (log {} sampleCall.level sampleCall.message sampleCall.fields).stderr =
        [] ++ (line ++ [newline]) ∧
      newline ∉ line ∧ readRecord line = some sampleCall.kept := by
  have plain : Plain sampleCall := ⟨by decide, by decide, by decide⟩
  obtain ⟨line, written, whole, read, _⟩ := records_decodable {} sampleCall (by decide) plain
  exact ⟨line, written, whole, read⟩

end TcpServer.Logging
