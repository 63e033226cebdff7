import TcpServer.ConfigLoader

/-!
# The grammar of configuration files

A line is skipped, assigns a value to one of eight keys, or offends. This is said in
terms of the text of a line behind `trim` and of the spellings of a value, with
`isDigit` and `decimalValue` as the reading of a decimal number. How the loader finds
the `=`, compares the keys and parses the values plays no part in it; the loader is
then shown to read each line accordingly.
-/

namespace TcpServer.Config

/-- The eight keys of the configuration, one for each field. A text that is none of
theirs is an unknown key. -/
inductive Key where
  | listenHost
  | listenPort
  | maxConnections
  | maxMessageBytes
  | idleMs
  | workerThreads
  | loggingLevel
  | metricsEnabled
deriving DecidableEq, Repr

namespace Key

/-- How a key is written in a file. The comparison in the loader is by these texts,
byte by byte. -/
def text : Key → Text
  | listenHost => chars "listen.host"
  | listenPort => chars "listen.port"
  | maxConnections => chars "limits.max_connections"
  | maxMessageBytes => chars "limits.max_message_bytes"
  | idleMs => chars "timeouts.idle_ms"
  | workerThreads => chars "runtime.worker_threads"
  | loggingLevel => chars "logging.level"
  | metricsEnabled => chars "metrics.enabled"

/-- The type of the field a key assigns. The types of the numbers bound what may be
written. -/
def Value : Key → Type
  | listenHost => Text
  | listenPort => UInt16
  | maxConnections | idleMs | workerThreads => UInt32
  | maxMessageBytes => UInt64
  | loggingLevel => LogLevel
  | metricsEnabled => Bool

/-- The value of the field that a key assigns. Together with `set` it makes the eight
fields accessible by one variable. -/
def get : (key : Key) → ServerConfig → key.Value
  | listenHost, cfg => cfg.listen.host
  | listenPort, cfg => cfg.listen.port
  | maxConnections, cfg => cfg.limits.maxConnections
  | maxMessageBytes, cfg => cfg.limits.maxMessageBytes
  | idleMs, cfg => cfg.timeouts.idleMs
  | workerThreads, cfg => cfg.runtime.workerThreads
  | loggingLevel, cfg => cfg.logging.level
  | metricsEnabled, cfg => cfg.metrics.enabled

/-- Assign the field of a key, and leave all others as they are. This is what a line
of a file means. -/
def set : (key : Key) → key.Value → ServerConfig → ServerConfig
  | listenHost, value, cfg => { cfg with listen.host := value }
  | listenPort, value, cfg => { cfg with listen.port := value }
  | maxConnections, value, cfg => { cfg with limits.maxConnections := value }
  | maxMessageBytes, value, cfg => { cfg with limits.maxMessageBytes := value }
  | idleMs, value, cfg => { cfg with timeouts.idleMs := value }
  | workerThreads, value, cfg => { cfg with runtime.workerThreads := value }
  | loggingLevel, value, cfg => { cfg with logging.level := value }
  | metricsEnabled, value, cfg => { cfg with metrics.enabled := value }

end Key

/-- A non-empty sequence of decimal digits and the number it stands for. Signs and
blanks are no part of it, leading zeros may be. -/
def Decimal (text : Text) (number : Nat) : Prop :=
  text ≠ [] ∧ (∀ c ∈ text, isDigit c = true) ∧ decimalValue text = number

/-- The accepted spellings of each level: three of each, and three more of `warn`,
which may be written out. -/
def levelSpellings : LogLevel → List Text
  | .trace => [chars "trace", chars "TRACE", chars "Trace"]
  | .debug => [chars "debug", chars "DEBUG", chars "Debug"]
  | .info => [chars "info", chars "INFO", chars "Info"]
  | .warn =>
      [chars "warn", chars "WARN", chars "Warn", chars "warning", chars "WARNING", chars "Warning"]
  | .error => [chars "error", chars "ERROR", chars "Error"]

/-- The accepted spellings of either truth value. A number other than these two is
none. -/
def boolSpellings : Bool → List Text
  | true => [chars "1", chars "true", chars "TRUE", chars "True"]
  | false => [chars "0", chars "false", chars "FALSE", chars "False"]

/-- The value a text spells for a key, by the parsing functions of the loader. It is
the bridge between the loader and the grammar. -/
def Key.parse : (key : Key) → Text → Option key.Value
  | listenHost, text => some text
  | listenPort, text => ((parseUint 32 text).filter (· ≤ 65535)).map Nat.toUInt16
  | maxConnections, text => (parseUint 32 text).map Nat.toUInt32
  | maxMessageBytes, text => (parseUint 64 text).map Nat.toUInt64
  | idleMs, text => (parseUint 32 text).map Nat.toUInt32
  | workerThreads, text => (parseUint 32 text).map Nat.toUInt32
  | loggingLevel, text => parseLogLevel text
  | metricsEnabled, text => parseBool text

/-- The text is a spelling of the value. The type of the value bounds a number, so
that an overflow is no spelling of anything. -/
def Key.Spells : (key : Key) → Text → key.Value → Prop
  | listenHost, text, value => text = value
  | listenPort, text, value => Decimal text (UInt16.toNat value)
  | maxConnections, text, value => Decimal text (UInt32.toNat value)
  | maxMessageBytes, text, value => Decimal text (UInt64.toNat value)
  | idleMs, text, value => Decimal text (UInt32.toNat value)
  | workerThreads, text, value => Decimal text (UInt32.toNat value)
  | loggingLevel, text, value => text ∈ levelSpellings value
  | metricsEnabled, text, value => text ∈ boolSpellings value

/-- Blank lines and comments. The mark of a comment may have blanks in front of it. -/
def Skipped (line : Text) : Prop :=
  trim line = [] ∨ ∃ rest, trim line = 0x23 :: rest ∨ trim line = 0x3B :: rest

/-- The line splits at its first `=` into a key and a value, behind `trim` of the line
and of both sides. The key may be empty here. -/
def Splits (line key value : Text) : Prop :=
  ∃ left right, trim line = left ++ equals :: right ∧ equals ∉ left ∧
    trim left = key ∧ trim right = value

/-- The line is not skipped, and splits into the text of a key and a spelling of the
value. -/
def Assigns (line : Text) (key : Key) (value : key.Value) : Prop :=
  ¬ Skipped line ∧ ∃ text, Splits line key.text text ∧ key.Spells text value

/-- The line is one that a configuration file may have. Whether it is does not depend
on the other lines. -/
def Grammatical (line : Text) : Prop := Skipped line ∨ ∃ key value, Assigns line key value

/-- The ways a line can offend, with the code each is reported under. A line that
offends does so in one way only. -/
inductive Offends (line : Text) : Code → Prop
  | unsplit (written : ¬ Skipped line)
      (keyless : ∀ key value, Splits line key value → key = []) : Offends line .invalidLine
  | unknown (written : ¬ Skipped line) (key value : Text) (split : Splits line key value)
      (named : key ≠ []) (foreign : ∀ known : Key, key ≠ known.text) : Offends line .unknownKey
  | misspelled (written : ¬ Skipped line) (key : Key) (text : Text)
      (split : Splits line key.text text) (invalid : ∀ value, ¬ key.Spells text value) :
      Offends line .invalidValue

section Keys

/-- A key reads what was assigned to it. Each of the eight keys has a field of its
own, so this is a case distinction. -/
theorem get_set_same (key : Key) (value : key.Value) (cfg : ServerConfig) :
    key.get (key.set value cfg) = value := by
  cases key <;> rfl

/-- Assigning to a key does not change what another key reads. Together the two laws
say all about the eight fields that later proofs use. -/
theorem get_set_other (key other : Key) (different : key ≠ other) (value : other.Value)
    (cfg : ServerConfig) : key.get (other.set value cfg) = key.get cfg := by
  cases key <;> cases other <;> first | rfl | exact absurd rfl different

/-- Assignments to different keys commute, since they concern different fields. So the
order of the lines matters within one key only. -/
theorem set_set_comm (key other : Key) (different : key ≠ other) (value : key.Value)
    (otherValue : other.Value) (cfg : ServerConfig) :
    key.set value (other.set otherValue cfg) = other.set otherValue (key.set value cfg) := by
  cases key <;> cases other <;> first | rfl | exact absurd rfl different

/-- No two keys are written alike, so the order of the comparisons in the loader does
not matter. -/
theorem key_text_injective (key other : Key) (same : key.text = other.text) : key = other := by
  revert same
  cases key <;> cases other <;> decide

/-- No key is written as the empty text, so a line without a key is never one with an
unknown key. -/
theorem key_text_named (key : Key) : key.text ≠ [] := by
  cases key <;> decide

end Keys

section Values

/-- `parseUint` accepts exactly the decimal numbers in range. The test on where
`from_chars` stopped says that the digits at the front are the whole text. -/
theorem parse_uint_iff (bits : Nat) (text : Text) (number : Nat) :
    parseUint bits text = some number ↔ Decimal text number ∧ number < 2 ^ bits := by
  constructor
  · intro parsed
    unfold parseUint fromChars at parsed
    by_cases empty : text.takeWhile isDigit = []
    · simp [empty] at parsed
    · by_cases inRange : decimalValue (text.takeWhile isDigit) < 2 ^ bits
      · simp only [if_neg empty, if_pos inRange, ne_eq, not_true_eq_false, false_or,
          ite_not] at parsed
        split at parsed
        · rename_i sameLength
          have whole : text.takeWhile isDigit = text :=
            (List.takeWhile_prefix isDigit).eq_of_length sameLength
          rw [whole] at empty inRange parsed
          obtain rfl := Option.some.inj parsed
          exact ⟨⟨empty, List.takeWhile_eq_self_iff.mp whole, rfl⟩, inRange⟩
        · cases parsed
      · simp only [if_neg empty, if_neg inRange] at parsed
        simp at parsed
  · rintro ⟨⟨nonempty, numeral, rfl⟩, inRange⟩
    simp [parseUint, fromChars, List.takeWhile_eq_self_iff.mpr numeral, nonempty, inRange]

/-- `parseBool` accepts exactly the spellings of either value. Proof: what it accepts
is read off its chain of comparisons; that it accepts each spelling is a finite check.
-/
theorem parse_bool_iff (text : Text) (value : Bool) :
    parseBool text = some value ↔ text ∈ boolSpellings value := by
  constructor
  · intro parsed
    unfold parseBool at parsed
    split_ifs at parsed <;> cases parsed <;>
      simpa only [boolSpellings, List.mem_cons, List.not_mem_nil, or_false]
  · have spelled : ∀ text ∈ boolSpellings value, parseBool text = some value := by
      cases value <;> decide
    exact spelled text

/-- `parseLogLevel` accepts exactly the spellings of a level, by the same two steps.
-/
theorem parse_log_level_iff (text : Text) (value : LogLevel) :
    parseLogLevel text = some value ↔ text ∈ levelSpellings value := by
  constructor
  · intro parsed
    unfold parseLogLevel at parsed
    split_ifs at parsed <;> cases parsed <;>
      simpa only [levelSpellings, List.mem_cons, List.not_mem_nil, or_false]
  · have spelled : ∀ text ∈ levelSpellings value, parseLogLevel text = some value := by
      cases value <;> decide
    exact spelled text

/-- A parsed number below the limit of an unsigned type is the number of its value.
The statement is about any such type, given how it converts. -/
theorem unsigned_iff {α : Type} (toNat : α → Nat) (ofNat : Nat → α) (limit : Nat)
    (bounded : ∀ value, toNat value < limit) (restored : ∀ value, ofNat (toNat value) = value)
    (kept : ∀ number < limit, toNat (ofNat number) = number) (text : Text) (parsed : Option Nat)
    (exact : ∀ number, parsed = some number ↔ Decimal text number ∧ number < limit) (value : α) :
    parsed.map ofNat = some value ↔ Decimal text (toNat value) := by
  rw [Option.map_eq_some_iff]
  constructor
  · rintro ⟨number, found, rfl⟩
    obtain ⟨numeral, inRange⟩ := (exact number).mp found
    rwa [kept number inRange]
  · intro numeral
    exact ⟨toNat value, (exact _).mpr ⟨numeral, bounded value⟩, restored value⟩

/-- The four keys of 32 bits take exactly the numerals of a 32-bit value: there is
nothing to cut off behind the conversion. -/
theorem uint32_iff (text : Text) (value : UInt32) :
    (parseUint 32 text).map Nat.toUInt32 = some value ↔ Decimal text value.toNat :=
  unsigned_iff UInt32.toNat Nat.toUInt32 (2 ^ 32) UInt32.toNat_lt
    (fun _ => UInt32.ofNat_toNat) (fun _ inRange => UInt32.toNat_ofNat_of_lt' inRange) text _
    (parse_uint_iff 32 text) value

/-- The one key of 64 bits takes exactly the numerals of a 64-bit value. The
conversion in the loader has this width already. -/
theorem uint64_iff (text : Text) (value : UInt64) :
    (parseUint 64 text).map Nat.toUInt64 = some value ↔ Decimal text value.toNat :=
  unsigned_iff UInt64.toNat Nat.toUInt64 (2 ^ 64) UInt64.toNat_lt
    (fun _ => UInt64.ofNat_toNat) (fun _ inRange => UInt64.toNat_ofNat_of_lt' inRange) text _
    (parse_uint_iff 64 text) value

/-- A port is parsed with 32 bits and then limited to 16. The two steps together take
exactly the numerals of a 16-bit value. -/
theorem port_iff (text : Text) (value : UInt16) :
    ((parseUint 32 text).filter (· ≤ 65535)).map Nat.toUInt16 = some value ↔
      Decimal text value.toNat := by
  apply unsigned_iff UInt16.toNat Nat.toUInt16 (2 ^ 16) UInt16.toNat_lt
    (fun _ => UInt16.ofNat_toNat) (fun _ inRange => UInt16.toNat_ofNat_of_lt' inRange)
  intro number
  rw [Option.filter_eq_some_iff, parse_uint_iff, decide_eq_true_iff]
  constructor
  · rintro ⟨⟨numeral, _⟩, inRange⟩
    exact ⟨numeral, by omega⟩
  · rintro ⟨numeral, inRange⟩
    exact ⟨⟨numeral, by omega⟩, by omega⟩

/-- The loader's parsing functions find the value that a text spells, and find none
where it spells none. -/
theorem parse_iff (key : Key) (text : Text) (value : key.Value) :
    key.parse text = some value ↔ key.Spells text value := by
  cases key with
  | listenHost => exact Option.some_inj
  | listenPort => exact port_iff text value
  | maxConnections => exact uint32_iff text value
  | maxMessageBytes => exact uint64_iff text value
  | idleMs => exact uint32_iff text value
  | workerThreads => exact uint32_iff text value
  | loggingLevel => exact parse_log_level_iff text value
  | metricsEnabled => exact parse_bool_iff text value

end Values

section Applying

/-- What `applyKeyValue` says of a value that the key does not take. The host takes
every text, so it has no complaint. -/
def Key.complaint : Key → String
  | .listenHost => ""
  | .listenPort => "listen.port must be 0..65535"
  | .maxConnections => "limits.max_connections must be an integer"
  | .maxMessageBytes => "limits.max_message_bytes must be an integer"
  | .idleMs => "timeouts.idle_ms must be an integer"
  | .workerThreads => "runtime.worker_threads must be an integer"
  | .loggingLevel => "logging.level is not recognized"
  | .metricsEnabled => "metrics.enabled must be true/false"

/-- The chain of comparisons finds each of the eight keys, and either stores what its
text spells or refuses with the complaint of the key. The port is the only one that is
tested twice, against 32 bits and against its own bound. -/
theorem apply_known (cfg : ServerConfig) (key : Key) (text : Text) :
    applyKeyValue cfg key.text text =
      match key.parse text with
      | none => .error (refused key.complaint)
      | some value => .ok (key.set value cfg) := by
  cases key with
  | listenHost => rfl
  | listenPort =>
    simp +decide only [applyKeyValue, Key.text, Key.parse, if_true, if_false]
    cases parseUint 32 text with
    | none => rfl
    | some parsed =>
      rw [Option.filter_some]
      by_cases beyond : parsed > 65535
      · have refused : ¬ (decide (parsed ≤ 65535) = true) := by simpa using beyond
        rw [if_neg refused]
        exact if_pos beyond
      · have accepted : decide (parsed ≤ 65535) = true := by simpa using beyond
        rw [if_pos accepted]
        exact if_neg beyond
  | maxConnections | idleMs | workerThreads =>
    simp +decide only [applyKeyValue, Key.text, Key.parse, if_true, if_false]
    cases parseUint 32 text <;> rfl
  | maxMessageBytes =>
    simp +decide only [applyKeyValue, Key.text, Key.parse, if_true, if_false]
    cases parseUint 64 text <;> rfl
  | loggingLevel =>
    simp +decide only [applyKeyValue, Key.text, Key.parse, if_true, if_false]
    cases parseLogLevel text <;> rfl
  | metricsEnabled =>
    simp +decide only [applyKeyValue, Key.text, Key.parse, if_true, if_false]
    cases parseBool text <;> rfl

/-- A text that is none of the eight keys runs through the whole chain of comparisons.
-/
theorem apply_unknown (cfg : ServerConfig) (key text : Text)
    (foreign : ∀ known : Key, key ≠ known.text) :
    applyKeyValue cfg key text = .error ⟨.unknownKey, chars "unknown key: " ++ key, 0⟩ := by
  have host : key ≠ chars "listen.host" := foreign .listenHost
  have port : key ≠ chars "listen.port" := foreign .listenPort
  have connections : key ≠ chars "limits.max_connections" := foreign .maxConnections
  have bytes : key ≠ chars "limits.max_message_bytes" := foreign .maxMessageBytes
  have idle : key ≠ chars "timeouts.idle_ms" := foreign .idleMs
  have threads : key ≠ chars "runtime.worker_threads" := foreign .workerThreads
  have level : key ≠ chars "logging.level" := foreign .loggingLevel
  have enabled : key ≠ chars "metrics.enabled" := foreign .metricsEnabled
  unfold applyKeyValue
  rw [if_neg host, if_neg port, if_neg connections, if_neg bytes, if_neg idle, if_neg threads,
    if_neg level, if_neg enabled]

/-- A spelling of a value is stored in the field of its key, and no other field
changes. -/
theorem apply_spelled (cfg : ServerConfig) (key : Key) (text : Text) (value : key.Value)
    (spelled : key.Spells text value) :
    applyKeyValue cfg key.text text = .ok (key.set value cfg) := by
  rw [apply_known, (parse_iff key text value).mpr spelled]

/-- Any other text is refused, with the complaint of its key. The configuration of the
caller stays as it was, since nothing is returned. -/
theorem apply_misspelled (cfg : ServerConfig) (key : Key) (text : Text)
    (invalid : ∀ value, ¬ key.Spells text value) :
    applyKeyValue cfg key.text text = .error (refused key.complaint) := by
  have nothing : key.parse text = none := by
    rw [Option.eq_none_iff_forall_ne_some]
    exact fun value parsed => invalid value ((parse_iff key text value).mp parsed)
  rw [apply_known, nothing]

end Applying

section Lines

/-- `parseKv` splits at the first `=`. The value may hold further ones, and may be
empty; the key may not. -/
theorem parse_kv_append (left right : Text) (first : equals ∉ left) :
    parseKv (left ++ equals :: right) =
      if trim left = [] then none else some (trim left, trim right) := by
  have present : equals ∈ left ++ equals :: right :=
    List.mem_append_right left List.mem_cons_self
  have position : (left ++ equals :: right).idxOf equals = left.length := by
    rw [List.idxOf_append_of_notMem first, List.idxOf_cons_self, Nat.add_zero]
  have front : (left ++ equals :: right).take left.length = left := List.take_left
  have back : (left ++ equals :: right).drop (left.length + 1) = right := by
    rw [List.drop_append, List.drop_eq_nil_of_le (Nat.le_succ _), Nat.add_sub_cancel_left]
    rfl
  simp only [parseKv, if_pos present, position, front, back]

/-- Only a line with an `=` is split. Any other line is reported as invalid, whatever
it says. -/
theorem parse_kv_missing (line : Text) (missing : equals ∉ line) : parseKv line = none :=
  if_neg missing

/-- A skipped line leaves the configuration as it is. -/
theorem read_line_skipped (cfg : ServerConfig) (lineNo : Nat) (line : Text)
    (skipped : Skipped line) : readLine cfg lineNo line = .ok cfg := by
  obtain empty | ⟨rest, hash | semicolon⟩ := skipped
  · simp [readLine, empty]
  · simp [readLine, hash]
  · simp [readLine, semicolon]

/-- A written line goes to `parseKv`. -/
theorem read_line_written (cfg : ServerConfig) (lineNo : Nat) (line : Text)
    (written : ¬ Skipped line) :
    readLine cfg lineNo line =
      match parseKv (trim line) with
      | none => .error ⟨.invalidLine, chars "invalid line (expected key=value)", lineNo⟩
      | some (key, value) =>
          match applyKeyValue cfg key value with
          | .error err => .error { err with line := lineNo }
          | .ok cfg => .ok cfg := by
  unfold readLine
  cases shape : trim line with
  | nil => exact absurd (.inl shape) written
  | cons front rest =>
    have uncommented : ¬ (front = 0x23 ∨ front = 0x3B) := by
      rintro (rfl | rfl)
      · exact written (.inr ⟨rest, .inl shape⟩)
      · exact written (.inr ⟨rest, .inr shape⟩)
    exact if_neg uncommented

/-- A written line with a key goes to `applyKeyValue`. -/
theorem read_line_split (cfg : ServerConfig) (lineNo : Nat) (line key value : Text)
    (written : ¬ Skipped line) (split : Splits line key value) (named : key ≠ []) :
    readLine cfg lineNo line =
      match applyKeyValue cfg key value with
      | .error err => .error { err with line := lineNo }
      | .ok cfg => .ok cfg := by
  obtain ⟨left, right, shape, first, rfl, rfl⟩ := split
  rw [read_line_written cfg lineNo line written, shape, parse_kv_append left right first,
    if_neg named]

/-- A line that assigns does so, whatever the configuration was before. -/
theorem read_line_assigns (cfg : ServerConfig) (lineNo : Nat) (line : Text) (key : Key)
    (value : key.Value) (assigns : Assigns line key value) :
    readLine cfg lineNo line = .ok (key.set value cfg) := by
  obtain ⟨written, text, split, spelled⟩ := assigns
  rw [read_line_split cfg lineNo line _ _ written split (key_text_named key),
    apply_spelled cfg key text value spelled]

/-- An offending line is reported under its code and its number. -/
theorem read_line_offends (cfg : ServerConfig) (lineNo : Nat) (line : Text) (code : Code)
    (offends : Offends line code) :
    ∃ message, readLine cfg lineNo line = .error ⟨code, message, lineNo⟩ := by
  cases offends with
  | unsplit written keyless =>
    have unparsed : parseKv (trim line) = none := by
      by_cases present : equals ∈ trim line
      · obtain ⟨left, right, shape, first⟩ := List.eq_append_cons_of_mem present
        have keyless := keyless _ _ ⟨left, right, shape, first, rfl, rfl⟩
        rw [shape, parse_kv_append left right first, if_pos keyless]
      · exact parse_kv_missing _ present
    rw [read_line_written cfg lineNo line written, unparsed]
    exact ⟨_, rfl⟩
  | unknown written key value split named foreign =>
    rw [read_line_split cfg lineNo line key value written split named,
      apply_unknown cfg key value foreign]
    exact ⟨_, rfl⟩
  | misspelled written key text split invalid =>
    rw [read_line_split cfg lineNo line _ text written split (key_text_named key),
      apply_misspelled cfg key text invalid]
    exact ⟨_, rfl⟩

/-- Every line is skipped, assigns, or offends. The cases follow the loader: whether
the line is skipped, whether it has a key, whether the key is known, and whether the
value is spelled. -/
theorem line_cases (line : Text) : Grammatical line ∨ ∃ code, Offends line code := by
  by_cases skipped : Skipped line
  · exact .inl (.inl skipped)
  by_cases keyless : ∀ key value, Splits line key value → key = []
  · exact .inr ⟨_, .unsplit skipped keyless⟩
  push Not at keyless
  obtain ⟨name, text, split, named⟩ := keyless
  by_cases foreign : ∀ known : Key, name ≠ known.text
  · exact .inr ⟨_, .unknown skipped name text split named foreign⟩
  push Not at foreign
  obtain ⟨key, rfl⟩ := foreign
  by_cases invalid : ∀ value, ¬ key.Spells text value
  · exact .inr ⟨_, .misspelled skipped key text split invalid⟩
  push Not at invalid
  obtain ⟨value, spelled⟩ := invalid
  exact .inl (.inr ⟨key, value, skipped, text, split, spelled⟩)

/-- A line splits in one way into a key and a value, since the first `=` is where it
is. -/
theorem splits_unique (line key value otherKey otherValue : Text)
    (split : Splits line key value) (otherSplit : Splits line otherKey otherValue)
    (named : key ≠ []) (otherNamed : otherKey ≠ []) : key = otherKey ∧ value = otherValue := by
  obtain ⟨left, right, shape, first, rfl, rfl⟩ := split
  obtain ⟨otherLeft, otherRight, otherShape, otherFirst, rfl, rfl⟩ := otherSplit
  have parsed := parse_kv_append left right first
  rw [if_neg named, ← shape, otherShape, parse_kv_append otherLeft otherRight otherFirst,
    if_neg otherNamed] at parsed
  have pairs := Option.some.inj parsed
  exact ⟨(congrArg Prod.fst pairs).symm, (congrArg Prod.snd pairs).symm⟩

/-- A line assigns one value to one key: it splits in one way, no two keys are written
alike, and a text spells at most one value. -/
theorem assigns_unique (line : Text) (key other : Key) (value : key.Value)
    (otherValue : other.Value) (assigns : Assigns line key value)
    (otherAssigns : Assigns line other otherValue) :
    (⟨key, value⟩ : Sigma Key.Value) = ⟨other, otherValue⟩ := by
  obtain ⟨_, text, split, spelled⟩ := assigns
  obtain ⟨_, otherText, otherSplit, otherSpelled⟩ := otherAssigns
  obtain ⟨sameKey, rfl⟩ := splits_unique line _ _ _ _ split otherSplit (key_text_named key)
    (key_text_named other)
  obtain rfl := key_text_injective key other sameKey
  have parsed := (parse_iff key text value).mpr spelled
  rw [(parse_iff key text otherValue).mpr otherSpelled] at parsed
  rw [Option.some.inj parsed]

end Lines

end TcpServer.Config
