import Mathlib.Algebra.Group.Nat.Defs
import TcpServer.Platform
import TcpServer.TextLines

/-!
# The configuration loader

`loadConfigFromFile` embeds `load_config_from_file`. The file is the sequence of
lines `std::getline` delivers, together with what ended it; the process
environment is a function from names to values. Texts are sequences of bytes.

Lines of the file are trimmed before they are split at the first `=`, and both
sides are trimmed again. Values from the environment are applied as they are.
-/

namespace TcpServer.Config

/-- Texts are sequences of bytes, as `std::string` has them; no encoding is assumed.
-/
abbrev Text := List Byte

/-- The bytes of a string literal of the source. The literals are all plain
characters, so each is one byte. -/
def chars (literal : String) : Text := literal.toList.map fun c => c.toNat.toUInt8

/-- Where the server listens. The defaults of this and the following structures are
those of the member initialisers. -/
structure ListenConfig where
  host : Text := []
  port : UInt16 := 0
deriving DecidableEq, Repr

/-- The limits on connections and on the size of a message. Zero is the value before
any load; the validator refuses it. -/
structure LimitsConfig where
  maxConnections : UInt32 := 0
  maxMessageBytes : UInt64 := 0
deriving DecidableEq, Repr

/-- The idle timeout in milliseconds, as the file gives it. Zero is the value before
any load. -/
structure TimeoutsConfig where
  idleMs : UInt32 := 0
deriving DecidableEq, Repr

/-- The number of worker threads, as the file gives it. Zero is the value before any
load. -/
structure RuntimeConfig where
  workerThreads : UInt32 := 0
deriving DecidableEq, Repr

/-- The severities, in ascending order. The log compares them by the values of the
enumerators. -/
inductive LogLevel where
  | trace
  | debug
  | info
  | warn
  | error
deriving DecidableEq, Repr

/-- The threshold of the log, which is `info` where the file says nothing. -/
structure LoggingConfig where
  level : LogLevel := .info
deriving DecidableEq, Repr

/-- Whether metrics are collected, which they are not where the file says nothing. -/
structure MetricsConfig where
  enabled : Bool := false
deriving DecidableEq, Repr

/-- The whole configuration: eight fields in six groups, each with the default that
the source gives it. -/
structure ServerConfig where
  listen : ListenConfig := {}
  limits : LimitsConfig := {}
  timeouts : TimeoutsConfig := {}
  runtime : RuntimeConfig := {}
  logging : LoggingConfig := {}
  metrics : MetricsConfig := {}
deriving DecidableEq, Repr

/-- What a load can fail with: the file is not there, or a line is no assignment,
names no key, or gives a value that its key does not take. -/
inductive Code where
  | fileOpenFailed
  | invalidLine
  | unknownKey
  | invalidValue
deriving DecidableEq, Repr

/-- The error of a load. The line is 1-based, and 0 when the error is not about a
line: for a file that cannot be opened, and for the environment. -/
structure ConfigLoadError where
  code : Code
  message : Text
  line : Nat
deriving DecidableEq, Repr

/-- A space, a tab or a carriage return: what `trim` removes. A newline cannot occur,
since lines are split there. -/
def isBlank (c : Byte) : Bool := c == 0x20 || c == 0x09 || c == 0x0D

/-- `trim`: the text without the blanks at both ends; blanks in the middle stay. It is
applied to a line, and to the key and the value that it is split into. -/
def trim (s : Text) : Text := TextLines.strip isBlank s

/-- The character `=`, at the first of which a line is split. -/
def equals : Byte := 0x3D

/-- `parse_kv`: split at the first `=` and trim both sides. A line without one, or
with nothing in front of it, is not split; the value may be empty and may hold further
equals signs. -/
def parseKv (line : Text) : Option (Text × Text) :=
  if equals ∈ line then
    let pos := line.idxOf equals
    let key := trim (line.take pos)
    let value := trim (line.drop (pos + 1))
    if key = [] then none else some (key, value)
  else none

/-- A decimal digit of the C locale. `std::from_chars` knows no others, and no sign in
front of an unsigned number. -/
def isDigit (c : Byte) : Bool := 0x30 ≤ c && c ≤ 0x39

/-- The number a sequence of decimal digits stands for. Leading zeros do not change
it. -/
def decimalValue (digits : Text) : Nat :=
  digits.foldl (fun value digit => 10 * value + (digit.toNat - 0x30)) 0

/-- The outcomes of `std::from_chars` that the source distinguishes: a number, no
digit at the front, or a number that the type cannot hold. -/
inductive Errc where
  | none
  | invalidArgument
  | resultOutOfRange
deriving DecidableEq, Repr

/-- Where `std::from_chars` stopped, and what it stored. The caller compares the
position with the end of the text. -/
structure FromCharsResult where
  ptr : Nat
  ec : Errc
  out : Nat
deriving DecidableEq, Repr

/-- `std::from_chars` into an unsigned type of the given width: it takes all the
digits at the front, and neither a sign nor leading blanks. Out of range it reports so
behind the last digit. -/
def fromChars (bits : Nat) (s : Text) : FromCharsResult :=
  let digits := s.takeWhile isDigit
  if digits = [] then { ptr := 0, ec := .invalidArgument, out := 0 }
  else if decimalValue digits < 2 ^ bits then
    { ptr := digits.length, ec := .none, out := decimalValue digits }
  else { ptr := digits.length, ec := .resultOutOfRange, out := 0 }

/-- `parse_uint`: the whole text must have been consumed, and the number must fit into
the type. -/
def parseUint (bits : Nat) (s : Text) : Option Nat :=
  let result := fromChars bits s
  if result.ec ≠ .none ∨ result.ptr ≠ s.length then none else some result.out

/-- `parse_bool`: four spellings of either value. Any other text is neither, mixed
case included. -/
def parseBool (s : Text) : Option Bool :=
  if s = chars "1" ∨ s = chars "true" ∨ s = chars "TRUE" ∨ s = chars "True" then some true
  else if s = chars "0" ∨ s = chars "false" ∨ s = chars "FALSE" ∨ s = chars "False" then some false
  else none

/-- `parse_log_level`: three spellings of each level, and three more of `warn`. Any
other text is none. -/
def parseLogLevel (s : Text) : Option LogLevel :=
  if s = chars "trace" ∨ s = chars "TRACE" ∨ s = chars "Trace" then some .trace
  else if s = chars "debug" ∨ s = chars "DEBUG" ∨ s = chars "Debug" then some .debug
  else if s = chars "info" ∨ s = chars "INFO" ∨ s = chars "Info" then some .info
  else if s = chars "warn" ∨ s = chars "WARN" ∨ s = chars "Warn" ∨
      s = chars "warning" ∨ s = chars "WARNING" ∨ s = chars "Warning" then some .warn
  else if s = chars "error" ∨ s = chars "ERROR" ∨ s = chars "Error" then some .error
  else none

/-- The error of a value that its key does not take. The line number is put in by
whoever knows it. -/
def refused (message : String) : ConfigLoadError := ⟨.invalidValue, chars message, 0⟩

/-- `apply_key_value`: store the value in the field of its key. The value is taken as
it is, so a blank at either end makes a number or a keyword invalid. The line of an
error is filled in by the callers. -/
def applyKeyValue (cfg : ServerConfig) (key value : Text) : Except ConfigLoadError ServerConfig :=
  if key = chars "listen.host" then
    .ok { cfg with listen.host := value }
  else if key = chars "listen.port" then
    match parseUint 32 value with
    | none => .error (refused "listen.port must be 0..65535")
    | some parsed =>
        if parsed > 65535 then .error (refused "listen.port must be 0..65535")
        else .ok { cfg with listen.port := parsed.toUInt16 }
  else if key = chars "limits.max_connections" then
    match parseUint 32 value with
    | none => .error (refused "limits.max_connections must be an integer")
    | some parsed => .ok { cfg with limits.maxConnections := parsed.toUInt32 }
  else if key = chars "limits.max_message_bytes" then
    match parseUint 64 value with
    | none => .error (refused "limits.max_message_bytes must be an integer")
    | some parsed => .ok { cfg with limits.maxMessageBytes := parsed.toUInt64 }
  else if key = chars "timeouts.idle_ms" then
    match parseUint 32 value with
    | none => .error (refused "timeouts.idle_ms must be an integer")
    | some parsed => .ok { cfg with timeouts.idleMs := parsed.toUInt32 }
  else if key = chars "runtime.worker_threads" then
    match parseUint 32 value with
    | none => .error (refused "runtime.worker_threads must be an integer")
    | some parsed => .ok { cfg with runtime.workerThreads := parsed.toUInt32 }
  else if key = chars "logging.level" then
    match parseLogLevel value with
    | none => .error (refused "logging.level is not recognized")
    | some parsed => .ok { cfg with logging.level := parsed }
  else if key = chars "metrics.enabled" then
    match parseBool value with
    | none => .error (refused "metrics.enabled must be true/false")
    | some parsed => .ok { cfg with metrics.enabled := parsed }
  else .error ⟨.unknownKey, chars "unknown key: " ++ key, 0⟩

/-- What makes `std::getline` fail at the end of a stream: nothing is left, or reading
went wrong. The loop of the loader does not ask which. -/
inductive Ending where
  | endOfFile
  | failure
deriving DecidableEq, Repr

/-- An opened file: the lines `std::getline` delivers before it fails, and why it
does. -/
structure Stream where
  lines : List Text
  ending : Ending
deriving DecidableEq, Repr

/-- The character that ends a line. A carriage return in front of it belongs to the
line, where it counts as a blank. -/
def newline : Byte := 0x0A

/-- A file read to its end, line by line. A last line without a newline is delivered
like the others. -/
def Stream.ofText (text : Text) : Stream := ⟨TextLines.lines newline text, .endOfFile⟩

/-- The body of the loop over the lines. A line that is empty behind `trim`, or that
starts with `#` or `;`, changes nothing; any other is split and applied, and an error
carries the number of the line. -/
def readLine (cfg : ServerConfig) (lineNo : Nat) (line : Text) :
    Except ConfigLoadError ServerConfig :=
  match trim line with
  | [] => .ok cfg
  | front :: rest =>
      if front = 0x23 ∨ front = 0x3B then .ok cfg
      else
        match parseKv (front :: rest) with
        | none => .error ⟨.invalidLine, chars "invalid line (expected key=value)", lineNo⟩
        | some (key, value) =>
            match applyKeyValue cfg key value with
            | .error err => .error { err with line := lineNo }
            | .ok cfg => .ok cfg

/-- The loop over the lines. It leaves off where `std::getline` fails, for
whatever reason. -/
def readLines (cfg : ServerConfig) (lineNo : Nat) :
    List Text → Except ConfigLoadError ServerConfig
  | [] => .ok cfg
  | line :: rest =>
      match readLine cfg (lineNo + 1) line with
      | .error err => .error err
      | .ok cfg => readLines cfg (lineNo + 1) rest

/-- A variable of the environment and the key that it overrides, as one row of the
table in the source. -/
structure EnvKey where
  env : Text
  key : Text
deriving DecidableEq, Repr

/-- The table of the eight overrides, in the order in which they are applied. Each key
of the configuration has one. -/
def envKeys : List EnvKey :=
  [⟨chars "TCP_SERVER__listen__host", chars "listen.host"⟩,
   ⟨chars "TCP_SERVER__listen__port", chars "listen.port"⟩,
   ⟨chars "TCP_SERVER__limits__max_connections", chars "limits.max_connections"⟩,
   ⟨chars "TCP_SERVER__limits__max_message_bytes", chars "limits.max_message_bytes"⟩,
   ⟨chars "TCP_SERVER__timeouts__idle_ms", chars "timeouts.idle_ms"⟩,
   ⟨chars "TCP_SERVER__runtime__worker_threads", chars "runtime.worker_threads"⟩,
   ⟨chars "TCP_SERVER__logging__level", chars "logging.level"⟩,
   ⟨chars "TCP_SERVER__metrics__enabled", chars "metrics.enabled"⟩]

/-- The loop over the overrides. A variable that is set is applied like an assignment
of the file, and the first that is refused ends the load, with the name of the
variable in front of the message. -/
def applyEnv (getenv : Text → Option Text) (cfg : ServerConfig) :
    List EnvKey → Except ConfigLoadError ServerConfig
  | [] => .ok cfg
  | ek :: rest =>
      match getenv ek.env with
      | none => applyEnv getenv cfg rest
      | some v =>
          match applyKeyValue cfg ek.key v with
          | .error err =>
              .error { err with
                line := 0
                message := chars "env " ++ ek.env ++ chars ": " ++ err.message }
          | .ok cfg => applyEnv getenv cfg rest

/-- `load_config_from_file`: the defaults, changed by the lines of the file and then
by the environment. `file` is none when the file cannot be opened. -/
def loadConfigFromFile (path : Text) (file : Option Stream) (getenv : Text → Option Text) :
    Except ConfigLoadError ServerConfig :=
  match file with
  | none => .error ⟨.fileOpenFailed, chars "failed to open config file: " ++ path, 0⟩
  | some stream =>
      match readLines {} 0 stream.lines with
      | .error err => .error err
      | .ok cfg => applyEnv getenv cfg envKeys

example :
    loadConfigFromFile (chars "cfg")
        (some (.ofText (chars "# comment\nlisten.host = a=b\r\nlisten.port=1000")))
        (fun name => if name = chars "TCP_SERVER__listen__port" then some (chars "2000") else none) =
      .ok { listen := ⟨chars "a=b", 2000⟩ } := by
  decide

end TcpServer.Config
