import TcpServer.ConfigReadFailure

/-!
# The configuration validator

`validateConfig` embeds `validate_config`, whose checks stand in one fixed order. Behind
the loader it sees, for each key, the value of the environment, of the last line that
assigns it, or the default. So a configuration is accepted exactly when every source is
valid and the value chosen for each required key passes its checks; a refusal names the
first key whose chosen value does not.
-/

namespace TcpServer.Config

open TextLines (lines)

/-- The codes of a validation. No check reports the last of them, which the source
declares and does not use. -/
inductive ValidateCode where
  | missingRequiredValue
  | outOfRange
  | invalidCombination
deriving DecidableEq, Repr

/-- The error of a validation; its text begins with the key it is about, as it is
written in a file. -/
structure ConfigValidateError where
  code : ValidateCode
  message : Text
deriving DecidableEq, Repr

/-- The error of a field that is required and zero. Zero is also what a field has that
no line assigns. -/
def missing (message : String) : ConfigValidateError := ⟨.missingRequiredValue, chars message⟩

/-- The error of a field beyond its bound. One field has a bound of its own besides
its type. -/
def outOfRange (message : String) : ConfigValidateError := ⟨.outOfRange, chars message⟩

/-- One gibibyte: the largest limit on messages that the validator takes. -/
def kMaxReasonableMessageBytes : UInt64 := 1024 * 1024 * 1024

/-- `validate_config`: the checks in their order; the first that fails is reported,
and the later ones are not made. -/
def validateConfig (cfg : ServerConfig) : Option ConfigValidateError :=
  if cfg.listen.port = 0 then some (missing "listen.port is required and must be > 0")
  else if cfg.limits.maxConnections = 0 then
    some (missing "limits.max_connections is required and must be > 0")
  else if cfg.limits.maxMessageBytes = 0 then
    some (missing "limits.max_message_bytes is required and must be > 0")
  else if cfg.timeouts.idleMs = 0 then
    some (missing "timeouts.idle_ms is required and must be > 0")
  else if cfg.runtime.workerThreads = 0 then
    some (missing "runtime.worker_threads is required and must be > 0")
  else if cfg.limits.maxMessageBytes > kMaxReasonableMessageBytes then
    some (outOfRange "limits.max_message_bytes is unreasonably large (> 1 GiB)")
  else none

/-- A check of the value of one key, with the error that it reports. The texts of all
errors are a key and a complaint. -/
structure Check where
  key : Key
  passes : key.Value → Bool
  code : ValidateCode
  complaint : String

/-- The check that a value is there, that is, that it is not zero. -/
def required (key : Key) (passes : key.Value → Bool) : Check :=
  ⟨key, passes, .missingRequiredValue, " is required and must be > 0"⟩

/-- The checks in their order. This is the order of the source, in which three keys
have no check and one has two. -/
def checks : List Check :=
  [required .listenPort fun (port : UInt16) => port != 0,
   required .maxConnections fun (connections : UInt32) => connections != 0,
   required .maxMessageBytes fun (bytes : UInt64) => bytes != 0,
   required .idleMs fun (milliseconds : UInt32) => milliseconds != 0,
   required .workerThreads fun (threads : UInt32) => threads != 0,
   ⟨.maxMessageBytes, fun (bytes : UInt64) => decide (bytes ≤ kMaxReasonableMessageBytes),
     .outOfRange, " is unreasonably large (> 1 GiB)"⟩]

/-- Whether a configuration passes a check. It depends on the field of one key. -/
def Check.holds (check : Check) (cfg : ServerConfig) : Bool := check.passes (check.key.get cfg)

/-- The error of a check begins with its key, followed by what is wrong with the
value. -/
def Check.error (check : Check) : ConfigValidateError :=
  ⟨check.code, check.key.text ++ chars check.complaint⟩

/-- The validator reports the first check that does not hold. -/
theorem validate_first (cfg : ServerConfig) :
    validateConfig cfg = (checks.find? fun check => !check.holds cfg).map Check.error := by
  by_cases port : cfg.listen.port = 0
  · simp [validateConfig, checks, Check.holds, required, Key.get, port]
    rfl
  by_cases connections : cfg.limits.maxConnections = 0
  · simp [validateConfig, checks, Check.holds, required, Key.get, port, connections]
    rfl
  by_cases bytes : cfg.limits.maxMessageBytes = 0
  · simp [validateConfig, checks, Check.holds, required, Key.get, port, connections, bytes]
    rfl
  by_cases idle : cfg.timeouts.idleMs = 0
  · simp [validateConfig, checks, Check.holds, required, Key.get, port, connections, bytes, idle]
    rfl
  by_cases threads : cfg.runtime.workerThreads = 0
  · simp [validateConfig, checks, Check.holds, required, Key.get, port, connections, bytes, idle,
      threads]
    rfl
  by_cases large : cfg.limits.maxMessageBytes ≤ kMaxReasonableMessageBytes
  · have within := UInt64.not_lt.mpr large
    simp [validateConfig, checks, Check.holds, required, Key.get, port, connections, bytes, idle,
      threads, large, within]
  · have exceeds := UInt64.not_le.mp large
    simp [validateConfig, checks, Check.holds, required, Key.get, port, connections, bytes, idle,
      threads, large, exceeds]
    rfl

/-- A configuration passes when all checks hold. -/
theorem validate_none_iff (cfg : ServerConfig) :
    validateConfig cfg = none ↔ ∀ check ∈ checks, check.holds cfg = true := by
  rw [validate_first, Option.map_eq_none_iff, List.find?_eq_none]
  simp

/-- A refusal is for a check behind checks that hold. -/
theorem validate_some_cases {cfg : ServerConfig} {err : ConfigValidateError}
    (refused : validateConfig cfg = some err) :
    ∃ before check after, checks = before ++ check :: after ∧ err = check.error ∧
      check.holds cfg = false ∧ ∀ earlier ∈ before, earlier.holds cfg = true := by
  rw [validate_first, Option.map_eq_some_iff] at refused
  obtain ⟨check, found, rfl⟩ := refused
  obtain ⟨fails, before, after, split, earlier⟩ := List.find?_eq_some_iff_append.mp found
  exact ⟨before, check, after, split, rfl, by simpa using fails, by simpa using earlier⟩

section Sources

variable (getenv : Text → Option Text)

/-- The value that the sources settle for a key: that of the environment, of the last
line that assigns it, or the default. -/
def Chosen (text : List Text) (key : Key) (value : key.Value) : Prop :=
  (∃ v, (key.text, v) ∈ overrides getenv envKeys ∧ key.Spells v value) ∨
  (∀ v, (key.text, v) ∉ overrides getenv envKeys) ∧
    (LastAssigned text key value ∨ Unassigned text key ∧ value = key.get {})

/-- A key is assigned by no line, or by a last one. -/
theorem last_assigned_cases (text : List Text) (key : Key) :
    Unassigned text key ∨ ∃ value, LastAssigned text key value := by
  induction text with
  | nil => exact .inl fun _ member => absurd member List.not_mem_nil
  | cons line rest inductionHypothesis =>
    rcases inductionHypothesis with unassigned | ⟨value, before, last, after, rfl, assigns, later⟩
    · by_cases assigned : ∃ value, Assigns line key value
      · obtain ⟨value, assigns⟩ := assigned
        exact .inr ⟨value, [], line, rest, rfl, assigns, unassigned⟩
      · refine .inl fun other member value assigns => ?_
        rcases List.mem_cons.mp member with rfl | behind
        · exact assigned ⟨value, assigns⟩
        · exact unassigned other behind value assigns
    · exact .inr ⟨value, line :: before, last, after, rfl, assigns, later⟩

/-- A text spells one value. -/
theorem spells_unique {key : Key} {text : Text} {value other : key.Value}
    (first : key.Spells text value) (second : key.Spells text other) : value = other :=
  Option.some.inj
    (((parse_iff key text value).mpr first).symm.trans ((parse_iff key text other).mpr second))

/-- What was loaded, behind the file and behind the overrides. -/
theorem loaded_cases {path text : Text} {cfg : ServerConfig}
    (loaded : loadConfigFromFile path (some (.ofText text)) getenv = .ok cfg) :
    ∃ file, Yields (lines newline text) {} file ∧
      settle id file (overrides getenv envKeys) = .ok cfg := by
  rw [load_environment] at loaded
  cases read : readLines {} 0 (lines newline text) with
  | error err =>
    rw [read] at loaded
    cases loaded
  | ok file =>
    rw [read] at loaded
    exact ⟨file, read_lines_yields _ _ _ 0 read, (apply_env_accepted_iff getenv file cfg).mp loaded⟩

/-- The loader stores the chosen value of every key and nothing else. Proof: behind
the file the overrides are settled in their order; a key with one holds its value, and
one without keeps what the lines have made of it. -/
theorem loaded_chosen {path text : Text} {cfg : ServerConfig}
    (loaded : loadConfigFromFile path (some (.ofText text)) getenv = .ok cfg) (key : Key)
    (value : key.Value) :
    Chosen getenv (lines newline text) key value ↔ value = key.get cfg := by
  obtain ⟨file, yields, settled⟩ := loaded_cases getenv loaded
  have known := overrides_known getenv
  have stored (v : Text) (set : (key.text, v) ∈ overrides getenv envKeys) :
      key.Spells v (key.get cfg) :=
    settle_values id _ known (overrides_once getenv) file cfg settled key v set
  have kept (unset : ∀ v, (key.text, v) ∉ overrides getenv envKeys) :
      key.get cfg = key.get file := by
    refine settle_other id _ known key (fun member => ?_) file cfg settled
    obtain ⟨⟨name, v⟩, set, rfl⟩ := List.mem_map.mp member
    exact unset v set
  constructor
  · rintro (⟨v, set, spells⟩ | ⟨unset, last | ⟨unassigned, rfl⟩⟩)
    · exact spells_unique spells (stored v set)
    · rw [kept unset, yields_last _ key value last {} file yields]
    · rw [kept unset, yields_unassigned _ key unassigned {} file yields]
  · rintro rfl
    by_cases overridden : ∃ v, (key.text, v) ∈ overrides getenv envKeys
    · obtain ⟨v, set⟩ := overridden
      exact .inl ⟨v, set, stored v set⟩
    · have unset := not_exists.mp overridden
      refine .inr ⟨unset, ?_⟩
      rcases last_assigned_cases (lines newline text) key with unassigned | ⟨value, last⟩
      · refine .inr ⟨unassigned, ?_⟩
        rw [kept unset, yields_unassigned _ key unassigned {} file yields]
      · refine .inl ?_
        rw [kept unset, yields_last _ key value last {} file yields]
        exact last

/-- The loader accepts a file exactly when its lines and all overrides are valid. -/
theorem loaded_iff (path text : Text) :
    (∃ cfg, loadConfigFromFile path (some (.ofText text)) getenv = .ok cfg) ↔
      (∀ line ∈ lines newline text, Grammatical line) ∧ ¬ InvalidOverride getenv := by
  constructor
  · rintro ⟨cfg, loaded⟩
    obtain ⟨file, yields, settled⟩ := loaded_cases getenv loaded
    refine ⟨yields_grammatical _ _ file yields, ?_⟩
    rintro ⟨key, v, set, invalid⟩
    exact invalid _ (settle_values id _ (overrides_known getenv) (overrides_once getenv) file cfg
      settled key v set)
  · rintro ⟨grammatical, valid⟩
    cases loaded : loadConfigFromFile path (some (.ofText text)) getenv with
    | ok cfg => exact ⟨cfg, rfl⟩
    | error err =>
      exact absurd ((load_valid_refused_iff getenv path (.ofText text) grammatical).mp
        ⟨err, loaded⟩) valid

/-- A configuration is loaded and valid exactly when every line of the file and every
override is valid and the value chosen for each key passes its checks. A loaded one that
is refused is refused for the first check that the chosen value does not pass. -/
theorem startup_exact (path text : Text) :
    ((∃ cfg, loadConfigFromFile path (some (.ofText text)) getenv = .ok cfg ∧
        validateConfig cfg = none) ↔
      (∀ line ∈ lines newline text, Grammatical line) ∧ ¬ InvalidOverride getenv ∧
        ∀ check ∈ checks, ∀ value, Chosen getenv (lines newline text) check.key value →
          check.passes value = true) ∧
    ∀ cfg err, loadConfigFromFile path (some (.ofText text)) getenv = .ok cfg →
      validateConfig cfg = some err →
      ∃ before check after, checks = before ++ check :: after ∧ err = check.error ∧
        (∃ value, Chosen getenv (lines newline text) check.key value ∧
          check.passes value = false) ∧
        ∀ earlier ∈ before, ∀ value, Chosen getenv (lines newline text) earlier.key value →
          earlier.passes value = true := by
  have chosen_holds {cfg : ServerConfig}
      (loaded : loadConfigFromFile path (some (.ofText text)) getenv = .ok cfg) (check : Check) :
      check.holds cfg = true ↔ ∀ value, Chosen getenv (lines newline text) check.key value →
        check.passes value = true := by
    simp only [loaded_chosen getenv loaded, forall_eq]
    rfl
  constructor
  · constructor
    · rintro ⟨cfg, loaded, valid⟩
      obtain ⟨grammatical, overridden⟩ := (loaded_iff getenv path text).mp ⟨cfg, loaded⟩
      refine ⟨grammatical, overridden, fun check member => ?_⟩
      exact (chosen_holds loaded check).mp ((validate_none_iff cfg).mp valid check member)
    · rintro ⟨grammatical, overridden, pass⟩
      obtain ⟨cfg, loaded⟩ := (loaded_iff getenv path text).mpr ⟨grammatical, overridden⟩
      refine ⟨cfg, loaded, (validate_none_iff cfg).mpr fun check member => ?_⟩
      exact (chosen_holds loaded check).mpr (pass check member)
  · intro cfg err loaded refused
    obtain ⟨before, check, after, split, reported, fails, earlier⟩ := validate_some_cases refused
    refine ⟨before, check, after, split, reported, ?_, ?_⟩
    · exact ⟨check.key.get cfg, (loaded_chosen getenv loaded check.key _).mpr rfl, fails⟩
    · exact fun other member => (chosen_holds loaded other).mp (earlier other member)

end Sources

/-- A file with all required keys; its port is not one to listen on, so the load
succeeds and the validation does not. -/
def portlessFile : Text :=
  chars "listen.port=0\nlimits.max_connections=8\nlimits.max_message_bytes=4096\n" ++
    chars "timeouts.idle_ms=1000\nruntime.worker_threads=2"

/-- The port from the environment is the one that is checked. -/
theorem startup_exact_port :
    ∀ check ∈ checks, ∀ value,
      Chosen (onlyVariable (chars "TCP_SERVER__listen__port") (chars "8080"))
        (lines newline portlessFile) check.key value → check.passes value = true :=
  ((startup_exact (onlyVariable (chars "TCP_SERVER__listen__port") (chars "8080"))
    (chars "server.cfg") portlessFile).1.mp
      ⟨{ listen := ⟨[], 8080⟩, limits := ⟨8, 4096⟩, timeouts := ⟨1000⟩, runtime := ⟨2⟩ },
        by decide +kernel, by decide⟩).2.2

end TcpServer.Config
