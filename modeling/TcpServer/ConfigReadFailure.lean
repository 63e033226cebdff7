import TcpServer.ConfigOverrides

/-!
# Read failures of the configuration file

`std::getline` fails at the end of the file and when reading fails, and the loop
of the loader ends at either. What was read before a failure is taken for the
whole file. The loader then fails for one reason only, a value in the
environment that its key does not take.
-/

namespace TcpServer.Config

/-- The stream of a file whose reading fails behind the given number of lines. The
loop of the loader ends there as at the end of the file. -/
def failingAfter (position : Nat) (text : List Text) : Stream := ⟨text.take position, .failure⟩

/-- A set variable has a value that its key does not take, so that the load must fail
at the overrides. -/
def InvalidOverride (getenv : Text → Option Text) : Prop :=
  ∃ key : Key, ∃ v, (key.text, v) ∈ overrides getenv envKeys ∧ ∀ value, ¬ key.Spells v value

section Loading

variable (getenv : Text → Option Text)

/-- The overrides are refused exactly when one of them is invalid, whatever the file
has set before. -/
theorem apply_env_refused_iff (cfg : ServerConfig) :
    (∃ err, applyEnv getenv cfg envKeys = .error err) ↔ InvalidOverride getenv := by
  constructor
  · rintro ⟨err, refused⟩
    cases settled : settle id cfg (overrides getenv envKeys) with
    | error refusal =>
      obtain ⟨before, key, v, after, split, _, _, invalid⟩ :=
        settle_refused id _ (overrides_known getenv) cfg refusal settled
      exact ⟨key, v, split ▸ List.mem_append_right before List.mem_cons_self, invalid⟩
    | ok final =>
      rw [apply_env_settles getenv envKeys cfg final settled] at refused
      cases refused
  · rintro ⟨key, v, set, invalid⟩
    cases applied : applyEnv getenv cfg envKeys with
    | error err => exact ⟨err, rfl⟩
    | ok final =>
      have settled := (apply_env_accepted_iff getenv cfg final).mp applied
      have spelled := settle_values id _ (overrides_known getenv) (overrides_once getenv) cfg final
        settled key v set
      exact absurd spelled (invalid _)

/-- Where the delivered lines are valid, only the environment can make the loader
fail. -/
theorem load_valid_refused_iff (path : Text) (stream : Stream)
    (valid : ∀ line ∈ stream.lines, Grammatical line) :
    (∃ err, loadConfigFromFile path (some stream) getenv = .error err) ↔
      InvalidOverride getenv := by
  obtain ⟨cfg, yields⟩ := grammatical_yields stream.lines valid {}
  have read := yields_read_lines stream.lines {} cfg yields 0
  simp only [loadConfigFromFile, read]
  exact apply_env_refused_iff getenv cfg

/-- A read that fails behind any number of valid lines makes the loader return an
error exactly when an override is invalid. -/
theorem failed_read_refused_iff (path : Text) (text : List Text)
    (valid : ∀ line ∈ text, Grammatical line) (position : Nat) :
    (∃ err, loadConfigFromFile path (some (failingAfter position text)) getenv = .error err) ↔
      InvalidOverride getenv :=
  load_valid_refused_iff getenv path (failingAfter position text)
    fun line delivered => valid line (List.mem_of_mem_take delivered)

end Loading

/-- The lines of a file with two assignments, of which a read may deliver one only. -/
def twoAssignments : List Text := [chars "listen.port=8080", chars "limits.max_connections=100"]

/-- Both lines are grammatical, as reading them shows. -/
theorem two_assignments_valid : ∀ line ∈ twoAssignments, Grammatical line := by
  have read : readLines {} 0 twoAssignments =
      .ok { listen := ⟨[], 8080⟩, limits := ⟨100, 0⟩ } := by decide
  exact yields_grammatical _ _ _ ((read_lines_iff _ _ _ 0).mp read)

/-- Behind a failed read the loader still refuses a port that is no number. It is the
override that it refuses, not the file. -/
theorem failed_read_refused_port :
    ∃ err, loadConfigFromFile (chars "server.cfg") (some (failingAfter 1 twoAssignments))
      (onlyVariable (chars "TCP_SERVER__listen__port") (chars "none")) = .error err := by
  have invalid :
      InvalidOverride (onlyVariable (chars "TCP_SERVER__listen__port") (chars "none")) := by
    refine ⟨.listenPort, chars "none", by decide, ?_⟩
    rintro value ⟨_, digits, _⟩
    exact absurd (digits 0x6E (by decide)) (by decide)
  exact (failed_read_refused_iff (onlyVariable (chars "TCP_SERVER__listen__port") (chars "none"))
    (chars "server.cfg") twoAssignments two_assignments_valid 1).mpr invalid

/-- Reading fails behind the first line, and the loader returns a configuration that
has no connection limit. -/
theorem failed_read_not_always_refused :
    ¬ ∀ (path : Text) (text : List Text), (∀ line ∈ text, Grammatical line) →
      ∀ (position : Nat) (getenv : Text → Option Text),
        ∃ err, loadConfigFromFile path (some (failingAfter position text)) getenv = .error err := by
  intro refused
  obtain ⟨err, failed⟩ := refused (chars "server.cfg") twoAssignments two_assignments_valid 1
    (fun _ => none)
  have loaded : loadConfigFromFile (chars "server.cfg") (some (failingAfter 1 twoAssignments))
      (fun _ => none) = .ok { listen := ⟨[], 8080⟩ } := by decide
  rw [loaded] at failed
  cases failed

end TcpServer.Config
