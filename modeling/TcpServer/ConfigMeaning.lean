import TcpServer.ConfigGrammar

/-!
# The meaning of a configuration file

The lines of a file turn one configuration into another: skipped lines leave it
as it is, the others assign. The loop of the loader computes this relation, and
where the relation has no outcome it reports the first offending line. All that
remains of a file is, for every key, the value of the last line assigning it.
-/

namespace TcpServer.Config

open TextLines (lines)

/-- Reading the lines turns the first configuration into the second. There is no rule
for a line that offends. -/
inductive Yields : List Text → ServerConfig → ServerConfig → Prop
  | done (cfg : ServerConfig) : Yields [] cfg cfg
  | skip (line : Text) (rest : List Text) (cfg final : ServerConfig) (skipped : Skipped line)
      (later : Yields rest cfg final) : Yields (line :: rest) cfg final
  | assign (line : Text) (rest : List Text) (key : Key) (value : key.Value)
      (cfg final : ServerConfig) (assigns : Assigns line key value)
      (later : Yields rest (key.set value cfg) final) : Yields (line :: rest) cfg final

/-- The last line that assigns the key assigns the value. What earlier lines assign to
it does not matter. -/
def LastAssigned (text : List Text) (key : Key) (value : key.Value) : Prop :=
  ∃ before line after, text = before ++ line :: after ∧ Assigns line key value ∧
    ∀ later ∈ after, ∀ other, ¬ Assigns later key other

/-- No line assigns the key, so that it keeps its default. -/
def Unassigned (text : List Text) (key : Key) : Prop :=
  ∀ line ∈ text, ∀ value, ¬ Assigns line key value

/-- Inserting skipped lines anywhere, and exchanging neighbours that do not assign
the same key. -/
inductive Rearranges : List Text → List Text → Prop
  | same (text : List Text) : Rearranges text text
  | insert (text before after : List Text) (line : Text)
      (earlier : Rearranges text (before ++ after)) (skipped : Skipped line) :
      Rearranges text (before ++ line :: after)
  | exchange (text before after : List Text) (first second : Text)
      (earlier : Rearranges text (before ++ first :: second :: after))
      (apart : ∀ key value other, Assigns first key value → ¬ Assigns second key other) :
      Rearranges text (before ++ second :: first :: after)

section Yielding

/-- The loop computes the relation. Induct over the lines, with the cases of the
first one. -/
theorem read_lines_yields (text : List Text) (cfg final : ServerConfig) (lineNo : Nat)
    (read : readLines cfg lineNo text = .ok final) : Yields text cfg final := by
  induction text generalizing cfg lineNo with
  | nil =>
    cases read
    exact .done _
  | cons line rest inductionHypothesis =>
    rw [readLines] at read
    obtain (skipped | ⟨key, value, assigns⟩) | ⟨code, offends⟩ := line_cases line
    · rw [read_line_skipped cfg _ line skipped] at read
      exact .skip line rest cfg final skipped (inductionHypothesis _ _ read)
    · rw [read_line_assigns cfg _ line key value assigns] at read
      exact .assign line rest key value cfg final assigns (inductionHypothesis _ _ read)
    · obtain ⟨message, refused⟩ := read_line_offends cfg (lineNo + 1) line code offends
      rw [refused] at read
      cases read

/-- The loop over the lines computes what the lines mean, from whatever number it
counts. -/
theorem yields_read_lines (text : List Text) (cfg final : ServerConfig)
    (yields : Yields text cfg final) (lineNo : Nat) : readLines cfg lineNo text = .ok final := by
  induction yields generalizing lineNo with
  | done => rfl
  | skip line rest cfg final skipped _ inductionHypothesis =>
    rw [readLines, read_line_skipped cfg _ line skipped]
    exact inductionHypothesis _
  | assign line rest key value cfg final assigns _ inductionHypothesis =>
    rw [readLines, read_line_assigns cfg _ line key value assigns]
    exact inductionHypothesis _

/-- Whatever the number of its first line, a text is read to the same end. -/
theorem read_lines_iff (text : List Text) (cfg final : ServerConfig) (lineNo : Nat) :
    readLines cfg lineNo text = .ok final ↔ Yields text cfg final :=
  ⟨read_lines_yields text cfg final lineNo, fun yields => yields_read_lines text cfg final yields _⟩

/-- Lines with a meaning are grammatical. The derivation has one rule for a line that
is skipped and one for a line that assigns, and no others. -/
theorem yields_grammatical (text : List Text) (cfg final : ServerConfig)
    (yields : Yields text cfg final) : ∀ line ∈ text, Grammatical line := by
  induction yields with
  | done => exact fun _ absent => absurd absent List.not_mem_nil
  | skip line rest cfg final skipped _ inductionHypothesis =>
    exact List.forall_mem_cons.mpr ⟨.inl skipped, inductionHypothesis⟩
  | assign line rest key value cfg final assigns _ inductionHypothesis =>
    exact List.forall_mem_cons.mpr ⟨.inr ⟨key, value, assigns⟩, inductionHypothesis⟩

/-- Grammatical lines have a meaning, from every configuration. Proof: by induction on
the lines, each of which is skipped or assigns. -/
theorem grammatical_yields (text : List Text) (grammatical : ∀ line ∈ text, Grammatical line)
    (cfg : ServerConfig) : ∃ final, Yields text cfg final := by
  induction text generalizing cfg with
  | nil => exact ⟨cfg, .done cfg⟩
  | cons line rest inductionHypothesis =>
    obtain ⟨first, others⟩ := List.forall_mem_cons.mp grammatical
    obtain skipped | ⟨key, value, assigns⟩ := first
    · obtain ⟨final, later⟩ := inductionHypothesis others cfg
      exact ⟨final, .skip line rest cfg final skipped later⟩
    · obtain ⟨final, later⟩ := inductionHypothesis others (key.set value cfg)
      exact ⟨final, .assign line rest key value cfg final assigns later⟩

/-- A text that is not read to its end is refused at its first offending line, under
the code of the offence and its 1-based number. Proof: by induction on the lines, with
the counter generalised. -/
theorem read_lines_refused (text : List Text) (cfg : ServerConfig) (lineNo : Nat)
    (err : ConfigLoadError) (refused : readLines cfg lineNo text = .error err) :
    ∃ before line after, text = before ++ line :: after ∧
      (∀ earlier ∈ before, Grammatical earlier) ∧ Offends line err.code ∧
      err.line = lineNo + before.length + 1 := by
  induction text generalizing cfg lineNo with
  | nil => cases refused
  | cons line rest inductionHypothesis =>
    have passed (next : ServerConfig) (grammatical : Grammatical line)
        (later : readLines next (lineNo + 1) rest = .error err) :
        ∃ before offender after, line :: rest = before ++ offender :: after ∧
          (∀ earlier ∈ before, Grammatical earlier) ∧ Offends offender err.code ∧
          err.line = lineNo + before.length + 1 := by
      obtain ⟨before, offender, after, split, earlier, offends, number⟩ :=
        inductionHypothesis next _ later
      refine ⟨line :: before, offender, after, by rw [split]; rfl, ?_, offends, ?_⟩
      · exact List.forall_mem_cons.mpr ⟨grammatical, earlier⟩
      · rw [number, List.length_cons]
        omega
    rw [readLines] at refused
    obtain (skipped | ⟨key, value, assigns⟩) | ⟨code, offends⟩ := line_cases line
    · rw [read_line_skipped cfg _ line skipped] at refused
      exact passed cfg (.inl skipped) refused
    · rw [read_line_assigns cfg _ line key value assigns] at refused
      exact passed _ (.inr ⟨key, value, assigns⟩) refused
    · obtain ⟨message, stopped⟩ := read_line_offends cfg (lineNo + 1) line code offends
      rw [stopped] at refused
      cases refused
      exact ⟨[], line, rest, rfl, fun _ absent => absurd absent List.not_mem_nil, offends, rfl⟩

end Yielding

section Composition

/-- What two texts mean one after the other goes through a configuration in the
middle. The laws on rearranging lines rest on it. -/
theorem yields_append (before after : List Text) (cfg final : ServerConfig) :
    Yields (before ++ after) cfg final ↔
      ∃ middle, Yields before cfg middle ∧ Yields after middle final := by
  constructor
  · intro yields
    induction before generalizing cfg with
    | nil => exact ⟨cfg, .done cfg, yields⟩
    | cons line before inductionHypothesis =>
      cases yields with
      | skip _ _ _ _ skipped later =>
        obtain ⟨middle, front, back⟩ := inductionHypothesis cfg later
        exact ⟨middle, .skip line before cfg middle skipped front, back⟩
      | assign _ _ key value _ _ assigns later =>
        obtain ⟨middle, front, back⟩ := inductionHypothesis _ later
        exact ⟨middle, .assign line before key value cfg middle assigns front, back⟩
  · rintro ⟨middle, front, back⟩
    induction front with
    | done => exact back
    | skip line rest cfg middle skipped _ inductionHypothesis =>
      exact .skip line (rest ++ after) cfg final skipped (inductionHypothesis back)
    | assign line rest key value cfg middle assigns _ inductionHypothesis =>
      exact .assign line (rest ++ after) key value cfg final assigns (inductionHypothesis back)

/-- Equivalent texts may be exchanged behind any other text. -/
theorem yields_append_congr (before text other : List Text)
    (same : ∀ cfg final, Yields text cfg final ↔ Yields other cfg final)
    (cfg final : ServerConfig) :
    Yields (before ++ text) cfg final ↔ Yields (before ++ other) cfg final := by
  simp only [yields_append, same]

/-- A skipped line at the front can be left out. -/
theorem yields_skipped (line : Text) (rest : List Text) (skipped : Skipped line)
    (cfg final : ServerConfig) : Yields (line :: rest) cfg final ↔ Yields rest cfg final := by
  constructor
  · intro yields
    cases yields with
    | skip _ _ _ _ _ later => exact later
    | assign _ _ _ _ _ _ assigns _ => exact absurd skipped assigns.1
  · exact .skip line rest cfg final skipped

/-- An assignment at the front is made first; it has one key and one value. -/
theorem yields_assigns (line : Text) (rest : List Text) (key : Key) (value : key.Value)
    (assigns : Assigns line key value) (cfg final : ServerConfig) :
    Yields (line :: rest) cfg final ↔ Yields rest (key.set value cfg) final := by
  constructor
  · intro yields
    cases yields with
    | skip _ _ _ _ skipped _ => exact absurd skipped assigns.1
    | assign _ _ other otherValue _ _ otherAssigns later =>
      cases assigns_unique line key other value otherValue assigns otherAssigns
      exact later
  · exact .assign line rest key value cfg final assigns

/-- Neighbours that do not assign the same key may be exchanged. -/
theorem yields_exchange (first second : Text) (rest : List Text)
    (apart : ∀ key value other, Assigns first key value → ¬ Assigns second key other)
    (cfg final : ServerConfig) (yields : Yields (first :: second :: rest) cfg final) :
    Yields (second :: first :: rest) cfg final := by
  cases yields with
  | skip _ _ _ _ skipped later =>
    cases later with
    | skip _ _ _ _ secondSkipped later =>
      exact .skip _ _ _ _ secondSkipped (.skip _ _ _ _ skipped later)
    | assign _ _ key value _ _ assigns later =>
      exact .assign _ _ key value _ _ assigns (.skip _ _ _ _ skipped later)
  | assign _ _ key value _ _ assigns later =>
    cases later with
    | skip _ _ _ _ secondSkipped later =>
      exact .skip _ _ _ _ secondSkipped (.assign _ _ key value _ _ assigns later)
    | assign _ _ other otherValue _ _ otherAssigns later =>
      have different : other ≠ key := by
        rintro rfl
        exact apart other value otherValue assigns otherAssigns
      rw [set_set_comm other key different] at later
      exact .assign _ _ other otherValue _ _ otherAssigns (.assign _ _ key value _ _ assigns later)

/-- Rearranging a text does not change what it yields. -/
theorem rearranges_yields (text other : List Text) (rearranged : Rearranges text other)
    (cfg final : ServerConfig) : Yields text cfg final ↔ Yields other cfg final := by
  induction rearranged generalizing cfg final with
  | same => rfl
  | insert before after line _ skipped inductionHypothesis =>
    rw [inductionHypothesis]
    exact yields_append_congr before _ _ (fun cfg final =>
      (yields_skipped line after skipped cfg final).symm) cfg final
  | exchange before after first second _ apart inductionHypothesis =>
    rw [inductionHypothesis]
    apply yields_append_congr
    intro cfg final
    constructor
    · exact yields_exchange first second after apart cfg final
    · apply yields_exchange second first after
      exact fun key value otherValue assigns otherAssigns =>
        apart key otherValue value otherAssigns assigns

end Composition

section Values

/-- A key that no line assigns keeps its value. -/
theorem yields_unassigned (text : List Text) (key : Key) (unassigned : Unassigned text key)
    (cfg final : ServerConfig) (yields : Yields text cfg final) :
    key.get final = key.get cfg := by
  induction yields with
  | done => rfl
  | skip line rest cfg final _ _ inductionHypothesis =>
    exact inductionHypothesis fun later member => unassigned later (List.mem_cons_of_mem _ member)
  | assign line rest other value cfg final assigns _ inductionHypothesis =>
    have different : key ≠ other := by
      rintro rfl
      exact unassigned line List.mem_cons_self value assigns
    rw [inductionHypothesis fun later member => unassigned later (List.mem_cons_of_mem _ member)]
    exact get_set_other key other different value cfg

/-- A key has the value of the last line that assigns it: that line sets it, and none
behind it does. -/
theorem yields_last (text : List Text) (key : Key) (value : key.Value)
    (last : LastAssigned text key value) (cfg final : ServerConfig)
    (yields : Yields text cfg final) : key.get final = value := by
  obtain ⟨before, line, after, rfl, assigns, untouched⟩ := last
  obtain ⟨middle, _, back⟩ := (yields_append before _ cfg final).mp yields
  have behind := (yields_assigns line after key value assigns middle final).mp back
  rw [yields_unassigned after key untouched _ final behind]
  exact get_set_same key value middle

end Values

section Loading

variable (getenv : Text → Option Text)

/-- Without overrides the environment changes nothing. -/
theorem apply_env_unset (cfg : ServerConfig) (keys : List EnvKey)
    (unset : ∀ ek ∈ keys, getenv ek.env = none) : applyEnv getenv cfg keys = .ok cfg := by
  induction keys with
  | nil => rfl
  | cons ek rest inductionHypothesis =>
    obtain ⟨first, others⟩ := List.forall_mem_cons.mp unset
    rw [applyEnv, first]
    exact inductionHypothesis others

/-- Without overrides the loader does nothing but read the lines. -/
theorem load_unset (path text : Text) (unset : ∀ ek ∈ envKeys, getenv ek.env = none) :
    loadConfigFromFile path (some (.ofText text)) getenv =
      readLines {} 0 (lines newline text) := by
  simp only [loadConfigFromFile, Stream.ofText]
  cases readLines {} 0 (lines newline text) with
  | error err => rfl
  | ok cfg => exact apply_env_unset getenv cfg envKeys unset

/-- The loader accepts exactly its grammar, every field holds what the last line
for it says, rearranging the lines changes nothing, and a refusal is for the
first offending line. -/
theorem grammar_exact (path text : Text) (unset : ∀ ek ∈ envKeys, getenv ek.env = none) :
    ((∃ cfg, loadConfigFromFile path (some (.ofText text)) getenv = .ok cfg) ↔
      ∀ line ∈ lines newline text, Grammatical line) ∧
    (∀ cfg, loadConfigFromFile path (some (.ofText text)) getenv = .ok cfg → ∀ key : Key,
      (∀ value, LastAssigned (lines newline text) key value → key.get cfg = value) ∧
      (Unassigned (lines newline text) key → key.get cfg = key.get {})) ∧
    (∀ other, Rearranges (lines newline text) (lines newline other) → ∀ cfg,
      loadConfigFromFile path (some (.ofText text)) getenv = .ok cfg ↔
        loadConfigFromFile path (some (.ofText other)) getenv = .ok cfg) ∧
    ((∃ line ∈ lines newline text, ¬ Grammatical line) →
      ∃ err, loadConfigFromFile path (some (.ofText text)) getenv = .error err ∧
        ∃ before line after, lines newline text = before ++ line :: after ∧
          (∀ earlier ∈ before, Grammatical earlier) ∧ Offends line err.code ∧
          err.line = before.length + 1) := by
  simp only [load_unset getenv path _ unset, read_lines_iff]
  refine ⟨⟨?_, ?_⟩, ?_, ?_, ?_⟩
  · rintro ⟨cfg, yields⟩
    exact yields_grammatical _ _ cfg yields
  · intro grammatical
    exact grammatical_yields _ grammatical {}
  · intro cfg yields key
    exact ⟨fun value last => yields_last _ key value last {} cfg yields,
      fun unassigned => yields_unassigned _ key unassigned {} cfg yields⟩
  · intro other rearranged cfg
    exact rearranges_yields _ _ rearranged {} cfg
  · rintro ⟨line, member, ungrammatical⟩
    cases read : readLines {} 0 (lines newline text) with
    | ok cfg =>
      have yields := (read_lines_iff _ _ cfg 0).mp read
      exact absurd (yields_grammatical _ _ cfg yields line member) ungrammatical
    | error err =>
      obtain ⟨before, line, after, split, earlier, offends, number⟩ :=
        read_lines_refused _ _ 0 err read
      exact ⟨err, rfl, before, line, after, split, earlier, offends, by omega⟩

/-- A comment and an assignment between blanks and a carriage return: the file is accepted,
the port is the assigned one, and the limit has its default. -/
theorem grammar_exact_no_overrides :
    ∃ cfg, loadConfigFromFile (chars "server.cfg")
        (some (.ofText (chars "# listener\nlisten.port = 8080\r\n"))) (fun _ => none) = .ok cfg ∧
      cfg.listen.port = 8080 ∧
      cfg.limits.maxConnections = ({} : ServerConfig).limits.maxConnections := by
  have comment : Skipped (chars "# listener") := Or.inr ⟨chars " listener", Or.inl (by decide)⟩
  have assigns : Assigns (chars "listen.port = 8080\r") .listenPort (8080 : UInt16) := by
    have digits : ∀ c ∈ chars "8080", isDigit c = true := List.all_eq_true.mp (by decide)
    refine ⟨?_, chars "8080", ⟨chars "listen.port ", chars " 8080", by decide⟩, by decide, digits,
      by decide⟩
    rintro (empty | ⟨rest, hash | semicolon⟩)
    · exact absurd empty (by decide)
    · exact absurd (congrArg List.head? hash) (by rw [List.head?_cons]; decide)
    · exact absurd (congrArg List.head? semicolon) (by rw [List.head?_cons]; decide)
  have text : lines newline (chars "# listener\nlisten.port = 8080\r\n") =
      [chars "# listener", chars "listen.port = 8080\r"] := by decide
  have unassigned : Unassigned (lines newline (chars "# listener\nlisten.port = 8080\r\n"))
      .maxConnections := by
    intro line member value limit
    simp only [text, List.mem_cons, List.not_mem_nil, or_false] at member
    rcases member with rfl | rfl
    · exact limit.1 comment
    · cases assigns_unique _ _ _ _ _ assigns limit
  obtain ⟨accepted, fields, _⟩ := grammar_exact (fun _ => none) (chars "server.cfg")
    (chars "# listener\nlisten.port = 8080\r\n") (fun _ _ => rfl)
  obtain ⟨cfg, loaded⟩ := accepted.mpr fun line member => by
    simp only [text, List.mem_cons, List.not_mem_nil, or_false] at member
    rcases member with rfl | rfl
    · exact Or.inl comment
    · exact Or.inr ⟨.listenPort, (8080 : UInt16), assigns⟩
  refine ⟨cfg, loaded, ?_, (fields cfg loaded .maxConnections).2 unassigned⟩
  refine (fields cfg loaded .listenPort).1 (8080 : UInt16)
    ⟨[chars "# listener"], _, [], text, assigns, ?_⟩
  exact fun later member => absurd member List.not_mem_nil

end Loading

end TcpServer.Config
