import TcpServer.ConfigMeaning

/-!
# Overrides from the environment

A set variable should do what a line `key=value` behind the file does. Both reach
`applyKeyValue`, but a value from the file has been trimmed and a value from the
environment has not.

The two loads are compared with their errors: both may refuse the same override,
and then the error from the environment has a prefix and no line number. They
agree where the file itself is refused, where trimming changes none of the values,
and where the first value that is invalid even without its blanks stands behind
values that trimming leaves as valid as they were.
-/

namespace TcpServer.Config

open TextLines (lines)

/-- The set variables among the given ones: their keys and values, in order. The
values are as the environment has them. -/
def overrides (getenv : Text → Option Text) (keys : List EnvKey) : List (Text × Text) :=
  keys.filterMap fun ek => (getenv ek.env).map fun v => (ek.key, v)

/-- An override as a line of a file: its key, an equals sign, and its value as it is.
-/
def overrideLine (pair : Text × Text) : Text := pair.1 ++ equals :: pair.2

/-- The text with a newline behind it, unless it ends with one, so that a line can be
appended. -/
def terminated (text : Text) : Text :=
  if text.getLast? = some newline then text else text ++ [newline]

/-- The text followed by one line for each set variable. This is the file that says
what the environment says. -/
def withOverrides (getenv : Text → Option Text) (text : Text) : Text :=
  terminated text ++
    (overrides getenv envKeys).flatMap fun pair => overrideLine pair ++ [newline]

/-- The error of an override from the environment: the prefix names the variable,
and there is no line. -/
def envError (ek : EnvKey) (err : ConfigLoadError) : ConfigLoadError :=
  { err with line := 0, message := chars "env " ++ ek.env ++ chars ": " ++ err.message }

/-- What the two loads should have in common. Both return the same configuration, or
both report the same error of the file, or both refuse the same override: with the
same code and the same text, but with the prefix of its variable on the one side and
the number of its line on the other. -/
inductive Agrees (getenv : Text → Option Text) :
    Except ConfigLoadError ServerConfig → Except ConfigLoadError ServerConfig → Prop
  | loaded (cfg : ServerConfig) : Agrees getenv (.ok cfg) (.ok cfg)
  | fileRefused (err : ConfigLoadError) : Agrees getenv (.error err) (.error err)
  | overrideRefused (ek : EnvKey) (inTable : ek ∈ envKeys) (set : getenv ek.env ≠ none)
      (err : ConfigLoadError) (line : Nat) :
      Agrees getenv (.error (envError ek err)) (.error { err with line })

/-- The key of a refused override, and the error of `applyKeyValue`, before anyone
adds a line number or a prefix. -/
structure Refusal where
  key : Text
  err : ConfigLoadError
deriving DecidableEq, Repr

/-- Apply edited values in order, up to the first one that is refused. Both paths of
the loader are this, with different edits. -/
def settle (edit : Text → Text) (cfg : ServerConfig) :
    List (Text × Text) → Except Refusal ServerConfig
  | [] => .ok cfg
  | (key, value) :: rest =>
      match applyKeyValue cfg key (edit value) with
      | .error err => .error ⟨key, err⟩
      | .ok cfg => settle edit cfg rest

section Settling

/-- All the keys are among the eight, so that none is refused as unknown. -/
def Known (pairs : List (Text × Text)) : Prop :=
  ∀ pair ∈ pairs, ∃ key : Key, pair.1 = key.text

/-- The refusal of a key. Its error does not depend on the value or on what was
applied before. -/
def Key.refusal (key : Key) : Refusal := ⟨key.text, refused key.complaint⟩

/-- The key takes the value as it stands, that is, the value is a spelling for it. -/
def Takes (name v : Text) : Prop := ∃ key : Key, name = key.text ∧ ∃ value, key.Spells v value

/-- Edits that agree on the given values are applied alike, up to the same refusal. -/
theorem settle_congr (edit other : Text → Text) (pairs : List (Text × Text))
    (same : ∀ pair ∈ pairs, edit pair.2 = other pair.2) (cfg : ServerConfig) :
    settle edit cfg pairs = settle other cfg pairs := by
  induction pairs generalizing cfg with
  | nil => rfl
  | cons pair rest inductionHypothesis =>
    obtain ⟨first, others⟩ := List.forall_mem_cons.mp same
    simp only [settle, first]
    cases applyKeyValue cfg pair.1 (other pair.2) with
    | error err => rfl
    | ok cfg => exact inductionHypothesis others cfg

/-- The first value is stored, and the rest is applied behind it; or it is refused,
and that is the end. -/
theorem settle_cases (edit : Text → Text) (key : Key) (v : Text) (rest : List (Text × Text))
    (cfg : ServerConfig) :
    (∃ value, key.Spells (edit v) value ∧
      settle edit cfg ((key.text, v) :: rest) = settle edit (key.set value cfg) rest) ∨
    (∀ value, ¬ key.Spells (edit v) value) ∧
      settle edit cfg ((key.text, v) :: rest) = .error key.refusal := by
  by_cases invalid : ∀ value, ¬ key.Spells (edit v) value
  · right
    simp only [settle, apply_misspelled cfg key _ invalid]
    exact ⟨invalid, rfl⟩
  · left
    push Not at invalid
    obtain ⟨value, spelled⟩ := invalid
    simp only [settle, apply_spelled cfg key _ value spelled]
    exact ⟨value, spelled, rfl⟩

/-- Applying fails at the first value that its key does not take; the keys before it
take theirs. -/
theorem settle_refused (edit : Text → Text) (pairs : List (Text × Text)) (known : Known pairs)
    (cfg : ServerConfig) (refusal : Refusal) (refused : settle edit cfg pairs = .error refusal) :
    ∃ before key v after, pairs = before ++ (Key.text key, v) :: after ∧ refusal = key.refusal ∧
      (∀ pair ∈ before, Takes pair.1 (edit pair.2)) ∧ ∀ value, ¬ key.Spells (edit v) value := by
  induction pairs generalizing cfg with
  | nil => cases refused
  | cons pair rest inductionHypothesis =>
    obtain ⟨name, v⟩ := pair
    obtain ⟨⟨key, rfl⟩, others⟩ := List.forall_mem_cons.mp known
    obtain ⟨value, spelled, step⟩ | ⟨invalid, step⟩ := settle_cases edit key v rest cfg
    · rw [step] at refused
      obtain ⟨before, other, w, after, split, same, taken, invalid⟩ :=
        inductionHypothesis others _ refused
      refine ⟨(key.text, v) :: before, other, w, after, by rw [split]; rfl, same, ?_, invalid⟩
      exact List.forall_mem_cons.mpr ⟨⟨key, rfl, value, spelled⟩, taken⟩
    · rw [step] at refused
      cases refused
      exact ⟨[], key, v, rest, rfl, rfl, fun _ absent => absurd absent List.not_mem_nil, invalid⟩

/-- Applying does not touch the keys it is not given. Proof: by induction on the
pairs, each of which assigns its own key. -/
theorem settle_other (edit : Text → Text) (pairs : List (Text × Text)) (known : Known pairs)
    (key : Key) (absent : key.text ∉ pairs.map Prod.fst) (cfg final : ServerConfig)
    (settled : settle edit cfg pairs = .ok final) : key.get final = key.get cfg := by
  induction pairs generalizing cfg with
  | nil =>
    cases settled
    rfl
  | cons pair rest inductionHypothesis =>
    obtain ⟨name, v⟩ := pair
    obtain ⟨⟨other, rfl⟩, others⟩ := List.forall_mem_cons.mp known
    have different : key ≠ other := by
      rintro rfl
      exact absent List.mem_cons_self
    have later : key.text ∉ rest.map Prod.fst := fun member =>
      absent (List.mem_cons_of_mem _ member)
    obtain ⟨value, _, step⟩ | ⟨_, step⟩ := settle_cases edit other v rest cfg
    · rw [step] at settled
      rw [inductionHypothesis others later _ settled]
      exact get_set_other key other different value cfg
    · rw [step] at settled
      cases settled

/-- Where applying succeeds every key holds what its value spells, as no later pair
assigns it again. -/
theorem settle_values (edit : Text → Text) (pairs : List (Text × Text)) (known : Known pairs)
    (once : (pairs.map Prod.fst).Nodup) (cfg final : ServerConfig)
    (settled : settle edit cfg pairs = .ok final) (key : Key) (v : Text)
    (member : (key.text, v) ∈ pairs) : key.Spells (edit v) (key.get final) := by
  induction pairs generalizing cfg with
  | nil => exact absurd member List.not_mem_nil
  | cons pair rest inductionHypothesis =>
    obtain ⟨name, w⟩ := pair
    obtain ⟨⟨other, rfl⟩, others⟩ := List.forall_mem_cons.mp known
    obtain ⟨absent, onceLater⟩ := List.nodup_cons.mp once
    obtain ⟨value, spelled, step⟩ | ⟨_, step⟩ := settle_cases edit other w rest cfg
    · rw [step] at settled
      obtain same | later := List.mem_cons.mp member
      · obtain ⟨sameKey, rfl⟩ := Prod.mk.inj same
        obtain rfl := key_text_injective key other sameKey
        rw [settle_other edit rest others key absent _ final settled, get_set_same]
        exact spelled
      · exact inductionHypothesis others onceLater _ settled later
    · rw [step] at settled
      cases settled

end Settling

section Trimming

/-- Digits are no blanks, so `trim` does not shorten a numeral. Neither does it
lengthen one: it only removes. -/
theorem digit_solid (c : Byte) (digit : isDigit c = true) : isBlank c = false := by
  cases blank : isBlank c with
  | false => rfl
  | true =>
    simp only [isBlank, Bool.or_eq_true, beq_iff_eq] at blank
    obtain (rfl | rfl) | rfl := blank <;> exact absurd digit (by decide)

/-- No character of a spelled level is a blank, so `trim` leaves every accepted
spelling of a level alone. -/
theorem level_solid (level : LogLevel) :
    ∀ text ∈ levelSpellings level, ∀ c ∈ text, isBlank c = false := by
  have checked : (levelSpellings level).all (fun text => text.all fun c => !isBlank c) = true := by
    cases level <;> decide
  simpa only [List.all_eq_true, Bool.not_eq_true'] using checked

/-- No character of a spelled truth value is a blank either, so `trim` leaves every
spelling of such a value alone. -/
theorem bool_solid (value : Bool) : ∀ text ∈ boolSpellings value, ∀ c ∈ text, isBlank c = false := by
  have checked : (boolSpellings value).all (fun text => text.all fun c => !isBlank c) = true := by
    cases value <;> decide
  simpa only [List.all_eq_true, Bool.not_eq_true'] using checked

/-- Only a host can be spelled with blanks. All other spellings are digits or words.
-/
theorem spelled_solid (key : Key) (text : Text) (value : key.Value)
    (spelled : key.Spells text value) (other : key ≠ .listenHost) :
    ∀ c ∈ text, isBlank c = false := by
  have decimal (number : Nat) (numeral : Decimal text number) :
      ∀ c ∈ text, isBlank c = false := fun c member => digit_solid c (numeral.2.1 c member)
  cases key with
  | listenHost => exact absurd rfl other
  | listenPort => exact decimal _ spelled
  | maxConnections => exact decimal _ spelled
  | maxMessageBytes => exact decimal _ spelled
  | idleMs => exact decimal _ spelled
  | workerThreads => exact decimal _ spelled
  | loggingLevel => exact level_solid value text spelled
  | metricsEnabled => exact bool_solid value text spelled

/-- A value that its key takes with the blanks around it is taken without them,
perhaps as another value. -/
theorem spelled_trimmed (key : Key) (text : Text) (value : key.Value)
    (spelled : key.Spells text value) : ∃ other, key.Spells (trim text) other := by
  by_cases host : key = .listenHost
  · subst host
    exact ⟨trim text, rfl⟩
  · have solid := spelled_solid key text value spelled host
    rw [trim, TextLines.strip_solid text solid]
    exact ⟨value, spelled⟩

/-- A trimmed spelling is one of the same value only where there were no blanks to
trim. -/
theorem trim_of_same_value (key : Key) (text : Text) (value : key.Value)
    (spelled : key.Spells text value) (trimmed : key.Spells (trim text) value) :
    trim text = text := by
  by_cases host : key = .listenHost
  · subst host
    exact trimmed.trans spelled.symm
  · exact TextLines.strip_solid text (spelled_solid key text value spelled host)

/-- Trimming does not change what `settle` can see of the pair: the key takes any text,
or there are no blanks to lose. -/
def Trimmed (pair : Text × Text) : Prop :=
  pair.1 = Key.listenHost.text ∨ trim pair.2 = pair.2

/-- Whether an override is trimmed can be computed. -/
instance (pair : Text × Text) : Decidable (Trimmed pair) :=
  inferInstanceAs (Decidable (_ ∨ _))

/-- A value that its key takes as it is has no blanks, unless the key is the host. -/
theorem takes_trimmed {name v : Text} (takes : Takes name v) : Trimmed (name, v) := by
  obtain ⟨key, rfl, value, spelled⟩ := takes
  by_cases host : key = .listenHost
  · exact .inl (congrArg Key.text host)
  · exact .inr (TextLines.strip_solid v (spelled_solid key v value spelled host))

/-- A key takes both forms of a trimmed value, or neither. For the host this says
nothing, as it takes every text. -/
theorem trimmed_takes {key : Key} {v : Text} (trimmed : Trimmed (key.text, v)) :
    (∃ value, key.Spells (trim v) value) ↔ ∃ value, key.Spells v value := by
  rcases trimmed with host | same
  · obtain rfl := key_text_injective key .listenHost host
    exact ⟨fun _ => ⟨v, rfl⟩, fun _ => ⟨trim v, rfl⟩⟩
  · rw [show trim v = v from same]

/-- Behind such values an override that is invalid without its blanks is refused on both
sides. The configurations before it may differ, by the blanks of the host. -/
theorem settle_refused_alike (before : List (Text × Text)) (known : Known before)
    (trimmed : ∀ pair ∈ before, Trimmed pair) (key : Key) (v : Text) (after : List (Text × Text))
    (invalid : ∀ value, ¬ key.Spells (trim v) value) (cfg other : ServerConfig) :
    settle id cfg (before ++ (key.text, v) :: after) =
      settle trim other (before ++ (key.text, v) :: after) := by
  induction before generalizing cfg other with
  | nil =>
    have refused : ∀ value, ¬ key.Spells v value := fun value spelled =>
      have ⟨stripped, taken⟩ := spelled_trimmed key v value spelled
      invalid stripped taken
    obtain ⟨value, spelled, _⟩ | ⟨_, left⟩ := settle_cases id key v after cfg
    · exact absurd spelled (refused value)
    · obtain ⟨value, spelled, _⟩ | ⟨_, right⟩ := settle_cases trim key v after other
      · exact absurd spelled (invalid value)
      · exact left.trans right.symm
  | cons pair rest inductionHypothesis =>
    obtain ⟨name, w⟩ := pair
    obtain ⟨⟨first, rfl⟩, others⟩ := List.forall_mem_cons.mp known
    obtain ⟨firstTrimmed, othersTrimmed⟩ := List.forall_mem_cons.mp trimmed
    have alike := trimmed_takes firstTrimmed
    obtain ⟨value, spelled, left⟩ | ⟨bad, left⟩ :=
      settle_cases id first w (rest ++ (key.text, v) :: after) cfg
    · obtain ⟨stripped, _, right⟩ | ⟨bad, _⟩ :=
        settle_cases trim first w (rest ++ (key.text, v) :: after) other
      · rw [List.cons_append, left, right]
        exact inductionHypothesis others othersTrimmed _ _
      · obtain ⟨stripped, taken⟩ := alike.mpr ⟨value, spelled⟩
        exact absurd taken (bad stripped)
    · obtain ⟨stripped, spelled, _⟩ | ⟨_, right⟩ :=
        settle_cases trim first w (rest ++ (key.text, v) :: after) other
      · obtain ⟨value, taken⟩ := alike.mp ⟨stripped, spelled⟩
        exact absurd taken (bad value)
      · rw [List.cons_append, left, right]

/-- Where no key occurs twice a pair stands behind the same pairs in every split. -/
theorem split_unique {pairs before other : List (Text × Text)} {name v w : Text}
    {after otherAfter : List (Text × Text)} (once : (pairs.map Prod.fst).Nodup)
    (split : pairs = before ++ (name, v) :: after)
    (otherSplit : pairs = other ++ (name, w) :: otherAfter) : before = other := by
  have absent {front back : List (Text × Text)} {value : Text}
      (shape : pairs = front ++ (name, value) :: back) :
      name ∉ front.map Prod.fst ∧ name ∉ back.map Prod.fst := by
    rw [shape, List.map_append, List.map_cons, List.perm_middle.nodup_iff, List.nodup_cons,
      List.mem_append, not_or] at once
    exact once.1
  have keys := congrArg (List.map Prod.fst) (split.symm.trans otherSplit)
  rw [List.map_append, List.map_append, List.map_cons, List.map_cons,
    List.append_cons_inj_of_notMem (absent split).1 (absent split).2] at keys
  have sameLength : before.length = other.length := by
    simpa only [List.length_map] using congrArg List.length keys.1
  exact (List.append_inj (split.symm.trans otherSplit) sameLength).1

/-- Some value is invalid even without its blanks, and the values before it, those of
the host apart, have none. -/
def RefusedAlike (pairs : List (Text × Text)) : Prop :=
  ∃ before key v after, pairs = before ++ (Key.text key, v) :: after ∧
    (∀ value, ¬ key.Spells (trim v) value) ∧ ∀ pair ∈ before, Trimmed pair

/-- The same values are applied with and without their blanks exactly when both stop
at the same one, or when there are no blanks. -/
theorem settle_trim_iff (pairs : List (Text × Text)) (known : Known pairs)
    (once : (pairs.map Prod.fst).Nodup) (cfg : ServerConfig) :
    settle id cfg pairs = settle trim cfg pairs ↔
      RefusedAlike pairs ∨ ∀ pair ∈ pairs, trim pair.2 = pair.2 := by
  constructor
  · intro same
    cases trimmed : settle trim cfg pairs with
    | error refusal =>
      left
      rw [trimmed] at same
      obtain ⟨before, key, v, after, split, refusedKey, _, invalid⟩ :=
        settle_refused trim pairs known cfg refusal trimmed
      obtain ⟨others, other, w, otherAfter, otherSplit, otherKey, taken, _⟩ :=
        settle_refused id pairs known cfg refusal same
      -- Both sides stop at the same key, so the untrimmed values before it were taken.
      obtain rfl : key = other := key_text_injective key other
        (congrArg Refusal.key (refusedKey.symm.trans otherKey))
      obtain rfl := split_unique once split otherSplit
      exact ⟨before, key, v, after, split, invalid,
        fun pair member => takes_trimmed (taken pair member)⟩
    | ok final =>
      rw [trimmed] at same
      right
      rintro ⟨name, v⟩ member
      obtain ⟨key, rfl⟩ := known _ member
      exact trim_of_same_value key v _ (settle_values id pairs known once cfg final same key v member)
        (settle_values trim pairs known once cfg final trimmed key v member)
  · rintro (⟨before, key, v, after, rfl, invalid, trimmed⟩ | unchanged)
    · have knownBefore : Known before := fun pair member =>
        known pair (List.mem_append_left _ member)
      exact settle_refused_alike before knownBefore trimmed key v after invalid cfg cfg
    · exact settle_congr id trim pairs (fun pair member => (unchanged pair member).symm) cfg

end Trimming

section Environment

variable (getenv : Text → Option Text)

/-- A variable that is not set contributes no override. The loop in
`apply_env_overrides` goes on to the next one. -/
theorem overrides_unset (ek : EnvKey) (rest : List EnvKey) (unset : getenv ek.env = none) :
    overrides getenv (ek :: rest) = overrides getenv rest := by
  simp [overrides, unset]

/-- A variable that is set contributes one override, with its value as it is, in the
order of the table. -/
theorem overrides_set (ek : EnvKey) (rest : List EnvKey) (v : Text)
    (set : getenv ek.env = some v) :
    overrides getenv (ek :: rest) = (ek.key, v) :: overrides getenv rest := by
  simp [overrides, set]

/-- The loop over the table applies the set variables as they are. Proof: by induction
on the table; a variable that is not set is passed over. -/
theorem apply_env_settles (keys : List EnvKey) (cfg final : ServerConfig)
    (settled : settle id cfg (overrides getenv keys) = .ok final) :
    applyEnv getenv cfg keys = .ok final := by
  induction keys generalizing cfg with
  | nil =>
    cases settled
    rfl
  | cons ek rest inductionHypothesis =>
    cases set : getenv ek.env with
    | none =>
      rw [overrides_unset getenv ek rest set] at settled
      simp only [applyEnv, set]
      exact inductionHypothesis cfg settled
    | some v =>
      rw [overrides_set getenv ek rest v set] at settled
      simp only [settle, id] at settled
      simp only [applyEnv, set]
      cases applied : applyKeyValue cfg ek.key v with
      | error err =>
        rw [applied] at settled
        cases settled
      | ok cfg =>
        rw [applied] at settled
        exact inductionHypothesis cfg settled

/-- The loop over the table stops at the first refused value, and reports it under its
variable. What was set before is dropped with it. -/
theorem apply_env_refuses (keys : List EnvKey) (cfg : ServerConfig) (refusal : Refusal)
    (refused : settle id cfg (overrides getenv keys) = .error refusal) :
    ∃ ek ∈ keys, getenv ek.env ≠ none ∧
      applyEnv getenv cfg keys = .error (envError ek refusal.err) := by
  induction keys generalizing cfg with
  | nil => cases refused
  | cons ek rest inductionHypothesis =>
    cases set : getenv ek.env with
    | none =>
      rw [overrides_unset getenv ek rest set] at refused
      simp only [applyEnv, set]
      obtain ⟨other, member, found, reported⟩ := inductionHypothesis cfg refused
      exact ⟨other, List.mem_cons_of_mem ek member, found, reported⟩
    | some v =>
      rw [overrides_set getenv ek rest v set] at refused
      simp only [settle, id] at refused
      simp only [applyEnv, set]
      cases applied : applyKeyValue cfg ek.key v with
      | error err =>
        rw [applied] at refused
        cases refused
        exact ⟨ek, List.mem_cons_self, by simp [set], rfl⟩
      | ok cfg =>
        rw [applied] at refused
        obtain ⟨other, member, found, reported⟩ := inductionHypothesis cfg refused
        exact ⟨other, List.mem_cons_of_mem ek member, found, reported⟩

/-- The loop over the table accepts only what `settle` accepts, with the same
configuration. -/
theorem apply_env_accepted_iff (cfg final : ServerConfig) :
    applyEnv getenv cfg envKeys = .ok final ↔
      settle id cfg (overrides getenv envKeys) = .ok final := by
  constructor
  · intro applied
    cases settled : settle id cfg (overrides getenv envKeys) with
    | error refusal =>
      obtain ⟨_, _, _, reported⟩ := apply_env_refuses getenv envKeys cfg refusal settled
      rw [applied] at reported
      cases reported
    | ok other =>
      have same := apply_env_settles getenv envKeys cfg other settled
      rw [applied] at same
      rw [Except.ok.inj same]
  · exact apply_env_settles getenv envKeys cfg final

/-- Each row of the table overrides one of the eight keys. -/
theorem env_keys_known : ∀ ek ∈ envKeys, ∃ key : Key, ek.key = key.text := by
  simp only [envKeys, List.forall_mem_cons]
  exact ⟨⟨.listenHost, rfl⟩, ⟨.listenPort, rfl⟩, ⟨.maxConnections, rfl⟩, ⟨.maxMessageBytes, rfl⟩,
    ⟨.idleMs, rfl⟩, ⟨.workerThreads, rfl⟩, ⟨.loggingLevel, rfl⟩, ⟨.metricsEnabled, rfl⟩,
    fun _ absent => absurd absent List.not_mem_nil⟩

/-- The overrides are all of known keys, since the table holds nothing but the eight
keys of the configuration. -/
theorem overrides_known : Known (overrides getenv envKeys) := by
  intro pair member
  obtain ⟨ek, inTable, set⟩ := List.mem_filterMap.mp member
  obtain ⟨v, _, rfl⟩ := Option.map_eq_some_iff.mp set
  exact env_keys_known ek inTable

/-- The overrides come in the order of the table, each key at most once. A variable
that is not set leaves a gap. -/
theorem overrides_sublist (keys : List EnvKey) :
    ((overrides getenv keys).map Prod.fst).Sublist (keys.map EnvKey.key) := by
  induction keys with
  | nil => exact .slnil
  | cons ek rest inductionHypothesis =>
    cases set : getenv ek.env with
    | none =>
      rw [overrides_unset getenv ek rest set]
      exact inductionHypothesis.cons ek.key
    | some v =>
      rw [overrides_set getenv ek rest v set]
      exact inductionHypothesis.cons_cons ek.key

/-- No key is overridden twice, since the table has no key twice. -/
theorem overrides_once : ((overrides getenv envKeys).map Prod.fst).Nodup := by
  have distinct : (envKeys.map EnvKey.key).Nodup := by decide
  exact List.Nodup.sublist (overrides_sublist getenv envKeys) distinct

end Environment

section File

variable (getenv : Text → Option Text)

/-- The loop over the lines reads one text behind another, and goes on counting.
Proof: by induction on the first. -/
theorem read_lines_append (before after : List Text) (cfg : ServerConfig) (lineNo : Nat) :
    readLines cfg lineNo (before ++ after) =
      match readLines cfg lineNo before with
      | .error err => .error err
      | .ok cfg => readLines cfg (lineNo + before.length) after := by
  induction before generalizing cfg lineNo with
  | nil => rfl
  | cons line before inductionHypothesis =>
    simp only [List.cons_append, readLines]
    cases readLine cfg (lineNo + 1) line with
    | error err => rfl
    | ok cfg =>
      have number : lineNo + 1 + before.length = lineNo + (line :: before).length := by
        rw [List.length_cons]
        omega
      rw [← number]
      exact inductionHypothesis cfg (lineNo + 1)

/-- The equals sign is no blank, so trimming a line does not reach its value past it.
-/
theorem blank_equals : isBlank equals = false := by decide

/-- Only the value of an override line can lose blanks, and only at its end. -/
theorem trim_override_line (key : Key) (v : Text) :
    trim (overrideLine (key.text, v)) = key.text ++ equals :: v.rdropWhile isBlank := by
  have front : (key.text ++ equals :: v).dropWhile isBlank = key.text ++ equals :: v := by
    cases key <;> rfl
  rw [overrideLine, trim, TextLines.strip, front]
  exact TextLines.rdropWhile_append_cons key.text equals v blank_equals

/-- No key begins like a comment. -/
theorem key_text_begins (key : Key) :
    ∃ first rest, key.text = first :: rest ∧ first ≠ 0x23 ∧ first ≠ 0x3B := by
  cases key <;> exact ⟨_, _, rfl, by decide, by decide⟩

/-- The line of an override is not skipped, since its key starts with a letter. -/
theorem override_line_written (key : Key) (v : Text) :
    ¬ Skipped (overrideLine (key.text, v)) := by
  obtain ⟨first, rest, begins, hash, semicolon⟩ := key_text_begins key
  rw [Skipped, trim_override_line, begins]
  rintro (empty | ⟨rest, comment | comment⟩)
  · cases empty
  · exact hash (List.cons.inj comment).1
  · exact semicolon (List.cons.inj comment).1

/-- It splits into the key and the value without the blanks around it, which is where
the two paths of the loader differ. -/
theorem override_line_splits (key : Key) (v : Text) :
    Splits (overrideLine (key.text, v)) key.text (trim v) := by
  have absent : equals ∉ key.text := by cases key <;> decide
  have solid : trim key.text = key.text := by cases key <;> decide
  exact ⟨key.text, v.rdropWhile isBlank, trim_override_line key v, absent, solid,
    TextLines.strip_rdropWhile v⟩

/-- The line of an override applies the trimmed value, and an error is given the
number of the line. -/
theorem read_override_line (cfg : ServerConfig) (lineNo : Nat) (key : Key) (v : Text) :
    readLine cfg lineNo (overrideLine (key.text, v)) =
      match applyKeyValue cfg key.text (trim v) with
      | .error err => .error { err with line := lineNo }
      | .ok cfg => .ok cfg :=
  read_line_split cfg lineNo _ _ _ (override_line_written key v) (override_line_splits key v)
    (key_text_named key)

/-- The lines of the overrides apply the trimmed values, and a refused one is
reported under the number of its line. -/
theorem override_lines_settle (pairs : List (Text × Text)) (known : Known pairs)
    (cfg : ServerConfig) (lineNo : Nat) :
    match settle trim cfg pairs with
    | .ok final => readLines cfg lineNo (pairs.map overrideLine) = .ok final
    | .error refusal =>
        ∃ line, readLines cfg lineNo (pairs.map overrideLine) = .error { refusal.err with line } := by
  induction pairs generalizing cfg lineNo with
  | nil => rfl
  | cons pair rest inductionHypothesis =>
    obtain ⟨name, v⟩ := pair
    obtain ⟨⟨key, rfl⟩, others⟩ := List.forall_mem_cons.mp known
    simp only [List.map_cons, readLines, read_override_line, settle]
    cases applyKeyValue cfg key.text (trim v) with
    | error err => exact ⟨_, rfl⟩
    | ok cfg => exact inductionHypothesis others cfg (lineNo + 1)

/-- The text of the overrides has one line for each, provided that no value has a
newline in it. -/
theorem lines_overrides (pairs : List (Text × Text)) (known : Known pairs)
    (plain : ∀ pair ∈ pairs, newline ∉ pair.2) :
    lines newline (pairs.flatMap fun pair => overrideLine pair ++ [newline]) =
      pairs.map overrideLine := by
  rw [TextLines.lines_printed_iff]
  rintro ⟨name, v⟩ inPairs
  obtain ⟨key, rfl⟩ := known _ inPairs
  have keyWhole : newline ∉ key.text ++ [equals] := by cases key <;> decide
  have regrouped : overrideLine (key.text, v) = key.text ++ [equals] ++ v := by
    simp [overrideLine]
  intro member
  rw [regrouped] at member
  obtain inKey | inValue := List.mem_append.mp member
  · exact keyWhole inKey
  · exact plain _ inPairs inValue

/-- A newline behind the text changes at most the number of its lines, and that only
where the text is empty. -/
theorem lines_terminated (text : Text) :
    lines newline (terminated text) = lines newline text ∨
      text = [] ∧ lines newline (terminated text) = [[]] := by
  unfold terminated
  split
  · exact .inl rfl
  · rename_i unterminated
    by_cases empty : text = []
    · right
      subst empty
      exact ⟨rfl, rfl⟩
    · exact .inl (TextLines.lines_unterminated text empty unterminated)

/-- The text and the overrides are read one after the other, line by line. -/
theorem lines_with_overrides (text : Text)
    (plain : ∀ pair ∈ overrides getenv envKeys, newline ∉ pair.2) :
    lines newline (withOverrides getenv text) =
      lines newline (terminated text) ++ (overrides getenv envKeys).map overrideLine := by
  have ends : ∃ front, terminated text = front ++ [newline] := by
    unfold terminated
    split
    · rename_i last
      exact List.getLast?_eq_some_iff.mp last
    · exact ⟨text, rfl⟩
  obtain ⟨front, shape⟩ := ends
  rw [withOverrides, shape, TextLines.lines_append_newline,
    lines_overrides _ (overrides_known getenv) plain]

end File

section Agreement

variable (getenv : Text → Option Text)

/-- The messages of refused values have no colon, and neither have the names of the
variables, so the prefix of an error from the environment can be told from its rest. -/
theorem complaint_without_colon (key : Key) : (0x3A : Byte) ∉ chars key.complaint := by
  cases key <;> decide

/-- The prefix of an error from the environment holds no colon but the one at its end.
-/
theorem prefix_without_colon : ∀ ek ∈ envKeys, (0x3A : Byte) ∉ chars "env " ++ ek.env := by
  decide

/-- Different keys complain differently, so the text of an error names the key. -/
theorem complaint_injective (key other : Key)
    (same : chars key.complaint = chars other.complaint) : key = other := by
  revert same
  cases key <;> cases other <;> decide

/-- The message of an error from the environment splits at its colon, which no
variable has in its name. -/
theorem env_error_message (ek : EnvKey) (key : Key) :
    (envError ek key.refusal.err).message =
      (chars "env " ++ ek.env) ++ (0x3A : Byte) :: 0x20 :: chars key.complaint := by
  change chars "env " ++ ek.env ++ chars ": " ++ chars key.complaint = _
  rw [List.append_assoc (chars "env " ++ ek.env)]
  rfl

/-- The error from the environment names the variable and the refused key, so it can
be compared with one of a line. -/
theorem env_error_injective {ek other : EnvKey} (inTable : ek ∈ envKeys) {key otherKey : Key}
    (same : (envError ek key.refusal.err).message =
      (envError other otherKey.refusal.err).message) : key = otherKey := by
  have blank : (0x3A : Byte) ∉ 0x20 :: chars key.complaint :=
    List.not_mem_cons_of_ne_of_not_mem (by decide) (complaint_without_colon key)
  rw [env_error_message, env_error_message, List.append_cons_inj_of_notMem
    (prefix_without_colon ek inTable) blank] at same
  exact complaint_injective key otherKey (List.cons.inj same.2.2).2

/-- Two refusals agree exactly when they refuse the same key. The message of each is
the complaint of its key, behind a prefix on the one side. -/
theorem refusals_agree_iff {ek : EnvKey} (inTable : ek ∈ envKeys) (set : getenv ek.env ≠ none)
    (key other : Key) (line : Nat) :
    Agrees getenv (.error (envError ek key.refusal.err)) (.error { other.refusal.err with line }) ↔
      key = other := by
  constructor
  · generalize left : envError ek key.refusal.err = reported
    generalize right : { other.refusal.err with line } = offending
    intro agrees
    cases agrees with
    | fileRefused err =>
      have message : (envError ek key.refusal.err).message = chars other.complaint :=
        congrArg ConfigLoadError.message (left.trans right.symm)
      have colon : (0x3A : Byte) ∈ (envError ek key.refusal.err).message := by
        rw [env_error_message]
        exact List.mem_append_right _ List.mem_cons_self
      exact absurd (message ▸ colon) (complaint_without_colon other)
    | overrideRefused source _ _ err _ =>
      have text : err.message = other.refusal.err.message :=
        (congrArg ConfigLoadError.message right).symm
      have message : (envError ek key.refusal.err).message =
          (envError source other.refusal.err).message := by
        rw [left]
        simp only [envError, text]
      exact env_error_injective inTable message
  · rintro rfl
    exact .overrideRefused ek inTable set key.refusal.err line

/-- With overrides in the environment the file is read first, and an error of the file
is reported before any of them. -/
theorem load_environment (path text : Text) :
    loadConfigFromFile path (some (.ofText text)) getenv =
      match readLines {} 0 (lines newline text) with
      | .error err => .error err
      | .ok cfg => applyEnv getenv cfg envKeys := rfl

/-- With the overrides as lines behind it the file is read first, too, and they are
applied trimmed. -/
theorem load_with_overrides (path text : Text)
    (plain : ∀ pair ∈ overrides getenv envKeys, newline ∉ pair.2) :
    loadConfigFromFile path (some (.ofText (withOverrides getenv text))) (fun _ => none) =
      match readLines {} 0 (lines newline text) with
      | .error err => .error err
      | .ok cfg => readLines cfg (lines newline (terminated text)).length
          ((overrides getenv envKeys).map overrideLine) := by
  have front : readLines {} 0 (lines newline (terminated text)) =
      readLines {} 0 (lines newline text) := by
    obtain same | ⟨rfl, blank⟩ := lines_terminated text
    · rw [same]
    · rw [blank]
      rfl
  rw [load_unset _ path _ (fun _ _ => rfl), lines_with_overrides getenv text plain,
    read_lines_append, front, Nat.zero_add]

/-- Behind the file, the loop over the table and the lines of the overrides agree
exactly when the values settle alike with and without their blanks. -/
theorem overrides_agree_iff (cfg : ServerConfig) (lineNo : Nat) :
    Agrees getenv (applyEnv getenv cfg envKeys)
        (readLines cfg lineNo ((overrides getenv envKeys).map overrideLine)) ↔
      settle id cfg (overrides getenv envKeys) = settle trim cfg (overrides getenv envKeys) := by
  have known := overrides_known getenv
  have behind := override_lines_settle _ known cfg lineNo
  cases left : settle id cfg (overrides getenv envKeys) with
  | ok final =>
    rw [apply_env_settles getenv envKeys cfg final left]
    cases right : settle trim cfg (overrides getenv envKeys) with
    | ok other =>
      rw [right] at behind
      rw [show readLines _ _ _ = _ from behind]
      constructor
      · rintro ⟨⟩
        rfl
      · rintro ⟨⟩
        exact .loaded final
    | error refusal =>
      rw [right] at behind
      obtain ⟨line, offending⟩ := behind
      rw [offending]
      exact ⟨nofun, nofun⟩
  | error refusal =>
    obtain ⟨ek, inTable, set, reported⟩ := apply_env_refuses getenv envKeys cfg refusal left
    obtain ⟨_, key, _, _, _, rfl, _, _⟩ := settle_refused id _ known cfg refusal left
    rw [reported]
    cases right : settle trim cfg (overrides getenv envKeys) with
    | ok other =>
      rw [right] at behind
      rw [show readLines _ _ _ = _ from behind]
      generalize envError ek key.refusal.err = err
      constructor
      · rintro ⟨⟩
      · rintro ⟨⟩
    | error otherRefusal =>
      obtain ⟨_, other, _, _, _, rfl, _, _⟩ := settle_refused trim _ known cfg otherRefusal right
      rw [right] at behind
      obtain ⟨line, offending⟩ := behind
      rw [offending, refusals_agree_iff getenv inTable set]
      constructor
      · rintro rfl
        rfl
      · intro same
        exact key_text_injective key other (congrArg Refusal.key (Except.error.inj same))

/-- Overrides from the environment agree with the lines that say the same exactly
when the file itself is refused, when some value is invalid even without the blanks
around it and the values before it, those of the host apart, have none around them,
or when no value has blanks around it. -/
theorem overrides_agree_exact (path text : Text)
    (plain : ∀ ek ∈ envKeys, ∀ v, getenv ek.env = some v → newline ∉ v) :
    Agrees getenv (loadConfigFromFile path (some (.ofText text)) getenv)
        (loadConfigFromFile path (some (.ofText (withOverrides getenv text))) fun _ => none) ↔
      (∃ line ∈ lines newline text, ¬ Grammatical line) ∨
      RefusedAlike (overrides getenv envKeys) ∨
      ∀ pair ∈ overrides getenv envKeys, trim pair.2 = pair.2 := by
  have plainPairs : ∀ pair ∈ overrides getenv envKeys, newline ∉ pair.2 := by
    intro pair member
    obtain ⟨ek, inTable, set⟩ := List.mem_filterMap.mp member
    obtain ⟨v, value, rfl⟩ := Option.map_eq_some_iff.mp set
    exact plain ek inTable v value
  rw [load_environment, load_with_overrides getenv path text plainPairs]
  cases read : readLines {} 0 (lines newline text) with
  | error err =>
    have offending : ∃ line ∈ lines newline text, ¬ Grammatical line := by
      by_contra absent
      push Not at absent
      obtain ⟨cfg, yields⟩ := grammatical_yields _ absent {}
      rw [yields_read_lines _ _ cfg yields] at read
      cases read
    exact ⟨fun _ => .inl offending, fun _ => .fileRefused err⟩
  | ok cfg =>
    have grammatical := yields_grammatical _ _ cfg ((read_lines_iff _ _ cfg 0).mp read)
    have accepted : ¬ ∃ line ∈ lines newline text, ¬ Grammatical line := by
      rintro ⟨line, member, ungrammatical⟩
      exact ungrammatical (grammatical line member)
    rw [or_iff_right accepted]
    exact (overrides_agree_iff getenv cfg _).trans
      (settle_trim_iff _ (overrides_known getenv) (overrides_once getenv) cfg)

/-- An environment in which three variables are set: a host with a blank behind it, a
number of connections that is none, and a port that is plain. -/
def threeVariables : Text → Option Text := fun queried =>
  if queried = chars "TCP_SERVER__listen__host" then some (chars "localhost\r")
  else if queried = chars "TCP_SERVER__listen__port" then some (chars "2000")
  else if queried = chars "TCP_SERVER__limits__max_connections" then some (chars " many ")
  else none

/-- An environment in which one variable is set, and no other. -/
def onlyVariable (name value : Text) : Text → Option Text := fun queried =>
  if queried = name then some value else none

/-- The number of connections is refused on both sides, although the host before it
has a carriage return, and the value itself blanks around it. -/
theorem overrides_agree_connections :
    Agrees threeVariables
      (loadConfigFromFile (chars "server.cfg") (some (.ofText (chars "listen.port=1000")))
        threeVariables)
      (loadConfigFromFile (chars "server.cfg")
        (some (.ofText (withOverrides threeVariables (chars "listen.port=1000")))) fun _ => none) ∧
    loadConfigFromFile (chars "server.cfg")
        (some (.ofText (withOverrides threeVariables (chars "listen.port=1000")))) (fun _ => none) =
      .error ⟨.invalidValue, chars "limits.max_connections must be an integer", 4⟩ := by
  have invalid : ∀ value, ¬ Key.maxConnections.Spells (trim (chars " many ")) value := by
    rintro value ⟨_, digits, _⟩
    exact absurd (digits _ List.mem_cons_self) (by decide)
  refine ⟨(overrides_agree_exact threeVariables (chars "server.cfg") (chars "listen.port=1000")
    (by decide)).mpr (.inr (.inl ?_)), by decide⟩
  exact ⟨[(Key.listenHost.text, chars "localhost\r"), (Key.listenPort.text, chars "2000")],
    .maxConnections, chars " many ", [], by decide, invalid, by decide⟩

/-- A blank in front of a port is accepted from the file and refused from the
environment. -/
theorem overrides_not_always_agree :
    ¬ ∀ (getenv : Text → Option Text) (path text : Text),
      (∀ ek ∈ envKeys, ∀ v, getenv ek.env = some v → newline ∉ v) →
      Agrees getenv (loadConfigFromFile path (some (.ofText text)) getenv)
        (loadConfigFromFile path (some (.ofText (withOverrides getenv text))) fun _ => none) := by
  intro agree
  have agrees := agree (onlyVariable (chars "TCP_SERVER__listen__port") (chars " 8080"))
    (chars "server.cfg") [] (by decide)
  have fromEnvironment : loadConfigFromFile (chars "server.cfg") (some (.ofText []))
      (onlyVariable (chars "TCP_SERVER__listen__port") (chars " 8080")) =
        .error ⟨.invalidValue,
          chars "env TCP_SERVER__listen__port: listen.port must be 0..65535", 0⟩ := by decide
  have fromFile : loadConfigFromFile (chars "server.cfg")
      (some (.ofText (withOverrides
        (onlyVariable (chars "TCP_SERVER__listen__port") (chars " 8080")) []))) (fun _ => none) =
        .ok { listen := ⟨[], 8080⟩ } := by decide
  rw [fromEnvironment, fromFile] at agrees
  generalize (⟨_, _, _⟩ : ConfigLoadError) = err at agrees
  cases agrees

end Agreement

end TcpServer.Config
