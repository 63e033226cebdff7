import Mathlib.Data.List.TakeWhile

/-!
# Quoted and delimited texts

A text is quoted by an escape symbol in front of every quotation mark and every
escape symbol in it. Its reader stops behind the first quotation mark that is not
escaped. A text that is not quoted ends in front of a delimiter.

A reader of one item undoes a printer when it gives back the item and the rest of
the text, for every rest that can follow. Then a sequence of items, printed one
after the other, is read back.
-/

namespace Quoting

universe u v
variable {α : Type u} {β : Type v}

section Escaping

variable [DecidableEq α] {quote escape : α}

/-- An escape symbol in front of each quotation mark and each escape symbol. All other
symbols are written as they are. -/
def escaped (quote escape : α) : List α → List α
  | [] => []
  | symbol :: rest =>
      if symbol = quote ∨ symbol = escape then escape :: symbol :: escaped quote escape rest
      else symbol :: escaped quote escape rest

/-- The text in front of the first quotation mark that is not escaped, and the
rest behind the mark. The symbol behind an escape symbol stands for itself. -/
def readQuoted (quote escape : α) : List α → Option (List α × List α)
  | [] => none
  | symbol :: rest =>
      if symbol = quote then some ([], rest)
      else if symbol = escape then
        match rest with
        | [] => none
        | literal :: rest => (readQuoted quote escape rest).map (Prod.map (literal :: ·) id)
      else (readQuoted quote escape rest).map (Prod.map (symbol :: ·) id)

/-- Escaping adds nothing but escape symbols, and removes nothing. -/
theorem mem_escaped {symbol : α} (other : symbol ≠ escape) (text : List α) :
    symbol ∈ escaped quote escape text ↔ symbol ∈ text := by
  induction text with
  | nil => rfl
  | cons first rest inductionHypothesis =>
    rw [escaped]
    split
    · simp [other, inductionHypothesis]
    · simp [inductionHypothesis]

/-- A quote ends the text, and what stands behind it is left to the next reader. -/
theorem read_quoted_mark (rest : List α) :
    readQuoted quote escape (quote :: rest) = some ([], rest) := by
  unfold readQuoted
  exact if_pos rfl

/-- An escape makes the next symbol a plain one, whatever that symbol is. -/
theorem read_quoted_escape (distinct : quote ≠ escape) (literal : α) (rest : List α) :
    readQuoted quote escape (escape :: literal :: rest) =
      (readQuoted quote escape rest).map (Prod.map (literal :: ·) id) := by
  conv => lhs; unfold readQuoted
  rw [if_neg distinct.symm, if_pos rfl]

/-- Any symbol that is neither a quote nor an escape stands for itself. -/
theorem read_quoted_plain {symbol : α} (unquoted : symbol ≠ quote) (unescaped : symbol ≠ escape)
    (rest : List α) :
    readQuoted quote escape (symbol :: rest) =
      (readQuoted quote escape rest).map (Prod.map (symbol :: ·) id) := by
  conv => lhs; unfold readQuoted
  rw [if_neg unquoted, if_neg unescaped]

/-- A quoted text is read back, and reading stops behind its quotation mark. Proof: by
induction on the text; a quotation mark inside is escaped and so does not end it. -/
theorem read_quoted_escaped (distinct : quote ≠ escape) (text rest : List α) :
    readQuoted quote escape (escaped quote escape text ++ quote :: rest) = some (text, rest) := by
  induction text with
  | nil => exact read_quoted_mark rest
  | cons first text inductionHypothesis =>
    rw [escaped]
    split
    · rw [List.cons_append, List.cons_append, read_quoted_escape distinct, inductionHypothesis]
      rfl
    · rename_i plain
      obtain ⟨unquoted, unescaped⟩ := not_or.mp plain
      rw [List.cons_append, read_quoted_plain unquoted unescaped, inductionHypothesis]
      rfl

end Escaping

section Delimiting

/-- The text can stand behind a delimited one: it is empty or begins with the
delimiter. -/
def Delimits (delimiter : α) (rest : List α) : Prop :=
  ∀ symbol ∈ rest.head?, symbol = delimiter

/-- The end of the input ends a word that is not quoted. -/
theorem delimits_nil (delimiter : α) : Delimits delimiter [] := by
  intro symbol first
  cases first

/-- The delimiter ends a word that is not quoted, and belongs to what is left. -/
theorem delimits_cons (delimiter : α) (rest : List α) : Delimits delimiter (delimiter :: rest) := by
  intro symbol first
  exact (Option.some.inj first).symm

variable [DecidableEq α] {delimiter : α}

/-- The text in front of the first delimiter is what was written there, if it has none
inside. -/
theorem takeWhile_delimited {text rest : List α} (clear : delimiter ∉ text)
    (delimits : Delimits delimiter rest) :
    (text ++ rest).takeWhile (· != delimiter) = text := by
  induction text with
  | nil =>
    cases rest with
    | nil => rfl
    | cons first rest =>
      have same : first = delimiter := delimits first rfl
      simp [same]
  | cons first text inductionHypothesis =>
    obtain ⟨different, later⟩ := List.ne_and_not_mem_of_not_mem_cons clear
    rw [List.cons_append, List.takeWhile_cons_of_pos (by simpa using different.symm),
      inductionHypothesis later]

/-- The text from the first delimiter on is what stands behind, if there is none in
front. -/
theorem dropWhile_delimited {text rest : List α} (clear : delimiter ∉ text)
    (delimits : Delimits delimiter rest) :
    (text ++ rest).dropWhile (· != delimiter) = rest := by
  have whole : (text ++ rest).takeWhile (· != delimiter) ++
      (text ++ rest).dropWhile (· != delimiter) = text ++ rest := List.takeWhile_append_dropWhile
  rw [takeWhile_delimited clear delimits] at whole
  exact List.append_cancel_left whole

end Delimiting

section Items

/-- Read items until the text is used up. The fuel bounds their number, since a reader
of items may not promise to use up any text. -/
def readItems (readItem : List α → Option (β × List α)) : Nat → List α → Option (List β)
  | _, [] => some []
  | 0, _ :: _ => none
  | fuel + 1, first :: text =>
      match readItem (first :: text) with
      | none => none
      | some (item, rest) => (readItems readItem fuel rest).map (item :: ·)

/-- A reader that undoes the printing of one item undoes the printing of all.
Induct over the items; each is read in front of the printed rest. -/
theorem read_items_printed (readItem : List α → Option (β × List α)) (print : β → List α)
    (follows : List α → Prop) (items : List β) (atEnd : follows [])
    (between : ∀ item ∈ items, ∀ rest, follows (print item ++ rest))
    (written : ∀ item ∈ items, print item ≠ [])
    (exact : ∀ item ∈ items, ∀ rest, follows rest →
      readItem (print item ++ rest) = some (item, rest))
    (fuel : Nat) (enough : items.length ≤ fuel) :
    readItems readItem fuel (items.flatMap print) = some items := by
  induction items generalizing fuel with
  | nil => cases fuel <;> rfl
  | cons item items inductionHypothesis =>
    obtain ⟨_, betweenLater⟩ := List.forall_mem_cons.mp between
    obtain ⟨itemWritten, writtenLater⟩ := List.forall_mem_cons.mp written
    obtain ⟨itemExact, exactLater⟩ := List.forall_mem_cons.mp exact
    have behind : follows (items.flatMap print) := by
      cases items with
      | nil => exact atEnd
      | cons second items => exact betweenLater second List.mem_cons_self _
    cases fuel with
    | zero => cases enough
    | succ fuel =>
      have later := inductionHypothesis betweenLater writtenLater exactLater fuel
        (Nat.le_of_succ_le_succ enough)
      obtain ⟨first, symbols, shape⟩ := List.exists_cons_of_ne_nil itemWritten
      have read := itemExact _ behind
      rw [shape, List.cons_append] at read
      rw [List.flatMap_cons, shape, List.cons_append, readItems, read]
      exact congrArg (Option.map (item :: ·)) later

/-- Read items until the text is used up, with fuel for an item from each symbol.
Items that are not empty need no more. -/
def readAll (readItem : List α → Option (β × List α)) (text : List α) : Option (List β) :=
  readItems readItem text.length text

/-- Items of which none is printed as nothing are no more than the symbols they are
printed in, so the fuel of `readAll` suffices. -/
theorem length_le_printed (print : β → List α) (items : List β)
    (written : ∀ item ∈ items, print item ≠ []) :
    items.length ≤ (items.flatMap print).length := by
  induction items with
  | nil => exact Nat.zero_le _
  | cons item items inductionHypothesis =>
    obtain ⟨itemWritten, writtenLater⟩ := List.forall_mem_cons.mp written
    have positive := List.length_pos_iff.mpr itemWritten
    have later := inductionHypothesis writtenLater
    rw [List.flatMap_cons, List.length_append, List.length_cons]
    omega

/-- Items that were printed one after the other are read back, if each is read back in
front of whatever follows it. -/
theorem read_all_printed (readItem : List α → Option (β × List α)) (print : β → List α)
    (follows : List α → Prop) (items : List β) (atEnd : follows [])
    (between : ∀ item ∈ items, ∀ rest, follows (print item ++ rest))
    (written : ∀ item ∈ items, print item ≠ [])
    (exact : ∀ item ∈ items, ∀ rest, follows rest →
      readItem (print item ++ rest) = some (item, rest)) :
    readAll readItem (items.flatMap print) = some items :=
  read_items_printed readItem print follows items atEnd between written exact _
    (length_le_printed print items written)

end Items

end Quoting
