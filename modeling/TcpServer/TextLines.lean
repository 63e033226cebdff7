import Mathlib.Data.List.DropRight
import Mathlib.Data.List.Induction

/-!
# Lines and blanks of a text

A text is a sequence over any alphabet. It is cut into lines behind each
newline; the last line need not end with one. Stripping removes the blanks at
both ends of a line.
-/

namespace TextLines

universe u v
variable {α : Type u} {β : Type v}

/-- The lines of a text without their newlines. A newline at the end of the text
does not begin another line. -/
def lines [DecidableEq α] (newline : α) : List α → List (List α)
  | [] => []
  | first :: rest =>
      if first = newline then [] :: lines newline rest
      else
        match lines newline rest with
        | [] => [[first]]
        | line :: others => (first :: line) :: others

/-- Remove the blanks at both ends. Blanks between other symbols stay. -/
def strip (blank : α → Bool) (text : List α) : List α :=
  (text.dropWhile blank).rdropWhile blank

section Lines

variable [DecidableEq α] {newline : α}

/-- Behind a newline the lines of the rest begin. Proof: by induction on the text in
front. -/
theorem lines_append_newline (text rest : List α) :
    lines newline (text ++ [newline] ++ rest) =
      lines newline (text ++ [newline]) ++ lines newline rest := by
  induction text with
  | nil => simp [lines]
  | cons first text inductionHypothesis =>
    have some : lines newline (text ++ [newline]) ≠ [] := by
      cases text with
      | nil => simp [lines]
      | cons second text =>
        simp only [List.cons_append, lines]
        split
        · exact List.cons_ne_nil _ _
        · split
          · exact List.cons_ne_nil _ _
          · exact List.cons_ne_nil _ _
    obtain ⟨line, others, cut⟩ := List.exists_cons_of_ne_nil some
    simp only [List.cons_append, lines]
    split
    · rw [inductionHypothesis, List.cons_append]
    · rw [inductionHypothesis, cut]
      rfl

/-- A missing newline at the end makes no difference to the lines, as long as the text
is not empty. -/
theorem lines_unterminated (text : List α) (nonempty : text ≠ [])
    (unterminated : text.getLast? ≠ some newline) :
    lines newline (text ++ [newline]) = lines newline text := by
  induction text with
  | nil => exact absurd rfl nonempty
  | cons first text inductionHypothesis =>
    cases text with
    | nil =>
      have other : first ≠ newline := by simpa using unterminated
      simp [lines, other]
    | cons second text =>
      have later : (second :: text).getLast? ≠ some newline := by simpa using unterminated
      have same := inductionHypothesis (List.cons_ne_nil _ _) later
      have apart : ∀ rest, lines newline (first :: rest) =
          if first = newline then [] :: lines newline rest
          else
            match lines newline rest with
            | [] => [[first]]
            | line :: others => (first :: line) :: others := fun _ => rfl
      rw [List.cons_append, apart, same, apart]

/-- A terminated line without a newline inside is one line, and is read back as it is.
-/
theorem lines_single (line : List α) (whole : newline ∉ line) :
    lines newline (line ++ [newline]) = [line] := by
  induction line with
  | nil => simp [lines]
  | cons first line inductionHypothesis =>
    have other : first ≠ newline := fun same => whole (same ▸ List.mem_cons_self)
    have later := inductionHypothesis (fun member => whole (List.mem_cons_of_mem first member))
    simp [lines, other, later]

/-- A terminated text has one line more than it has newlines inside. Some of the lines
may be empty. -/
theorem lines_length (text : List α) :
    (lines newline (text ++ [newline])).length = text.count newline + 1 := by
  induction text with
  | nil => simp [lines]
  | cons first text inductionHypothesis =>
    rw [List.cons_append, lines]
    split
    · rename_i same
      rw [List.length_cons, inductionHypothesis, same, List.count_cons_self]
    · rename_i other
      rw [List.count_cons_of_ne other]
      cases later : lines newline (text ++ [newline]) with
      | nil => simp [later] at inductionHypothesis
      | cons line others =>
        rw [later] at inductionHypothesis
        exact inductionHypothesis

/-- Items printed with a newline behind each have at least one line each, whatever
they are printed as. -/
theorem lines_printed_length_le (print : β → List α) (items : List β) :
    items.length ≤ (lines newline (items.flatMap fun item => print item ++ [newline])).length := by
  induction items with
  | nil => exact Nat.zero_le _
  | cons item items inductionHypothesis =>
    rw [List.flatMap_cons, lines_append_newline, List.length_append, lines_length,
      List.length_cons]
    omega

/-- Printed items have exactly one line each when none is printed with a newline
inside. Proof: by induction on the items, with the bound for the rest. -/
theorem lines_printed_length_iff (print : β → List α) (items : List β) :
    (lines newline (items.flatMap fun item => print item ++ [newline])).length = items.length ↔
      ∀ item ∈ items, newline ∉ print item := by
  induction items with
  | nil => simp [lines]
  | cons item items inductionHypothesis =>
    have atLeast : items.length ≤
        (lines newline (items.flatMap fun item => print item ++ [newline])).length :=
      lines_printed_length_le print items
    rw [List.flatMap_cons, lines_append_newline, List.length_append, lines_length,
      List.length_cons, List.forall_mem_cons, ← inductionHypothesis, ← List.count_eq_zero]
    omega

/-- The lines of printed items are the printed items exactly when none is printed with
a newline inside. -/
theorem lines_printed_iff (print : β → List α) (items : List β) :
    lines newline (items.flatMap fun item => print item ++ [newline]) = items.map print ↔
      ∀ item ∈ items, newline ∉ print item := by
  constructor
  · intro same
    have count := congrArg List.length same
    rw [List.length_map] at count
    exact (lines_printed_length_iff print items).mp count
  · intro whole
    induction items with
    | nil => rfl
    | cons item items inductionHypothesis =>
      obtain ⟨itemWhole, later⟩ := List.forall_mem_cons.mp whole
      rw [List.flatMap_cons, lines_append_newline, lines_single (print item) itemWhole,
        inductionHypothesis later]
      rfl

end Lines

section Strip

variable {blank : α → Bool}

/-- A text without blanks is not changed by stripping. -/
theorem strip_solid (text : List α) (solid : ∀ symbol ∈ text, blank symbol = false) :
    strip blank text = text := by
  have front : text.dropWhile blank = text := by
    cases text with
    | nil => rfl
    | cons first rest =>
      rw [List.dropWhile_cons_of_neg]
      simp [solid first List.mem_cons_self]
  rw [strip, front, List.rdropWhile_eq_self_iff]
  intro nonempty
  simp [solid _ (List.getLast_mem nonempty)]

/-- Blanks are removed from the back up to the last other symbol, and nothing in front
of it is looked at. -/
theorem rdropWhile_append_cons (front : List α) (symbol : α) (rest : List α)
    (solid : blank symbol = false) :
    (front ++ symbol :: rest).rdropWhile blank = front ++ symbol :: rest.rdropWhile blank := by
  induction rest using List.reverseRecOn with
  | nil =>
    rw [List.rdropWhile_nil]
    exact List.rdropWhile_concat_neg blank front symbol (by simp [solid])
  | append_singleton rest last inductionHypothesis =>
    have regroup : front ++ symbol :: (rest ++ [last]) = (front ++ symbol :: rest) ++ [last] := by
      simp
    rw [regroup]
    by_cases trailing : blank last = true
    · rw [List.rdropWhile_concat_pos _ _ _ trailing, List.rdropWhile_concat_pos _ _ _ trailing]
      exact inductionHypothesis
    · rw [List.rdropWhile_concat_neg _ _ _ trailing, List.rdropWhile_concat_neg _ _ _ trailing]
      simp

/-- It does not matter which end is stripped first. Proof: by induction from the back.
-/
theorem dropWhile_rdropWhile (text : List α) :
    (text.rdropWhile blank).dropWhile blank = (text.dropWhile blank).rdropWhile blank := by
  induction text using List.reverseRecOn with
  | nil => simp
  | append_singleton text last inductionHypothesis =>
    by_cases trailing : blank last = true
    · rw [List.rdropWhile_concat_pos _ _ _ trailing, inductionHypothesis, List.dropWhile_append]
      split
      · rename_i empty
        rw [List.isEmpty_iff.mp empty]
        simp [trailing]
      · rw [List.rdropWhile_concat_pos _ _ _ trailing]
    · rw [List.rdropWhile_concat_neg _ _ _ trailing, List.dropWhile_append]
      split
      · rw [List.dropWhile_cons_of_neg trailing, List.rdropWhile_singleton, if_neg trailing]
      · rw [List.rdropWhile_concat_neg _ _ _ trailing]

/-- Stripping forgets what was stripped from the back before. -/
theorem strip_rdropWhile (text : List α) :
    strip blank (text.rdropWhile blank) = strip blank text := by
  rw [strip, dropWhile_rdropWhile, List.rdropWhile_idempotent, strip]

end Strip

end TextLines
