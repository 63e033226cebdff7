import Mathlib.Data.List.Basic

/-!
# Filling a buffer of fixed size

A loop over a sequence selects values and writes them into the slots of a buffer
one after the other, until the buffer is full. The result is described by the
selected values alone: as many of them as fit, in their order, behind what was
written before, and in front of slots that are left as they were.
-/

namespace BoundedFill

universe u v
variable {α : Type u} {β : Type v}

/-- Write the values selected from `items` into `out`, from the index `written` on.
The loop stops where `out` is full. -/
def fill (select : α → Option β) : List α → Nat → List β → Nat × List β
  | [], written, out => (written, out)
  | item :: rest, written, out =>
      if out.length ≤ written then (written, out)
      else
        match select item with
        | none => fill select rest written out
        | some value => fill select rest (written + 1) (out.set written value)

/-- The loop writes a prefix of the selected values. Induct over the sequence;
a selected value extends what was written before by one slot. -/
theorem fill_exact (select : α → Option β) (items : List α) (written : Nat) (out : List β)
    (within : written ≤ out.length) :
    fill select items written out =
      (written + min (out.length - written) (items.filterMap select).length,
        out.take written ++ (items.filterMap select).take (out.length - written) ++
          out.drop (written + (items.filterMap select).length)) := by
  induction items generalizing written out with
  | nil => simp [fill]
  | cons item rest inductionHypothesis =>
    by_cases full : out.length ≤ written
    · have same : written = out.length := Nat.le_antisymm within full
      subst same
      simp [fill]
    · have room : written < out.length := Nat.not_le.mp full
      cases chosen : select item with
      | none =>
        simp only [fill, full, ↓reduceIte, chosen, List.filterMap_cons]
        exact inductionHypothesis written out within
      | some value =>
        have left : out.length - written = (out.length - (written + 1)) + 1 := by omega
        have written' : (out.set written value).take (written + 1) =
            out.take written ++ [value] := by
          rw [List.take_succ_eq_append_getElem (by simpa using room), List.getElem_set_self,
            List.take_set_of_le (Nat.le_refl written)]
        have behind : (out.set written value).drop
            (written + 1 + (rest.filterMap select).length) =
            out.drop (written + ((rest.filterMap select).length + 1)) := by
          rw [List.drop_set_of_lt (by omega)]
          congr 1
          omega
        simp only [fill, full, ↓reduceIte, chosen, List.filterMap_cons, List.length_cons]
        rw [inductionHypothesis (written + 1) (out.set written value)
          (by simpa using Nat.succ_le_of_lt room), written', behind, List.length_set, left,
          List.take_succ_cons]
        simp only [List.append_assoc, List.cons_append, List.nil_append,
          Prod.mk.injEq, and_true]
        omega

/-- Filling from the front: the written slots hold the first selected values and
the other slots are as before. -/
theorem fill_from_front (select : α → Option β) (items : List α) (out : List β) :
    ∃ written after, fill select items 0 out = (written, after) ∧
      written = min out.length (items.filterMap select).length ∧
      after.take written = (items.filterMap select).take out.length ∧
      after.drop written = out.drop written ∧ after.length = out.length := by
  have exact := fill_exact select items 0 out (Nat.zero_le _)
  simp only [Nat.sub_zero, List.take_zero, List.nil_append, Nat.zero_add] at exact
  generalize items.filterMap select = values at exact
  have front : (values.take out.length).length = min out.length values.length :=
    List.length_take
  refine ⟨_, _, exact, rfl, ?_, ?_, ?_⟩
  · rw [← front]
    exact List.take_left
  · rw [← front, List.drop_left, front]
    by_cases fits : values.length ≤ out.length
    · rw [Nat.min_eq_right fits]
    · rw [Nat.min_eq_left (by omega), List.drop_of_length_le (by omega),
        List.drop_of_length_le (by omega)]
  · simp only [List.length_append, front, List.length_drop]
    omega

end BoundedFill
