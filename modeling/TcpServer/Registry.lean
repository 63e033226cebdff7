import Mathlib.Data.List.AList
import Mathlib.Data.List.Perm.Basic

/-!
# Tables that mirror a list of records

A table with unique keys holds exactly the entries of a list, in any order. One
permutation says at once that the listed keys are distinct, that no key is stale or
missing, and which value each key has. Each operation of the table has the
obvious effect on the list.

Records that are kept without order may be removed by moving the last one into
the hole. This is removal up to a permutation, and so invisible to the table.
-/

namespace Registry

open List

universe u v
variable {α : Type u} {β : α → Type v}

/-- The table holds exactly these entries, in any order. No caller observes the order
of a table. -/
def Lists (table : AList β) (entries : List (Sigma β)) : Prop :=
  table.entries ~ entries

section Tables

variable {table : AList β} {entries others : List (Sigma β)} {key : α}

/-- The empty table lists nothing. -/
theorem lists_empty : Lists (∅ : AList β) [] := Perm.refl _

/-- The order of the listed entries does not matter, so it can be chosen to suit the
entry in question. -/
theorem lists_perm (lists : Lists table entries) (same : entries ~ others) :
    Lists table others :=
  Perm.trans lists same

/-- Listed keys are distinct, since a table has no key twice. -/
theorem lists_nodup (lists : Lists table entries) : entries.keys.Nodup := by
  have distinct : table.entries.keys.Nodup := table.keys_nodup
  exact (lists.map Sigma.fst).nodup_iff.mp distinct

/-- The keys of the table are the listed ones, and no others. -/
theorem lists_mem (lists : Lists table entries) : key ∈ table ↔ key ∈ entries.keys := by
  rw [AList.mem_keys]
  exact (lists.map Sigma.fst).mem_iff

variable [DecidableEq α]

/-- A listed value is found under its key. -/
theorem lists_lookup {value : β key} (lists : Lists table entries)
    (listed : ⟨key, value⟩ ∈ entries) : table.lookup key = some value := by
  apply AList.mem_lookup_iff.mpr
  exact lists.mem_iff.mpr listed

/-- Inserting a new key adds its entry. -/
theorem lists_insert (lists : Lists table entries) (absent : key ∉ entries.keys)
    (value : β key) : Lists (table.insert key value) (⟨key, value⟩ :: entries) := by
  have fresh : key ∉ table := fun present => absent ((lists_mem lists).mp present)
  rw [Lists, AList.entries_insert_of_notMem fresh]
  exact lists.cons _

/-- Erasing a listed key removes its entry. -/
theorem lists_erase {value : β key} (lists : Lists table (⟨key, value⟩ :: entries)) :
    Lists (table.erase key) entries := by
  have removed : kerase key (⟨key, value⟩ :: entries) = entries := kerase_cons_eq rfl
  have erased := lists.kerase (a := key) table.nodupKeys
  rwa [removed] at erased

/-- Inserting a listed key replaces its entry. -/
theorem lists_update {old : β key} (lists : Lists table (⟨key, old⟩ :: entries))
    (value : β key) : Lists (table.insert key value) (⟨key, value⟩ :: entries) := by
  rw [Lists, AList.entries_insert]
  exact (lists_erase lists).cons _

end Tables

section Records

variable {γ : Type u}

/-- Remove the element at an index: move the last one there, then drop the last. The
order of the others may change. -/
def swapPop (records : List γ) (index : Nat) : List γ :=
  match records.getLast? with
  | none => []
  | some back =>
      (if index + 1 < records.length then records.set index back else records).dropLast

/-- Moving the last element into the hole removes the element at the index, up to
a permutation. The last index leaves no hole. -/
theorem swap_pop_perm {records : List γ} {index : Nat} (inside : index < records.length) :
    swapPop records index ~ records.eraseIdx index := by
  cases shape : records.reverse with
  | nil =>
    rw [reverse_eq_nil_iff.mp shape] at inside
    exact absurd inside (Nat.not_lt_zero index)
  | cons back others =>
    have split : records = others.reverse ++ [back] := by
      rw [← reverse_reverse records, shape, reverse_cons]
    generalize others.reverse = front at split
    subst split
    by_cases hole : index < front.length
    · have moves : index + 1 < (front ++ [back]).length := by
        rw [length_append]
        exact Nat.succ_lt_succ hole
      have popped : swapPop (front ++ [back]) index = front.set index back := by
        simp [swapPop, set_append_left _ _ hole, hole]
      rw [popped, eraseIdx_append_of_lt_length hole]
      exact (set_perm_cons_eraseIdx hole back).trans (perm_append_singleton _ _).symm
    · have last : index = front.length := by
        rw [length_append, length_singleton] at inside
        exact Nat.le_antisymm (Nat.le_of_lt_succ inside) (Nat.le_of_not_lt hole)
      subst last
      simp [swapPop, eraseIdx_append_of_length_le]

/-- The one record that passes a test is the first one. -/
theorem find_only {records : List γ} {test : γ → Bool} {record : γ} (member : record ∈ records)
    (passes : test record = true)
    (only : ∀ other ∈ records, test other = true → other = record) :
    records.find? test = some record := by
  cases found : records.find? test with
  | none => exact absurd passes (find?_eq_none.mp found record member)
  | some other => rw [only other (mem_of_find?_eq_some found) (find?_some found)]

/-- Where at most one record passes, it is found among any others that hold the same
passing records. -/
theorem find_congr (test : γ → Bool) {records others : List γ}
    (only : ∀ record ∈ records, ∀ other ∈ records, test record = true → test other = true →
      other = record)
    (same : ∀ record, test record = true → (record ∈ others ↔ record ∈ records)) :
    others.find? test = records.find? test := by
  cases found : records.find? test with
  | none =>
    refine find?_eq_none.mpr ?_
    intro record member passes
    exact find?_eq_none.mp found record ((same record passes).mp member) passes
  | some record =>
    have passes : test record = true := find?_some found
    have member := mem_of_find?_eq_some found
    refine find_only ((same record passes).mpr member) passes ?_
    intro other elsewhere alike
    exact only record member other ((same other alike).mp elsewhere) passes alike

end Records

end Registry
