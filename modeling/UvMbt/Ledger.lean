/-
What the entries of a list hold, all together, when one of them is taken out or
replaced.
-/
import Mathlib.Data.List.Count
import Mathlib.Data.List.Perm.Basic

set_option autoImplicit false

namespace Ledger

variable {α β : Type} (held : α → List β) {entries : List α} {place : Nat}
  {old : α}

/-- An entry and the rest. -/
theorem perm_eraseIdx (hold : entries[place]? = some old) :
    (entries.flatMap held).Perm
      (held old ++ (entries.eraseIdx place).flatMap held) := by
  obtain ⟨hlt, hget⟩ := List.getElem?_eq_some_iff.mp hold
  have hperm := (List.getElem_cons_eraseIdx_perm hlt).symm
  rw [hget] at hperm
  exact hperm.flatMap_right held

theorem perm_set (new : α) (hold : entries[place]? = some old) :
    ((entries.set place new).flatMap held).Perm
      (held new ++ (entries.eraseIdx place).flatMap held) := by
  obtain ⟨hlt, -⟩ := List.getElem?_eq_some_iff.mp hold
  exact (List.set_perm_cons_eraseIdx hlt new).flatMap_right held

/-- Replacing one entry changes the count by its own. -/
theorem count_set [DecidableEq β] (new : α) (hold : entries[place]? = some old)
    (value : β) :
    ((entries.set place new).flatMap held).count value +
        (held old).count value =
      (entries.flatMap held).count value + (held new).count value := by
  have hbefore := (perm_eraseIdx held hold).count_eq value
  have hafter := (perm_set held new hold).count_eq value
  rw [List.count_append] at hbefore hafter
  omega

/-- Replacing an entry by one that looks the same. -/
theorem map_set {γ : Type} (look : α → γ) (new : α)
    (hold : entries[place]? = some old) (hsame : look new = look old) :
    (entries.set place new).map look = entries.map look := by
  obtain ⟨hlt, rfl⟩ := List.getElem?_eq_some_iff.mp hold
  rw [List.map_set, hsame, ← List.getElem_map look (h := by simpa using hlt),
    List.set_getElem_self]

end Ledger
