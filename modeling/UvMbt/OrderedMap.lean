/-
Maps that are enumerated in the order in which their keys were first set, and
the map that turns keys and values around.
-/
import Mathlib.Data.List.Nodup
import Mathlib.Data.List.Induction

set_option autoImplicit false

namespace OrderedMap

universe u v

variable {α : Type u} {β : Type v}

/-- A new key goes to the end, a known one keeps its place. -/
def set [DecidableEq α] : List (α × β) → α → β → List (α × β)
  | [], key, value => [(key, value)]
  | entry :: rest, key, value =>
      if entry.1 = key then (key, value) :: rest
      else entry :: set rest key value

/-- The map after some assignments. -/
def fill [DecidableEq α] (assignments : List (α × β)) : List (α × β) :=
  assignments.foldl (fun map entry => set map entry.1 entry.2) []

/-- Every value with its key. -/
def turn [DecidableEq β] (map : List (α × β)) : List (β × α) :=
  fill (map.map Prod.swap)

section Lookup

variable [DecidableEq α] {map : List (α × β)} {key other : α} {value : β}

theorem lookup_cons (entry : α × β) (rest : List (α × β)) (key : α) :
    List.lookup key (entry :: rest) =
      if key = entry.1 then some entry.2 else List.lookup key rest := by
  obtain ⟨first, second⟩ := entry
  rw [List.lookup_cons]
  by_cases heq : key = first
  · rw [if_pos heq, heq, beq_self_eq_true]
  · rw [if_neg heq, beq_false_of_ne heq]

theorem lookup_set_self (map : List (α × β)) (key : α) (value : β) :
    List.lookup key (set map key value) = some value := by
  induction map with
  | nil => rw [set, lookup_cons, if_pos rfl]
  | cons entry rest ih =>
      rw [set]
      by_cases hentry : entry.1 = key
      · rw [if_pos hentry, lookup_cons, if_pos rfl]
      · rw [if_neg hentry, lookup_cons, if_neg (Ne.symm hentry)]
        exact ih

theorem lookup_set_ne (map : List (α × β)) (value : β) (hne : other ≠ key) :
    List.lookup other (set map key value) = List.lookup other map := by
  induction map with
  | nil => rw [set, lookup_cons, if_neg hne]
  | cons entry rest ih =>
      rw [set]
      by_cases hentry : entry.1 = key
      · rw [if_pos hentry, lookup_cons, lookup_cons, hentry, if_neg hne,
          if_neg hne]
      · rw [if_neg hentry, lookup_cons, lookup_cons, ih]

theorem set_of_lookup_none (hlookup : List.lookup key map = none) :
    set map key value = map ++ [(key, value)] := by
  induction map with
  | nil => rfl
  | cons entry rest ih =>
      rw [lookup_cons] at hlookup
      by_cases hkey : key = entry.1
      · rw [if_pos hkey] at hlookup
        cases hlookup
      · rw [if_neg hkey] at hlookup
        rw [set, if_neg (Ne.symm hkey), ih hlookup, List.cons_append]

theorem mem_keys_set (map : List (α × β)) (key : α) (value : β) :
    other ∈ (set map key value).map Prod.fst ↔
      other = key ∨ other ∈ map.map Prod.fst := by
  induction map with
  | nil => simp [set]
  | cons entry rest ih =>
      rw [set]
      by_cases hentry : entry.1 = key
      · rw [if_pos hentry, List.map_cons, List.map_cons, List.mem_cons,
          List.mem_cons, hentry]
        tauto
      · rw [if_neg hentry, List.map_cons, List.map_cons, List.mem_cons,
          List.mem_cons, ih]
        tauto

/-- Every key is there once. -/
theorem nodup_set (hnodup : (map.map Prod.fst).Nodup) (key : α) (value : β) :
    ((set map key value).map Prod.fst).Nodup := by
  induction map with
  | nil => simp [set]
  | cons entry rest ih =>
      obtain ⟨hfirst, hrest⟩ := List.nodup_cons.mp hnodup
      rw [set]
      by_cases hentry : entry.1 = key
      · rw [if_pos hentry, List.map_cons, ← hentry]
        exact hnodup
      · rw [if_neg hentry, List.map_cons, List.nodup_cons, mem_keys_set]
        exact ⟨not_or.mpr ⟨hentry, hfirst⟩, ih hrest⟩

/-- With every key there once, the entries are what is found. -/
theorem lookup_eq_some_iff (hnodup : (map.map Prod.fst).Nodup) :
    List.lookup key map = some value ↔ (key, value) ∈ map := by
  induction map with
  | nil => simp
  | cons entry rest ih =>
      obtain ⟨hfirst, hrest⟩ := List.nodup_cons.mp hnodup
      rw [lookup_cons, List.mem_cons]
      by_cases hkey : key = entry.1
      · rw [if_pos hkey, hkey, Option.some.injEq]
        constructor
        · intro heq
          rw [← heq]
          exact Or.inl rfl
        · rintro (heq | hmem)
          · exact (congrArg Prod.snd heq).symm
          · exact absurd (List.mem_map_of_mem hmem) hfirst
      · rw [if_neg hkey, ih hrest]
        refine ⟨Or.inr, ?_⟩
        rintro (heq | hmem)
        · exact absurd (congrArg Prod.fst heq) hkey
        · exact hmem

end Lookup

section Fill

variable [DecidableEq α] {assignments : List (α × β)} {key : α} {value : β}

theorem fill_append (assignments : List (α × β)) (entry : α × β) :
    fill (assignments ++ [entry]) =
      set (fill assignments) entry.1 entry.2 := by
  rw [fill, List.foldl_append]
  rfl

theorem nodup_fill (assignments : List (α × β)) :
    ((fill assignments).map Prod.fst).Nodup := by
  induction assignments using List.reverseRecOn with
  | nil => exact List.nodup_nil
  | append_singleton earlier entry ih =>
      rw [fill_append]
      exact nodup_set ih entry.1 entry.2

/-- The last assignment to a key is found. -/
theorem lookup_fill (assignments : List (α × β)) (key : α) :
    List.lookup key (fill assignments) =
      List.lookup key assignments.reverse := by
  induction assignments using List.reverseRecOn with
  | nil => rfl
  | append_singleton earlier entry ih =>
      rw [fill_append, List.reverse_append, List.reverse_singleton,
        List.singleton_append, lookup_cons]
      by_cases hkey : key = entry.1
      · rw [if_pos hkey, hkey, lookup_set_self]
      · rw [if_neg hkey, lookup_set_ne _ _ hkey, ih]

end Fill

/-- Where no value has two keys, the turned map finds the key of a value. -/
theorem lookup_turn [DecidableEq α] [DecidableEq β] {map : List (α × β)}
    (hnodup : (map.map Prod.fst).Nodup)
    (hvalues : (map.map Prod.snd).Nodup) {key : α} {value : β} :
    List.lookup value (turn map) = some key ↔
      List.lookup key map = some value := by
  have hswapped : ((map.map Prod.swap).map Prod.fst).Nodup := by
    rw [List.map_map]
    exact hvalues
  have hreverse : ((map.map Prod.swap).reverse.map Prod.fst).Nodup := by
    rw [List.map_reverse, List.nodup_reverse]
    exact hswapped
  rw [turn, lookup_fill, lookup_eq_some_iff hreverse, List.mem_reverse,
    lookup_eq_some_iff hnodup, List.mem_map]
  constructor
  · rintro ⟨entry, hentry, hswap⟩
    rw [← Prod.swap_swap entry, hswap] at hentry
    exact hentry
  · intro hmem
    exact ⟨(key, value), hmem, rfl⟩

end OrderedMap
