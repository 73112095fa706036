/-
Rules for computations that can fail: a postcondition for the value, one for
the error, and how they pass through a sequence and a fold.  The second half is
about what can be reached along a relation.
-/
import Mathlib.Logic.Relation
import Mathlib.Data.List.Basic

set_option autoImplicit false

universe u v w

namespace Outcome

variable {ε : Type u} {α β σ : Type v}

/-- The value meets `good`, or the error meets `bad`. -/
def Meets (good : α → Prop) (bad : ε → Prop) : Except ε α → Prop
  | .ok value => good value
  | .error error => bad error

variable {bad : ε → Prop}

theorem Meets.mono {good weaker : α → Prop} {bad' : ε → Prop}
    {result : Except ε α} (hmeets : Meets good bad result)
    (hgood : ∀ value, good value → weaker value)
    (hbad : ∀ error, bad error → bad' error) : Meets weaker bad' result := by
  cases result with
  | ok value => exact hgood value hmeets
  | error error => exact hbad error hmeets

theorem Meets.bind {middle : α → Prop} {good : β → Prop}
    {first : Except ε α} {next : α → Except ε β}
    (hfirst : Meets middle bad first)
    (hnext : ∀ value, middle value → Meets good bad (next value)) :
    Meets good bad (first >>= next) := by
  cases first with
  | ok value => exact hnext value hfirst
  | error error => exact hfirst

/-- The first half of a sequence returned. -/
theorem bind_ok {first : Except ε α} {value : α} (hfirst : first = .ok value)
    (next : α → Except ε β) : (first >>= next) = next value := by
  rw [hfirst]
  rfl

/-- What holds of the items already seen holds of all of them at the end. -/
theorem meets_foldlM {items : List α} {step : σ → α → Except ε σ}
    {invariant : List α → σ → Prop} {start : σ} (hstart : invariant [] start)
    (hstep : ∀ seen item rest state, items = seen ++ item :: rest →
      invariant seen state →
      Meets (invariant (seen ++ [item])) bad (step state item)) :
    Meets (invariant items) bad (items.foldlM step start) := by
  have hrest : ∀ rest seen state, items = seen ++ rest → invariant seen state →
      Meets (invariant items) bad (rest.foldlM step state) := by
    intro rest
    induction rest with
    | nil =>
        intro seen state hsplit hinvariant
        rw [List.append_nil] at hsplit
        rw [hsplit]
        exact hinvariant
    | cons item rest ih =>
        intro seen state hsplit hinvariant
        rw [List.foldlM_cons]
        apply Meets.bind (hstep seen item rest state hsplit hinvariant)
        intro state' hinvariant'
        apply ih (seen ++ [item]) state' _ hinvariant'
        rw [hsplit, List.append_assoc]
        rfl
  exact hrest items [] start rfl hstart

end Outcome

namespace Reach

variable {Node : Type u} {edge : Node → Node → Prop}

/-- What is reached from one of the roots. -/
def From (edge : Node → Node → Prop) (roots : Node → Prop) (node : Node) :
    Prop :=
  ∃ root, roots root ∧ Relation.ReflTransGen edge root node

theorem From.root {roots : Node → Prop} {root : Node} (hroot : roots root) :
    From edge roots root := ⟨root, hroot, .refl⟩

theorem From.step {roots : Node → Prop} {node next : Node}
    (hnode : From edge roots node) (hedge : edge node next) :
    From edge roots next := by
  obtain ⟨root, hroot, hreach⟩ := hnode
  exact ⟨root, hroot, hreach.tail hedge⟩

theorem From.trans {roots : Node → Prop} {node next : Node}
    (hnode : From edge roots node) (hreach : Relation.ReflTransGen edge node next) :
    From edge roots next := by
  induction hreach with
  | refl => exact hnode
  | tail _ hedge ih => exact ih.step hedge

/-- A set that holds the roots and every successor of its members holds all
that is reached. -/
theorem From.mem_of_closed {roots holds : Node → Prop}
    (hroots : ∀ root, roots root → holds root)
    (hclosed : ∀ node next, holds node → edge node next → holds next)
    {node : Node} (hnode : From edge roots node) : holds node := by
  obtain ⟨root, hroot, hreach⟩ := hnode
  induction hreach with
  | refl => exact hroots root hroot
  | tail _ hedge ih => exact hclosed _ _ ih hedge

end Reach

namespace Unmarked

variable {Node : Type u}

/-- Marking more leaves fewer to mark. -/
theorem countP_le {nodes : List Node} {before after : Node → Bool}
    (hmore : ∀ node, before node = true → after node = true) :
    nodes.countP (fun node => !after node) ≤
      nodes.countP (fun node => !before node) := by
  apply List.countP_mono_left
  intro node _ hafter
  cases hbefore : before node with
  | false => rfl
  | true => rw [hmore node hbefore] at hafter; exact hafter

/-- Marking an unmarked node of the list leaves strictly fewer. -/
theorem countP_lt {nodes : List Node} {before after : Node → Bool}
    (hmore : ∀ node, before node = true → after node = true) {node : Node}
    (hmem : node ∈ nodes) (hbefore : before node = false)
    (hafter : after node = true) :
    nodes.countP (fun node => !after node) <
      nodes.countP (fun node => !before node) := by
  induction nodes with
  | nil => cases hmem
  | cons head tail ih =>
      rw [List.countP_cons, List.countP_cons]
      rcases List.mem_cons.mp hmem with rfl | htail
      · have hle := @countP_le Node tail before after hmore
        simp only [hbefore, hafter]
        simp
        omega
      · have hlt := ih htail
        have hhead : (if (!after head) = true then 1 else 0) ≤
            (if (!before head) = true then 1 else 0) := by
          cases hb : before head with
          | true => simp [hmore head hb]
          | false => cases after head <;> simp
        omega

end Unmarked
