/-
Calls that are handed references.  A call is the list of what it does with its
arguments.  The callee-saved convention counts, for every argument, how often
the call consumes it; the discipline below follows the references through the
call, and a call that keeps it runs without a fault on a balanced heap.
-/
import UvMbt.RefHeap

set_option autoImplicit false

namespace RefCall

open RefHeap

universe u v w

variable {ι : Type u} {σ : Type v}

/-- Who releases what a slot keeps: `released` says that some later callback or
finalizer does. -/
class Slots (σ : Type v) where
  released : σ → Bool

/-- What a call does with an argument.  An argument is the parameter it was
handed as, or `NULL`. -/
inductive Effect (ι : Type u) (σ : Type v) where
  | read (arg : Option ι)
  | asValue (arg : Option ι)
  | incref (arg : Option ι)
  | decref (arg : Option ι)
  | move (arg : Option ι) (slot : σ)
  deriving Repr, DecidableEq

def Effect.arg : Effect ι σ → Option ι
  | .read arg | .asValue arg | .incref arg | .decref arg | .move arg _ => arg

/-- What the caller declares about the reference parameters of a call: those it
hands over, marked as such or not, those it lends, and those that may be
`NULL`. -/
structure Signature (ι : Type u) where
  owned : List ι
  unmarked : List ι
  borrowed : List ι
  optional : List ι
  nodup : (owned ++ unmarked ++ borrowed).Nodup

/-- The arguments of a call: every parameter stands for itself, or is `NULL`
where the signature allows it. -/
structure Arguments (sig : Signature ι) where
  arg : ι → Option ι
  eq_or_null : ∀ param, arg param = some param ∨
    arg param = none ∧ param ∈ sig.optional

theorem Arguments.arg_eq_some {sig : Signature ι} (args : Arguments sig)
    (hoptional : sig.optional = []) : args.arg = some := by
  funext param
  rcases args.eq_or_null param with heq | ⟨_, hmem⟩
  · exact heq
  · simp [hoptional] at hmem

/-- The arguments of a call where one parameter is `NULL`. -/
def nullAt [DecidableEq ι] (absent : ι) (param : ι) : Option ι :=
  if param = absent then none else some param

theorem Arguments.arg_cases [DecidableEq ι] {sig : Signature ι}
    (args : Arguments sig) {absent : ι} (hoptional : sig.optional = [absent]) :
    args.arg = some ∨ args.arg = nullAt absent := by
  have hothers : ∀ param, param ≠ absent → args.arg param = some param := by
    intro param hne
    rcases args.eq_or_null param with heq | ⟨_, hmem⟩
    · exact heq
    · exact absurd (by simpa [hoptional] using hmem) hne
  rcases args.eq_or_null absent with heq | ⟨hnone, _⟩
  · left
    funext param
    by_cases hparam : param = absent
    · rw [hparam, heq]
    · exact hothers param hparam
  · right
    funext param
    by_cases hparam : param = absent
    · simp [nullAt, hparam, hnone]
    · simp [nullAt, hparam, hothers param hparam]

section Counting

variable [DecidableEq ι] [Slots σ]

/-- The effects that use a reference to a parameter up. -/
def Effect.consumes (param : ι) : Effect ι σ → Bool
  | .decref arg => arg = some param
  | .move arg slot => arg = some param ∧ Slots.released slot = true
  | .read _ | .asValue _ | .incref _ => false

/-- The effects that make another reference to a parameter. -/
def Effect.adds (param : ι) : Effect ι σ → Bool
  | .incref arg => arg = some param
  | .read _ | .asValue _ | .decref _ | .move _ _ => false

def consumed (param : ι) (trace : List (Effect ι σ)) : Nat :=
  trace.countP (Effect.consumes param)

def added (param : ι) (trace : List (Effect ι σ)) : Nat :=
  trace.countP (Effect.adds param)

/-- The callee-saved convention: the reference that comes with an owned
argument is consumed exactly once, a borrowed argument keeps its count, `NULL`
is never used as an object and no argument is used as the value itself. -/
structure CalleeSaved (sig : Signature ι) (arg : ι → Option ι)
    (trace : List (Effect ι σ)) : Prop where
  owned : ∀ param ∈ sig.owned, arg param = some param →
    consumed param trace = added param trace + 1
  borrowed : ∀ param ∈ sig.borrowed,
    consumed param trace = added param trace
  null : ∀ effect ∈ trace, effect.arg ≠ none
  value : ∀ param ∈ sig.owned ++ sig.borrowed,
    Effect.asValue (some param) ∉ trace

instance [DecidableEq σ] (sig : Signature ι) (arg : ι → Option ι)
    (trace : List (Effect ι σ)) : Decidable (CalleeSaved sig arg trace) :=
  decidable_of_iff
    ((∀ param ∈ sig.owned, arg param = some param →
        consumed param trace = added param trace + 1) ∧
      (∀ param ∈ sig.borrowed, consumed param trace = added param trace) ∧
      (∀ effect ∈ trace, effect.arg ≠ none) ∧
      ∀ param ∈ sig.owned ++ sig.borrowed,
        Effect.asValue (some param) ∉ trace)
    ⟨fun h => ⟨h.1, h.2.1, h.2.2.1, h.2.2.2⟩,
      fun h => ⟨h.owned, h.borrowed, h.null, h.value⟩⟩

end Counting

/-- The references of a call in progress: those it has still to consume and
those it has put into slots. -/
structure Purse (ι : Type u) where
  own : List ι
  kept : List ι
  deriving Repr, DecidableEq

section Discipline

variable [DecidableEq ι] [Slots σ]

/-- The discipline: an argument is read or counted up while a reference to it
is at hand, and released or moved when the call owns one. -/
def Effect.account (borrowed : List ι) (purse : Purse ι) :
    Effect ι σ → Option (Purse ι)
  | .read (some param) =>
      if param ∈ purse.own ++ purse.kept ++ borrowed then some purse else none
  | .incref (some param) =>
      if param ∈ purse.own ++ purse.kept ++ borrowed then
        some ⟨param :: purse.own, purse.kept⟩
      else none
  | .decref (some param) =>
      if param ∈ purse.own then some ⟨purse.own.erase param, purse.kept⟩
      else none
  | .move (some param) slot =>
      if Slots.released slot then
        if param ∈ purse.own then
          some ⟨purse.own.erase param, param :: purse.kept⟩
        else none
      else some purse
  | .asValue _ | .read none | .incref none | .decref none | .move none _ =>
      none

def account (borrowed : List ι) :
    List (Effect ι σ) → Purse ι → Option (Purse ι)
  | [], purse => some purse
  | effect :: rest, purse =>
      (effect.account borrowed purse).bind (account borrowed rest)

/-- The references that come with the arguments. -/
def Signature.handed (sig : Signature ι) (arg : ι → Option ι) : List ι :=
  (sig.owned ++ sig.unmarked).filterMap arg

/-- A call keeps the discipline and nothing is left for it to consume. -/
def Discharges (sig : Signature ι) (arg : ι → Option ι)
    (trace : List (Effect ι σ)) : Prop :=
  (account sig.borrowed trace ⟨sig.handed arg, []⟩).map Purse.own = some []

instance (sig : Signature ι) (arg : ι → Option ι)
    (trace : List (Effect ι σ)) : Decidable (Discharges sig arg trace) :=
  inferInstanceAs (Decidable (_ = _))

variable {borrowed : List ι} {purse next : Purse ι}

/-- What an effect that keeps the discipline can do. -/
theorem Effect.account_cases {effect : Effect ι σ}
    (hstep : effect.account borrowed purse = some next) :
    ∃ param, effect.arg = some param ∧
      ((effect = .read (some param) ∧
          param ∈ purse.own ++ purse.kept ++ borrowed ∧ next = purse) ∨
        (effect = .incref (some param) ∧
          param ∈ purse.own ++ purse.kept ++ borrowed ∧
          next = ⟨param :: purse.own, purse.kept⟩) ∨
        (effect = .decref (some param) ∧ param ∈ purse.own ∧
          next = ⟨purse.own.erase param, purse.kept⟩) ∨
        (∃ slot, effect = .move (some param) slot ∧
          Slots.released slot = true ∧ param ∈ purse.own ∧
          next = ⟨purse.own.erase param, param :: purse.kept⟩) ∨
        (∃ slot, effect = .move (some param) slot ∧
          Slots.released slot = false ∧ next = purse)) := by
  cases effect with
  | asValue arg => simp [Effect.account] at hstep
  | read arg =>
      cases arg with
      | none => simp [Effect.account] at hstep
      | some param =>
          simp only [Effect.account] at hstep
          split at hstep
          next hmem => exact ⟨param, rfl, Or.inl ⟨rfl, hmem, by
            simpa using hstep.symm⟩⟩
          next => cases hstep
  | incref arg =>
      cases arg with
      | none => simp [Effect.account] at hstep
      | some param =>
          simp only [Effect.account] at hstep
          split at hstep
          next hmem => exact ⟨param, rfl, Or.inr (Or.inl ⟨rfl, hmem, by
            simpa using hstep.symm⟩)⟩
          next => cases hstep
  | decref arg =>
      cases arg with
      | none => simp [Effect.account] at hstep
      | some param =>
          simp only [Effect.account] at hstep
          split at hstep
          next hmem => exact ⟨param, rfl, Or.inr (Or.inr (Or.inl ⟨rfl, hmem, by
            simpa using hstep.symm⟩))⟩
          next => cases hstep
  | move arg slot =>
      cases arg with
      | none => simp [Effect.account] at hstep
      | some param =>
          refine ⟨param, rfl, Or.inr (Or.inr (Or.inr ?_))⟩
          cases hslot : Slots.released slot with
          | true =>
              simp only [Effect.account, hslot, ↓reduceIte] at hstep
              split at hstep
              next hmem => exact Or.inl ⟨slot, rfl, hslot, hmem, by
                simpa using hstep.symm⟩
              next => cases hstep
          | false =>
              refine Or.inr ⟨slot, rfl, hslot, ?_⟩
              simpa [Effect.account, hslot] using hstep.symm

theorem account_cons {effect : Effect ι σ} {rest : List (Effect ι σ)}
    {last : Purse ι}
    (hrun : account borrowed (effect :: rest) purse = some last) :
    ∃ middle, effect.account borrowed purse = some middle ∧
      account borrowed rest middle = some last :=
  Option.bind_eq_some_iff.mp hrun

theorem account_append (first second : List (Effect ι σ)) :
    account borrowed (first ++ second) purse =
      (account borrowed first purse).bind (account borrowed second) := by
  induction first generalizing purse with
  | nil => rfl
  | cons effect rest ih =>
      simp only [List.cons_append, account, Option.bind_assoc]
      congr 1
      funext middle
      exact ih

/-- The count of one effect: what is left to consume changes by what the
effect makes and uses up. -/
theorem Effect.count_account {effect : Effect ι σ}
    (hstep : effect.account borrowed purse = some next) (param : ι) :
    next.own.count param + (effect.consumes param).toNat =
      purse.own.count param + (effect.adds param).toNat := by
  obtain ⟨arg, _, hcases⟩ := Effect.account_cases hstep
  have herase : arg ∈ purse.own →
      (purse.own.erase arg).count param + (decide (arg = param)).toNat =
        purse.own.count param := by
    intro hmem
    by_cases heq : arg = param
    · subst heq
      have hpos : 0 < purse.own.count arg := List.count_pos_iff.mpr hmem
      simp only [List.count_erase_self, decide_true, Bool.toNat_true]
      omega
    · simp [List.count_erase_of_ne (Ne.symm heq), heq]
  rcases hcases with ⟨rfl, _, rfl⟩ | ⟨rfl, _, rfl⟩ | ⟨rfl, hmem, rfl⟩ |
    ⟨slot, rfl, hslot, hmem, rfl⟩ | ⟨slot, rfl, hslot, rfl⟩
  · rfl
  · by_cases heq : arg = param
    · simp [Effect.consumes, Effect.adds, heq]
    · simp [Effect.consumes, Effect.adds, heq]
  · simpa [Effect.consumes, Effect.adds] using herase hmem
  · simpa [Effect.consumes, Effect.adds, hslot] using herase hmem
  · simp [Effect.consumes, Effect.adds, hslot]

theorem count_account {trace : List (Effect ι σ)}
    (hrun : account borrowed trace purse = some next) (param : ι) :
    next.own.count param + consumed param trace =
      purse.own.count param + added param trace := by
  induction trace generalizing purse with
  | nil =>
      cases hrun
      rfl
  | cons effect rest ih =>
      obtain ⟨middle, hstep, hrest⟩ := account_cons hrun
      have hone := Effect.count_account hstep param
      have hall := ih hrest
      simp only [consumed, added] at hall
      simp only [consumed, added, List.countP_cons]
      cases hconsumes : effect.consumes param <;>
        cases hadds : effect.adds param <;>
          simp only [hconsumes, hadds, Bool.toNat_true, Bool.toNat_false,
            ↓reduceIte, Bool.false_eq_true] at hone ⊢ <;> omega

/-- A run of the discipline never meets `NULL` and uses no argument as a
value. -/
theorem mem_account {trace : List (Effect ι σ)}
    (hrun : account borrowed trace purse = some next) :
    ∀ effect ∈ trace, ∃ param, effect.arg = some param ∧
      effect ≠ .asValue (some param) := by
  induction trace generalizing purse with
  | nil => simp
  | cons effect rest ih =>
      obtain ⟨middle, hstep, hrest⟩ := account_cons hrun
      intro other hother
      rcases List.mem_cons.mp hother with rfl | hother
      · obtain ⟨param, harg, hcases⟩ := Effect.account_cases hstep
        refine ⟨param, harg, ?_⟩
        rintro rfl
        simp at hcases
      · exact ih hrest other hother

theorem count_handed (sig : Signature ι) (args : Arguments sig) {param : ι}
    (howned : param ∈ sig.owned) (harg : args.arg param = some param) :
    (sig.handed args.arg).count param = 1 := by
  have hnodup : (sig.owned ++ sig.unmarked).Nodup :=
    (List.nodup_append.mp sig.nodup).1
  have hinj : ∀ left right name, name ∈ args.arg left →
      name ∈ args.arg right → left = right := by
    intro left right name hleft hright
    rcases args.eq_or_null left with heq | ⟨heq, _⟩ <;>
      rcases args.eq_or_null right with heq' | ⟨heq', _⟩ <;>
        simp_all
  refine List.count_eq_one_of_mem (hnodup.filterMap hinj) ?_
  exact List.mem_filterMap.mpr ⟨param, List.mem_append_left _ howned, harg⟩

theorem count_handed_borrowed (sig : Signature ι) (args : Arguments sig)
    {param : ι} (hborrowed : param ∈ sig.borrowed) :
    (sig.handed args.arg).count param = 0 := by
  have hdisjoint := (List.nodup_append.mp sig.nodup).2.2
  refine List.count_eq_zero.mpr ?_
  intro hmem
  obtain ⟨other, hother, harg⟩ := List.mem_filterMap.mp hmem
  rcases args.eq_or_null other with heq | ⟨heq, _⟩
  · rw [heq] at harg
    cases harg
    exact hdisjoint param hother param hborrowed rfl
  · rw [heq] at harg
    cases harg

/-- The discipline implies the convention. -/
theorem Discharges.calleeSaved {sig : Signature ι} {args : Arguments sig}
    {trace : List (Effect ι σ)}
    (hdischarges : Discharges sig args.arg trace) :
    CalleeSaved sig args.arg trace := by
  obtain ⟨last, hrun, hown⟩ := Option.map_eq_some_iff.mp hdischarges
  have hcount := fun param => count_account hrun param
  simp only [hown, List.count_nil, Nat.zero_add] at hcount
  constructor
  · intro param howned harg
    rw [hcount, count_handed sig args howned harg, Nat.add_comm]
  · intro param hborrowed
    rw [hcount, count_handed_borrowed sig args hborrowed, Nat.zero_add]
  · intro effect hmem hnone
    obtain ⟨param, harg, _⟩ := mem_account hrun effect hmem
    rw [hnone] at harg
    cases harg
  · intro param _ hmem
    obtain ⟨other, harg, hne⟩ := mem_account hrun _ hmem
    cases harg
    exact hne rfl

end Discipline

section OnHeap

variable {β : Type w}

/-- An effect on the heap, where `env` says which object an argument is.  A
slot takes a reference over as it is. -/
def Effect.run [Ownership β] (env : ι → Addr) (heap : Heap β) :
    Effect ι σ → Except Fault (Heap β)
  | .read (some param) => do
      let _ ← heap.get (env param)
      return heap
  | .incref (some param) => heap.incref (env param)
  | .decref (some param) => heap.decref (env param)
  | .move _ _ => .ok heap
  | .asValue _ => .error .typeConfusion
  | .read none => .error .nullPointer
  | .incref none | .decref none => .error .nullArgument

def run [Ownership β] (env : ι → Addr) :
    List (Effect ι σ) → Heap β → Except Fault (Heap β)
  | [], heap => .ok heap
  | effect :: rest, heap => do
      let heap ← effect.run env heap
      run env rest heap

variable [DecidableEq ι] [Slots σ] [Ownership β] {borrowed : List ι}
  {purse next : Purse ι} {env : ι → Addr} {heap : Heap β}
  {rest : Multiset Addr}

/-- What a purse owns on the heap. -/
def Purse.ledger (env : ι → Addr) (purse : Purse ι) : Multiset Addr :=
  ↑(purse.own.map env) + ↑(purse.kept.map env)

theorem Purse.ledger_erase (env : ι → Addr) {param : ι}
    (hmem : param ∈ purse.own) :
    env param ::ₘ Purse.ledger env ⟨purse.own.erase param, purse.kept⟩ =
      purse.ledger env := by
  have hperm : (param :: purse.own.erase param).Perm purse.own :=
    (List.perm_cons_erase hmem).symm
  have hcoe := Multiset.coe_eq_coe.mpr (hperm.map env)
  rw [Purse.ledger, Purse.ledger, ← hcoe, List.map_cons,
    ← Multiset.cons_coe, Multiset.cons_add]

theorem Purse.ledger_move (env : ι → Addr) {param : ι}
    (hmem : param ∈ purse.own) :
    Purse.ledger env ⟨purse.own.erase param, param :: purse.kept⟩ =
      purse.ledger env := by
  rw [← Purse.ledger_erase env hmem, Purse.ledger, Purse.ledger,
    List.map_cons, ← Multiset.cons_coe, Multiset.add_cons]

omit [DecidableEq ι] in
/-- An argument at hand is live. -/
theorem live_at_hand (hbalanced : Balanced heap (purse.ledger env + rest))
    (hlent : ∀ param ∈ borrowed, env param ∈ rest) {param : ι}
    (hmem : param ∈ purse.own ++ purse.kept ++ borrowed) :
    Live heap (env param) := by
  refine hbalanced.live ?_
  simp only [List.mem_append] at hmem
  rcases hmem with (hown | hkept) | hborrowed
  · simp [Purse.ledger, List.mem_map_of_mem hown]
  · simp [Purse.ledger, List.mem_map_of_mem hkept]
  · exact Multiset.mem_add.mpr (Or.inr (hlent param hborrowed))

theorem Effect.run_account {effect : Effect ι σ}
    (hstep : effect.account borrowed purse = some next)
    (hlent : ∀ param ∈ borrowed, env param ∈ rest)
    (hbalanced : Balanced heap (purse.ledger env + rest)) :
    ∃ heap', effect.run env heap = .ok heap' ∧
      Balanced heap' (next.ledger env + rest) := by
  obtain ⟨param, _, hcases⟩ := Effect.account_cases hstep
  rcases hcases with ⟨rfl, hmem, rfl⟩ | ⟨rfl, hmem, rfl⟩ | ⟨rfl, hmem, rfl⟩ |
    ⟨slot, rfl, _, hmem, rfl⟩ | ⟨slot, rfl, _, rfl⟩
  · obtain ⟨obj, hobj⟩ := live_at_hand hbalanced hlent hmem
    exact ⟨heap, by simp [Effect.run, hobj.get, bind, Except.bind, pure,
      Except.pure], hbalanced⟩
  · obtain ⟨heap', hrun, hbalanced', _⟩ :=
      incref_spec hbalanced (live_at_hand hbalanced hlent hmem)
    refine ⟨heap', hrun, hbalanced'.congr ?_⟩
    simp [Purse.ledger, ← Multiset.cons_coe]
  · rw [← Purse.ledger_erase env hmem, Multiset.cons_add] at hbalanced
    exact decref_spec hbalanced
  · exact ⟨heap, rfl, hbalanced.congr (by rw [Purse.ledger_move env hmem])⟩
  · exact ⟨heap, rfl, hbalanced⟩

theorem run_account {trace : List (Effect ι σ)}
    (hrun : account borrowed trace purse = some next)
    (hlent : ∀ param ∈ borrowed, env param ∈ rest)
    (hbalanced : Balanced heap (purse.ledger env + rest)) :
    ∃ heap', run env trace heap = .ok heap' ∧
      Balanced heap' (next.ledger env + rest) := by
  induction trace generalizing purse heap with
  | nil =>
      cases hrun
      exact ⟨heap, rfl, hbalanced⟩
  | cons effect tail ih =>
      obtain ⟨middle, hstep, htail⟩ := account_cons hrun
      obtain ⟨heap₁, hone, hbalanced₁⟩ :=
        Effect.run_account hstep hlent hbalanced
      obtain ⟨heap₂, hall, hbalanced₂⟩ := ih htail hbalanced₁
      exact ⟨heap₂, by simp [run, hone, hall, bind, Except.bind], hbalanced₂⟩

/-- A call that keeps the discipline has no fault on any balanced heap, and of
the references it was handed only those are left that it put into slots. -/
theorem Discharges.run_ok {sig : Signature ι} {arg : ι → Option ι}
    {trace : List (Effect ι σ)} (hdischarges : Discharges sig arg trace)
    (hlent : ∀ param ∈ sig.borrowed, env param ∈ rest)
    (hbalanced : Balanced heap (↑((sig.handed arg).map env) + rest)) :
    ∃ heap' kept, run env trace heap = .ok heap' ∧
      Balanced heap' (↑(List.map env kept) + rest) := by
  obtain ⟨last, hrun, hown⟩ := Option.map_eq_some_iff.mp hdischarges
  obtain ⟨heap', hok, hbalanced'⟩ := run_account hrun hlent
    (hbalanced.congr (by simp [Purse.ledger]))
  exact ⟨heap', last.kept, hok,
    hbalanced'.congr (by simp [Purse.ledger, hown])⟩

end OnHeap

end RefCall
