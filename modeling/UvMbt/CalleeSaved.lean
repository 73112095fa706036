/-
Which calls of which stubs keep the callee-saved convention.  A call that does
keeps the stricter discipline of references too, so that it runs without a
fault on every balanced heap.
-/
import UvMbt.StubTable

set_option autoImplicit false

namespace UvMbt.Stubs

open RefHeap RefCall

/-- The calls that break the convention, by what the caller passes and how
libuv answers. -/
def Submit.Defective (stub : Submit) (args : Args) (reply : Reply) : Prop :=
  -- a refused request is left with a reference that nobody releases
  reply.answer ≠ .accepted ∨
    -- `moonbit_decref` of a missing address
    stub = .udpSend ∧ args .addr = none

def Other.Defective (stub : Other) (reply : Reply) : Prop :=
  match stub with
  -- released although libuv has the handle, or the loop is left over
  | .asyncInit | .signalInit => reply.answer ≠ .rejected true
  | .ttyInit => reply.answer = .accepted
  | .pollInitSocket | .spawn => reply.answer ≠ .accepted
  | .printAllHandles => reply.opened = false
  | .signalStart | .signalStartOneshot | .signalStop | .udpOpen => True
  | .addrinfoResultsIterate | .walk | .threadCreate | .udpSetMembership
  | .udpSetSourceMembership | .udpTrySend => False

def Export.Defective : Export → Args → Reply → Prop
  | .call _, _, _ | .store _, _, _ | .transfer _, _, _ => False
  -- a refused handle is left with a reference that nobody releases
  | .init _, _, reply => reply.answer ≠ .accepted
  | .leaving _, _, _ => True
  | .submit stub, args, reply => stub.Defective args reply
  -- nobody releases the loop that libuv has not written to the request
  | .fsSync _, _, reply => reply.answer.writes = false
  | .other stub, _, reply => stub.Defective reply

/-- The two halves of the result on one call. -/
def Verdict (stub : Stub) (args : Args) (reply : Reply) (defect : Prop) :
    Prop :=
  (¬ defect → Discharges stub.signature args (stub.trace args reply)) ∧
    (defect → ¬ CalleeSaved stub.signature args (stub.trace args reply))

instance (stub : Stub) (args : Args) (reply : Reply) (defect : Prop)
    [Decidable defect] : Decidable (Verdict stub args reply defect) :=
  inferInstanceAs (Decidable (_ ∧ _))

theorem Verdict.of_discharges {stub : Stub} {args : Args} {reply : Reply}
    {defect : Prop} (hno : ¬ defect)
    (hdischarges : Discharges stub.signature args (stub.trace args reply)) :
    Verdict stub args reply defect :=
  ⟨fun _ => hdischarges, fun hdefect => absurd hdefect hno⟩

theorem Verdict.of_breach {stub : Stub} {args : Args} {reply : Reply}
    {defect : Prop} (hdefect : defect)
    (hbreach : ¬ CalleeSaved stub.signature args (stub.trace args reply)) :
    Verdict stub args reply defect :=
  ⟨fun hno => absurd hdefect hno, fun _ => hbreach⟩

section Accounts

variable (borrowed own kept : List Param)

theorem account_use (params : List Param)
    (hmem : ∀ param ∈ params, param ∈ own ++ kept ++ borrowed) :
    account borrowed (use some params) ⟨own, kept⟩ = some ⟨own, kept⟩ := by
  induction params with
  | nil => rfl
  | cons head tail ih =>
      have hhead := hmem head List.mem_cons_self
      have htail := ih fun param h => hmem param (List.mem_cons_of_mem _ h)
      simpa only [use, List.map_cons, account, Effect.account, hhead,
        ↓reduceIte, Option.bind_some] using htail

theorem account_decref (params : List Param) :
    account borrowed (decref some params) ⟨params ++ own, kept⟩ =
      some ⟨own, kept⟩ := by
  induction params with
  | nil => rfl
  | cons head tail ih =>
      simpa [decref, account, Effect.account] using ih

/-- A callback that is called with a reference of its own each time leaves
what the call owns alone. -/
theorem account_callEach (closure : Param) (entries : Nat)
    (hmem : closure ∈ own ++ borrowed) :
    ∃ kept', account borrowed (callEach some closure entries) ⟨own, kept⟩ =
      some ⟨own, kept'⟩ := by
  induction entries generalizing kept with
  | zero => exact ⟨kept, rfl⟩
  | succ entries ih =>
      obtain ⟨kept', hrest⟩ := ih (closure :: kept)
      have hhand : closure ∈ own ++ kept ++ borrowed := by
        rcases List.mem_append.mp hmem with hown | hborrowed
        · exact List.mem_append_left _ (List.mem_append_left _ hown)
        · exact List.mem_append_right _ hborrowed
      have hcases : closure ∈ own ∨ closure ∈ kept ∨ closure ∈ borrowed := by
        simpa using hhand
      refine ⟨kept', ?_⟩
      simpa [callEach, List.replicate_succ, account, Effect.account, hcases,
        Slots.released] using hrest

end Accounts

section Shapes

variable {reply : Reply}

theorem call_verdict {owned borrowed : List Param}
    (nodup : (owned ++ borrowed).Nodup)
    (args : Arguments (call owned borrowed nodup).signature) :
    Verdict (call owned borrowed nodup) args.arg reply False := by
  rw [args.arg_eq_some rfl]
  refine Verdict.of_discharges not_false ?_
  have huse : account borrowed (use some (owned ++ borrowed)) ⟨owned, []⟩ =
      some ⟨owned, []⟩ := account_use _ _ _ _ (by simp)
  have hdecref := account_decref borrowed [] [] owned
  rw [List.append_nil] at hdecref
  simp [Discharges, call, Signature.handed, account_append, huse, hdecref]

theorem init_verdict {kind : Kind} {subject : Param}
    (nodup : [.loop, subject].Nodup) (hkind : kind ≠ .tty)
    (args : Arguments (init kind subject nodup).signature) :
    Verdict (init kind subject nodup) args.arg reply
      (reply.answer ≠ .accepted) := by
  rw [args.arg_eq_some rfl]
  have hne : Param.loop ≠ subject := by simpa using nodup
  obtain ⟨answer, opened, entries⟩ := reply
  cases answer with
  | accepted =>
      refine Verdict.of_discharges (by simp) ?_
      simp [Discharges, init, initWith, Signature.handed, keep, use, decref, register,
        Requests.Answer.writes, account, Effect.account, Slots.released, hkind]
  | rejected written =>
      refine Verdict.of_breach (by simp) ?_
      intro hsaved
      have hcount := hsaved.owned subject (by simp [init, initWith]) rfl
      cases written <;>
        simp [init, initWith, consumed, added, keep, use, decref, register,
          Requests.Answer.writes, Effect.consumes, Effect.adds, hne] at hcount

/-- A stub that treats every reply alike. -/
theorem constant_verdict {stub : Stub} (args : Arguments stub.signature)
    (hoptional : stub.signature.optional = [])
    (htrace : stub.trace some reply = stub.trace some ⟨.accepted, true, 0⟩)
    (defect : Prop) (hall : Verdict stub some ⟨.accepted, true, 0⟩ defect) :
    Verdict stub args.arg reply defect := by
  rw [args.arg_eq_some hoptional, Verdict, htrace]
  exact hall

theorem leaving_verdict {owned left : List Param} {param : Param}
    (nodup : (owned ++ param :: left).Nodup)
    (args : Arguments (leaving owned (param :: left) nodup).signature) :
    Verdict (leaving owned (param :: left) nodup) args.arg reply True := by
  rw [args.arg_eq_some rfl]
  refine Verdict.of_breach trivial ?_
  intro hsaved
  have hcount := hsaved.owned param (by simp [leaving]) rfl
  have hnot : param ∉ owned := by
    intro hmem
    exact (List.nodup_append.mp nodup).2.2 param hmem param
      List.mem_cons_self rfl
  have hnone : consumed param ((leaving owned (param :: left) nodup).trace some
      reply) = 0 := by
    refine List.countP_eq_zero.mpr ?_
    intro effect heffect
    simp only [leaving, use, decref, List.mem_append, List.mem_map] at heffect
    rcases heffect with ⟨released, _, rfl⟩ | ⟨released, hmem, rfl⟩
    · simp [Effect.consumes]
    · have hne : released ≠ param := fun heq => hnot (heq ▸ hmem)
      simp [Effect.consumes, hne]
  omega

theorem mem_answers (answer : Requests.Answer) :
    ∃ written, answer ∈ [.accepted, .rejected written] := by
  cases answer with
  | accepted => exact ⟨true, by simp⟩
  | rejected written => exact ⟨written, by simp⟩

/-- A stub whose outcome depends on how libuv answers. -/
theorem answer_verdict {stub : Stub} (args : Arguments stub.signature)
    (hoptional : stub.signature.optional = [])
    (htrace : stub.trace some reply =
      stub.trace some ⟨reply.answer, true, 0⟩)
    (defect : Requests.Answer → Prop)
    (hall : ∀ written : Bool, ∀ answer ∈ [.accepted, .rejected written],
      Verdict stub some ⟨answer, true, 0⟩ (defect answer)) :
    Verdict stub args.arg reply (defect reply.answer) := by
  obtain ⟨written, hmem⟩ := mem_answers reply.answer
  rw [args.arg_eq_some hoptional, Verdict, htrace]
  exact hall written _ hmem

/-- The same with an argument that may be missing. -/
theorem optional_verdict {stub : Stub} (args : Arguments stub.signature)
    {absent : Param} (hoptional : stub.signature.optional = [absent])
    (htrace : ∀ arg, stub.trace arg reply =
      stub.trace arg ⟨reply.answer, true, 0⟩)
    (defect : Args → Requests.Answer → Prop)
    (hall : ∀ written : Bool, ∀ answer ∈ [.accepted, .rejected written],
      Verdict stub some ⟨answer, true, 0⟩ (defect some answer) ∧
        Verdict stub (nullAt absent) ⟨answer, true, 0⟩
          (defect (nullAt absent) answer)) :
    Verdict stub args.arg reply (defect args.arg reply.answer) := by
  obtain ⟨written, hmem⟩ := mem_answers reply.answer
  rw [Verdict, htrace]
  rcases args.arg_cases hoptional with harg | harg
  · rw [harg]
    exact (hall written _ hmem).1
  · rw [harg]
    exact (hall written _ hmem).2

end Shapes

section Table

variable {reply : Reply}

theorem Call.verdict (stub : Call) (args : Arguments stub.stub.signature) :
    Verdict stub.stub args.arg reply False := by
  cases stub <;> exact call_verdict (by decide) args

theorem Store.verdict (stub : Store) (args : Arguments stub.stub.signature) :
    Verdict stub.stub args.arg reply False := by
  cases stub <;> exact constant_verdict args rfl rfl False (by decide)

theorem Transfer.verdict (stub : Transfer)
    (args : Arguments stub.stub.signature) :
    Verdict stub.stub args.arg reply False := by
  cases stub <;> exact constant_verdict args rfl rfl False (by decide)

theorem Init.verdict (stub : Init) (args : Arguments stub.stub.signature) :
    Verdict stub.stub args.arg reply (reply.answer ≠ .accepted) := by
  cases stub <;> exact init_verdict (by decide) (by decide) args

theorem Leaving.verdict (stub : Leaving)
    (args : Arguments stub.stub.signature) :
    Verdict stub.stub args.arg reply True := by
  cases stub <;> exact leaving_verdict (by decide) args

theorem FsSync.verdict (stub : FsSync) (args : Arguments stub.stub.signature) :
    Verdict stub.stub args.arg reply (reply.answer.writes = false) := by
  cases stub <;>
    exact answer_verdict args rfl rfl (fun answer => answer.writes = false)
      (by decide)

theorem Submit.verdict (stub : Submit) (args : Arguments stub.stub.signature) :
    Verdict stub.stub args.arg reply (stub.Defective args.arg reply) := by
  cases stub with
  | udpSend =>
      exact optional_verdict args rfl (fun _ => rfl)
        (fun arg answer => answer ≠ .accepted ∨
          Submit.udpSend = .udpSend ∧ arg .addr = none) (by decide)
  | getaddrinfo =>
      exact optional_verdict args rfl (fun _ => rfl)
        (fun arg answer => answer ≠ .accepted ∨
          Submit.getaddrinfo = .udpSend ∧ arg .addr = none) (by decide)
  | _ =>
      have hplain := @answer_verdict reply _ args rfl rfl
        (fun answer => answer ≠ .accepted) (by decide)
      simpa [Submit.Defective] using hplain

theorem printAllHandles_verdict
    (args : Arguments printAllHandles.signature) :
    Verdict printAllHandles args.arg reply (reply.opened = false) := by
  rw [args.arg_eq_some rfl]
  obtain ⟨answer, opened, entries⟩ := reply
  cases opened with
  | true =>
      have hyes : Discharges printAllHandles.signature some
          (use some [.loop] ++ decref some [.loop]) := by decide
      exact Verdict.of_discharges (by simp) hyes
  | false =>
      have hno : ¬ CalleeSaved printAllHandles.signature some
          ([] : Trace) := by decide
      exact Verdict.of_breach rfl hno

theorem addrinfoResultsIterate_verdict
    (args : Arguments addrinfoResultsIterate.signature) :
    Verdict addrinfoResultsIterate args.arg reply False := by
  rw [args.arg_eq_some rfl]
  refine Verdict.of_discharges not_false ?_
  obtain ⟨kept, hcalls⟩ := account_callEach [.results, .cb] [] []
    .cb reply.entries (by simp)
  have huse : account [.results, .cb] (use some [.results]) ⟨[], []⟩ =
      some ⟨[], []⟩ := account_use _ _ _ _ (by simp)
  simp [Discharges, addrinfoResultsIterate, Signature.handed, account_append,
    huse, hcalls]

theorem walk_verdict (args : Arguments walk.signature) :
    Verdict walk args.arg reply False := by
  rw [args.arg_eq_some rfl]
  refine Verdict.of_discharges not_false ?_
  obtain ⟨kept, hcalls⟩ := account_callEach [] [.loop, .walkCb] []
    .walkCb reply.entries (by simp)
  have huse : account [] (use some [.loop]) ⟨[.loop, .walkCb], []⟩ =
      some ⟨[.loop, .walkCb], []⟩ := account_use _ _ _ _ (by simp)
  have hdecref := account_decref [] [] kept [.loop, .walkCb]
  simp only [List.append_nil] at hdecref
  simp [Discharges, walk, Signature.handed, account_append, huse, hcalls,
    hdecref]

theorem Other.verdict (stub : Other) (args : Arguments stub.stub.signature) :
    Verdict stub.stub args.arg reply (stub.Defective reply) := by
  cases stub with
  | asyncInit | signalInit =>
      exact answer_verdict args rfl rfl
        (fun answer => answer ≠ .rejected true) (by decide)
  | ttyInit =>
      exact answer_verdict args rfl rfl (fun answer => answer = .accepted)
        (by decide)
  | pollInitSocket | spawn =>
      exact answer_verdict args rfl rfl (fun answer => answer ≠ .accepted)
        (by decide)
  | threadCreate =>
      exact answer_verdict args rfl rfl (fun _ => False) (by decide)
  | printAllHandles => exact printAllHandles_verdict args
  | signalStart | signalStartOneshot | signalStop | udpOpen =>
      exact constant_verdict args rfl rfl True (by decide)
  | addrinfoResultsIterate => exact addrinfoResultsIterate_verdict args
  | walk => exact walk_verdict args
  | udpSetMembership | udpSetSourceMembership =>
      exact constant_verdict args rfl rfl False (by decide)
  | udpTrySend =>
      exact optional_verdict args rfl (fun _ => rfl) (fun _ _ => False)
        (by decide)

theorem Export.verdict (stub : Export)
    (args : Arguments stub.stub.signature) (reply : Reply) :
    Verdict stub.stub args.arg reply (stub.Defective args.arg reply) := by
  cases stub with
  | call stub => exact stub.verdict args
  | store stub => exact stub.verdict args
  | transfer stub => exact stub.verdict args
  | init stub => exact stub.verdict args
  | leaving stub => exact stub.verdict args
  | submit stub => exact stub.verdict args
  | fsSync stub => exact stub.verdict args
  | other stub => exact stub.verdict args

/-- The convention holds in exactly the calls that are not defective. -/
theorem calleeSaved_iff (stub : Export)
    (args : Arguments stub.stub.signature) (reply : Reply) :
    CalleeSaved stub.stub.signature args.arg
        (stub.stub.trace args.arg reply) ↔
      ¬ stub.Defective args.arg reply := by
  obtain ⟨hkeeps, hbreaks⟩ := stub.verdict args reply
  constructor
  · intro hsaved hdefect
    exact hbreaks hdefect hsaved
  · intro hno
    exact (hkeeps hno).calleeSaved

/-- Arguments of a send without an address. -/
def withoutAddress : Arguments (Submit.udpSend.stub).signature where
  arg := nullAt .addr
  eq_or_null param := by
    by_cases hparam : param = .addr
    · exact Or.inr ⟨by simp [nullAt, hparam], by simp [hparam, Submit.stub,
        submit]⟩
    · exact Or.inl (by simp [nullAt, hparam])

/-- `Udp::send` on a connected socket: libuv takes the request, and then the
stub looks for the count of the object at `NULL`. -/
theorem udpSend_withoutAddress_breaks :
    ¬ CalleeSaved (Export.submit .udpSend).stub.signature withoutAddress.arg
      ((Export.submit .udpSend).stub.trace withoutAddress.arg
        ⟨.accepted, true, 0⟩) := by
  decide

/-- Those calls run on every balanced heap that owns the arguments: without a
fault, and what is left of the references are those in a slot. -/
theorem calleeSaved_run_ok {β : Type} [Ownership β] (stub : Export)
    (args : Arguments stub.stub.signature) (reply : Reply)
    (hno : ¬ stub.Defective args.arg reply) (env : Param → Addr)
    {heap : Heap β} {rest : Multiset Addr}
    (hlent : ∀ param ∈ stub.stub.signature.borrowed, env param ∈ rest)
    (hbalanced : Balanced heap
      (↑((stub.stub.signature.handed args.arg).map env) + rest)) :
    ∃ heap' kept, run env (stub.stub.trace args.arg reply) heap = .ok heap' ∧
      Balanced heap' (↑(List.map env kept) + rest) :=
  ((stub.verdict args reply).1 hno).run_ok hlent hbalanced

end Table

end UvMbt.Stubs
