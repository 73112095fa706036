/-
`Thread::set_affinity` and `Thread::get_affinity` of thread.mbt over the two C
stubs that hand the bytes of a `CpuSet` to libuv unchanged.  libuv reads and
writes one char per CPU where `CpuSet` packs eight.
-/
import UvMbt.CpuSet

set_option autoImplicit false

namespace UvMbt

open PackedBits

/-- What the binding relies on in libuv: the mask size, the non-zero char it
writes for a selected CPU, the answer of the operating system to a request,
and the status of a query. -/
structure AffinityUv (Thread : Type) where
  uvValue : Errno → Int
  cpumaskSize : Int
  mark : Nat → UInt8
  mark_ne_zero : ∀ cpu, mark cpu ≠ 0
  grant : Thread → Finset Nat →
    Except { status : Int // status ≠ 0 }
      { set : Finset Nat // set ⊆ Finset.range cpumaskSize.toNat }
  getError : Thread → Option { status : Int // status ≠ 0 }

/-- The operating system: the CPUs each thread may run on, all below the mask
size, and the requests made so far, newest first. -/
structure AffinityOs {Thread : Type} (uv : AffinityUv Thread) where
  affinity : Thread →
    { set : Finset Nat // set ⊆ Finset.range uv.cpumaskSize.toNat }
  asked : List (Thread × Finset Nat)

variable {Thread : Type}

/-- `uv_thread_setaffinity`: the requested set is the set of indices below the
mask size whose char is non-zero. -/
def uvThreadSetaffinity [DecidableEq Thread] (uv : AffinityUv Thread)
    (thread : Thread) (cpumask oldmask : Array UInt8) (maskSize : Int) (os : AffinityOs uv) :
    Int × Array UInt8 × AffinityOs uv :=
  if maskSize < uv.cpumaskSize then (uv.uvValue Errno.EINVAL, oldmask, os)
  else
    let size := uv.cpumaskSize.toNat
    let oldmask := charMask uv.mark size (os.affinity thread)
    let wanted := selected cpumask ∩ Finset.range size
    let asked := (thread, wanted) :: os.asked
    match uv.grant thread wanted with
    | .error status => (status, oldmask, { os with asked })
    | .ok set =>
        (0, oldmask, ⟨Function.update os.affinity thread set, asked⟩)

/-- `uv_thread_getaffinity`: the mask is filled with one char per CPU. -/
def uvThreadGetaffinity (uv : AffinityUv Thread) (thread : Thread)
    (cpumask : Array UInt8) (maskSize : Int) (os : AffinityOs uv) :
    Int × Array UInt8 :=
  if maskSize < uv.cpumaskSize then (uv.uvValue Errno.EINVAL, cpumask)
  else
    match uv.getError thread with
    | some status => (status, cpumask)
    | none =>
        (0, charMask uv.mark uv.cpumaskSize.toNat (os.affinity thread))

/-- `cpumask_size` of thread.mbt. -/
def cpumaskSize (uv : AffinityUv Thread) : Except Errno Int :=
  if uv.cpumaskSize < 0 then .error (Errno.ofInt uv.uvValue uv.cpumaskSize)
  else .ok uv.cpumaskSize

/-- `Thread::set_affinity`: the old mask is a fresh `CpuSet` that is dropped. -/
def setAffinity [DecidableEq Thread] (uv : AffinityUv Thread)
    (self : Thread) (cpuSet : CpuSet) (os : AffinityOs uv) :
    Except Errno Unit × AffinityOs uv :=
  match cpumaskSize uv, CpuSet.new uv.uvValue uv.cpumaskSize with
  | .error error, _ => (.error error, os)
  | _, .error error => (.error error, os)
  | .ok oldLen, .ok oldSet =>
      let (status, _, os) :=
        uvThreadSetaffinity uv self cpuSet.bytes oldSet.bytes oldLen os
      if status ≠ 0 then (.error (Errno.ofInt uv.uvValue status), os)
      else (.ok (), os)

/-- `Thread::get_affinity`. -/
def getAffinity (uv : AffinityUv Thread) (self : Thread)
    (os : AffinityOs uv) : Except Errno CpuSet := do
  let length ← cpumaskSize uv
  let cpuSet ← CpuSet.new uv.uvValue uv.cpumaskSize
  let (status, bytes) := uvThreadGetaffinity uv self cpuSet.bytes length os
  if status ≠ 0 then .error (Errno.ofInt uv.uvValue status)
  else return ⟨bytes⟩

/-- The sets a program can build with the operations of thread.mbt. -/
inductive CpuSet.Built (uv : AffinityUv Thread) : CpuSet → Prop
  | new {result : CpuSet}
      (hnew : CpuSet.new uv.uvValue uv.cpumaskSize = .ok result) :
      Built uv result
  | set {self result : CpuSet} {cpu : Int} (hself : Built uv self)
      (hset : self.set cpu = some result) : Built uv result
  | clear {self result : CpuSet} {cpu : Int} (hself : Built uv self)
      (hclear : self.clear cpu = some result) : Built uv result
  | zero {self : CpuSet} (hself : Built uv self) : Built uv self.zero
  | intersect {self other result : CpuSet} (hself : Built uv self)
      (hother : Built uv other)
      (hintersect : self.intersect other = some result) : Built uv result
  | union {self other result : CpuSet} (hself : Built uv self)
      (hother : Built uv other)
      (hunion : self.union other = some result) : Built uv result
  | xor {self other result : CpuSet} (hself : Built uv self)
      (hother : Built uv other)
      (hxor : self.xor other = some result) : Built uv result

/-- Every set a program builds has one byte per CPU, eight times what its
members need. -/
theorem CpuSet.Built.size_eq {uv : AffinityUv Thread} {self : CpuSet}
    (hbuilt : CpuSet.Built uv self) :
    0 ≤ uv.cpumaskSize ∧ self.bytes.size = uv.cpumaskSize.toNat := by
  induction hbuilt with
  | new hnew =>
      unfold CpuSet.new at hnew
      split at hnew
      · cases hnew
      · cases hnew
        exact ⟨by omega, by simp⟩
  | set hself hset ih => exact ⟨ih.1, (CpuSet.size_set hset).trans ih.2⟩
  | clear hself hclear ih =>
      exact ⟨ih.1, (CpuSet.size_clear hclear).trans ih.2⟩
  | zero hself ih => exact ⟨ih.1, (CpuSet.size_zero _).trans ih.2⟩
  | intersect hself hother hintersect ihself ihother =>
      refine ⟨ihself.1, ?_⟩
      rw [CpuSet.size_intersect hintersect, ihself.2, ihother.2, min_self]
  | union hself hother hunion ihself ihother =>
      refine ⟨ihself.1, ?_⟩
      rw [CpuSet.size_combine hunion, ihself.2, ihother.2, min_self]
  | xor hself hother hxor ihself ihother =>
      refine ⟨ihself.1, ?_⟩
      rw [CpuSet.size_combine hxor, ihself.2, ihother.2, min_self]

/-- `get_affinity()` returns a set whose members are the reported CPUs, and
whose `count` is their number. -/
def ReportsMembers (uv : AffinityUv Thread) (thread : Thread)
    (os : AffinityOs uv) : Prop :=
  ∃ result : CpuSet,
    getAffinity uv thread os = .ok result ∧
    (∀ cpu < 8 * result.bytes.size,
      result.isSet cpu = some true ↔ cpu ∈ (os.affinity thread).val) ∧
    result.count = (os.affinity thread).val.card

/-- The bytes that `get_affinity()` returns. -/
theorem getAffinity_eq (uv : AffinityUv Thread) (thread : Thread)
    (os : AffinityOs uv) (hpos : 0 ≤ uv.cpumaskSize)
    (hget : uv.getError thread = none) :
    getAffinity uv thread os =
      .ok ⟨charMask uv.mark uv.cpumaskSize.toNat (os.affinity thread)⟩ := by
  have hlen : ¬uv.cpumaskSize < 0 := by omega
  simp [getAffinity, cpumaskSize, CpuSet.new, hlen, uvThreadGetaffinity, hget,
    bind, Except.bind, pure, Except.pure]

theorem isSet_eq_some_true {self : CpuSet} {cpu : Nat}
    (hcpu : cpu < 8 * self.bytes.size) :
    self.isSet cpu = some true ↔ cpu ∈ self.members := by
  simp [CpuSet.isSet_of_lt hcpu]

/-- Two sets of indices of a mask are equal when they agree on every index a
`CpuSet` of its size has. -/
theorem eq_members_iff {bytes : Array UInt8} {set : Finset Nat}
    (hset : ∀ cpu ∈ set, cpu < 8 * bytes.size) :
    (∀ cpu < 8 * bytes.size, cpu ∈ set ↔ cpu ∈ PackedBits.members bytes) ↔
      set = PackedBits.members bytes := by
  constructor
  · intro hagree
    ext cpu
    constructor
    · intro hcpu
      exact (hagree cpu (hset cpu hcpu)).mp hcpu
    · intro hcpu
      exact (hagree cpu (mem_members_lt hcpu)).mpr hcpu
  · rintro rfl cpu _
    rfl

theorem selected_lt {bytes : Array UInt8} {cpu : Nat}
    (hcpu : cpu ∈ selected bytes) : cpu < 8 * bytes.size := by
  have h := Finset.mem_range.mp (Finset.mem_filter.mp hcpu).1
  omega

/-- A char mask read as packed bits gives back its set exactly when the set is
empty or is `{0}`, marked by the byte one. -/
theorem members_charMask_eq_iff {mark : Nat → UInt8} {size : Nat}
    {set : Finset Nat} (hmark : ∀ index, mark index ≠ 0)
    (hset : set ⊆ Finset.range size) :
    set = PackedBits.members (charMask mark size set) ↔
      set ⊆ {0} ∧ (0 ∈ set → mark 0 = 1) := by
  have hselected := selected_charMask hmark hset
  constructor
  · intro heq
    have hsub : set ⊆ {0} := by
      have h := (selected_eq_members_iff (charMask mark size set)).mp
        (hselected.trans heq)
      rwa [← heq] at h
    refine ⟨hsub, fun hzero => ?_⟩
    have hpos : 0 < size := by simpa using hset hzero
    have hbit : ∀ bit < 8,
        (mark 0).toNat.testBit bit = decide (bit = 0) := by
      intro bit hlt
      have hmem : bit ∈ set ↔ bit = 0 := by
        constructor
        · intro h
          simpa using hsub h
        · rintro rfl
          exact hzero
      rw [Bool.eq_iff_iff, decide_eq_true_iff, ← hmem, heq, mem_members,
        testBit, Nat.div_eq_of_lt hlt, Nat.mod_eq_of_lt hlt,
        byteAt_charMask, if_pos ⟨hpos, hzero⟩]
    have hall : ∀ value : Fin 256, (∀ bit < 8,
        (UInt8.ofFin value).toNat.testBit bit = decide (bit = 0)) →
          UInt8.ofFin value = 1 := by
      decide +kernel
    exact hall (mark 0).toFin hbit
  · rintro ⟨hsub, hone⟩
    rcases Finset.subset_singleton_iff.mp hsub with rfl | rfl
    · ext cpu
      simp [testBit]
    · have hpos : 0 < size := by simpa using hset
      ext cpu
      simp only [Finset.mem_singleton, mem_members, testBit, byteAt_charMask]
      by_cases hcpu : cpu / 8 = 0
      · rw [hcpu, if_pos ⟨hpos, rfl⟩, hone (by simp)]
        have hlt : cpu < 8 := by omega
        interval_cases cpu <;> decide
      · rw [if_neg (by simp [hcpu])]
        simp
        omega

theorem reportsMembers_iff (uv : AffinityUv Thread) (thread : Thread)
    (os : AffinityOs uv) (hpos : 0 ≤ uv.cpumaskSize)
    (hget : uv.getError thread = none) :
    ReportsMembers uv thread os ↔
      (os.affinity thread).val ⊆ {0} ∧
        (0 ∈ (os.affinity thread).val → uv.mark 0 = 1) := by
  let mask := charMask uv.mark uv.cpumaskSize.toNat (os.affinity thread)
  have hlt : ∀ cpu ∈ (os.affinity thread).val, cpu < 8 * mask.size := by
    intro cpu hcpu
    have h := Finset.mem_range.mp ((os.affinity thread).property hcpu)
    simp only [mask, size_charMask]
    omega
  have hisSet : ∀ cpu < 8 * mask.size,
      (CpuSet.mk mask).isSet cpu = some true ↔
        cpu ∈ PackedBits.members mask :=
    fun cpu hcpu => isSet_eq_some_true hcpu
  rw [← members_charMask_eq_iff uv.mark_ne_zero (os.affinity thread).property,
    ← eq_members_iff hlt]
  simp only [ReportsMembers, getAffinity_eq uv thread os hpos hget,
    Except.ok.injEq, exists_eq_left', CpuSet.count_eq_card]
  constructor
  · rintro ⟨hagree, _⟩ cpu hcpu
    exact (hagree cpu hcpu).symm.trans (hisSet cpu hcpu)
  · intro hagree
    refine ⟨fun cpu hcpu => ?_, ?_⟩
    · exact (hisSet cpu hcpu).trans (hagree cpu hcpu).symm
    · rw [CpuSet.members, ← (eq_members_iff hlt).mp hagree]

/-- The operating system gives the thread exactly the CPUs whose bytes in `s`
are non-zero, when it is asked for them. -/
def GrantsAsAsked (uv : AffinityUv Thread) (thread : Thread)
    (self : CpuSet) : Prop :=
  ∃ set, uv.grant thread (selected self.bytes) = .ok set ∧
    set.val = selected self.bytes

variable [DecidableEq Thread]

/-- `set_affinity(s)` asks the operating system for a CPU exactly when
`s.is_set` holds of it. -/
def AsksForMembers (uv : AffinityUv Thread) (thread : Thread) (self : CpuSet)
    (os : AffinityOs uv) : Prop :=
  ∃ wanted : Finset Nat,
    (setAffinity uv thread self os).2.asked = (thread, wanted) :: os.asked ∧
    ∀ cpu < 8 * self.bytes.size, cpu ∈ wanted ↔ self.isSet cpu = some true

/-- `get_affinity` after `set_affinity(s)` gives back `s`. -/
def RoundTrips (uv : AffinityUv Thread) (thread : Thread) (self : CpuSet)
    (os : AffinityOs uv) : Prop :=
  GrantsAsAsked uv thread self →
    getAffinity uv thread (setAffinity uv thread self os).2 = .ok self

theorem selected_inter_range {bytes : Array UInt8} {size : Nat}
    (hsize : bytes.size = size) :
    selected bytes ∩ Finset.range size = selected bytes := by
  apply Finset.inter_eq_left.mpr
  rw [← hsize]
  exact Finset.filter_subset _ _

/-- The request that `set_affinity(s)` makes: the indices of the non-zero
bytes of `s`. -/
theorem setAffinity_asked (uv : AffinityUv Thread) (thread : Thread)
    {self : CpuSet} (os : AffinityOs uv) (hpos : 0 ≤ uv.cpumaskSize)
    (hsize : self.bytes.size = uv.cpumaskSize.toNat) :
    (setAffinity uv thread self os).2.asked =
      (thread, selected self.bytes) :: os.asked := by
  have hlen : ¬uv.cpumaskSize < 0 := by omega
  simp only [setAffinity, cpumaskSize, CpuSet.new, if_neg hlen,
    uvThreadSetaffinity, lt_irrefl, if_false, selected_inter_range hsize]
  cases uv.grant thread (selected self.bytes) with
  | error status => simp [status.property]
  | ok set => simp

theorem setAffinity_affinity (uv : AffinityUv Thread) (thread : Thread)
    {self : CpuSet} (os : AffinityOs uv) (hpos : 0 ≤ uv.cpumaskSize)
    (hsize : self.bytes.size = uv.cpumaskSize.toNat)
    (hgrant : GrantsAsAsked uv thread self) :
    ((setAffinity uv thread self os).2.affinity thread).val =
      selected self.bytes := by
  have hlen : ¬uv.cpumaskSize < 0 := by omega
  obtain ⟨set, hset, hval⟩ := hgrant
  simp [setAffinity, cpumaskSize, CpuSet.new, hlen, uvThreadSetaffinity,
    selected_inter_range hsize, hset, hval]

theorem asksForMembers_iff (uv : AffinityUv Thread) (thread : Thread)
    {self : CpuSet} (os : AffinityOs uv) (hpos : 0 ≤ uv.cpumaskSize)
    (hsize : self.bytes.size = uv.cpumaskSize.toNat) :
    AsksForMembers uv thread self os ↔ self.members ⊆ {0} := by
  rw [CpuSet.members, ← selected_eq_members_iff,
    ← eq_members_iff (fun cpu hcpu => selected_lt hcpu)]
  simp only [AsksForMembers, setAffinity_asked uv thread os hpos hsize,
    List.cons.injEq, Prod.mk.injEq, true_and, and_true, exists_eq_left']
  constructor
  · intro hagree cpu hcpu
    rw [hagree cpu hcpu, isSet_eq_some_true hcpu, CpuSet.members]
  · intro hagree cpu hcpu
    rw [hagree cpu hcpu, isSet_eq_some_true hcpu, CpuSet.members]

theorem roundTrips_iff (uv : AffinityUv Thread) (thread : Thread)
    {self : CpuSet} (os : AffinityOs uv) (hpos : 0 ≤ uv.cpumaskSize)
    (hsize : self.bytes.size = uv.cpumaskSize.toNat)
    (hget : uv.getError thread = none) :
    RoundTrips uv thread self os ↔
      (GrantsAsAsked uv thread self →
        ∀ cpu < self.bytes.size,
          byteAt self.bytes cpu = 0 ∨ byteAt self.bytes cpu = uv.mark cpu) := by
  apply imp_congr_right
  intro hgrant
  rw [getAffinity_eq uv thread _ hpos hget,
    setAffinity_affinity uv thread os hpos hsize hgrant, ← hsize,
    ← charMask_selected_eq_iff uv.mark self.bytes]
  constructor
  · intro heq
    exact congrArg CpuSet.bytes (Except.ok.inj heq)
  · intro heq
    rw [heq]

/-- When the affinity calls and `CpuSet` agree: a request for exactly the sets
inside `{0}`, a report for exactly the sets inside `{0}` that libuv marks with
one, a round trip for exactly the byte patterns libuv writes itself. -/
theorem affinity_agrees_iff (uv : AffinityUv Thread) (thread : Thread)
    (self : CpuSet) (os : AffinityOs uv) (hbuilt : CpuSet.Built uv self)
    (hget : uv.getError thread = none) :
    (AsksForMembers uv thread self os ↔ self.members ⊆ {0}) ∧
    (ReportsMembers uv thread os ↔
      (os.affinity thread).val ⊆ {0} ∧
        (0 ∈ (os.affinity thread).val → uv.mark 0 = 1)) ∧
    (RoundTrips uv thread self os ↔
      (GrantsAsAsked uv thread self →
        ∀ cpu < self.bytes.size,
          byteAt self.bytes cpu = 0 ∨
            byteAt self.bytes cpu = uv.mark cpu)) := by
  obtain ⟨hpos, hsize⟩ := hbuilt.size_eq
  exact ⟨asksForMembers_iff uv thread os hpos hsize,
    reportsMembers_iff uv thread os hpos hget,
    roundTrips_iff uv thread os hpos hsize hget⟩

namespace AffinityWitness

/-- A libuv with 64-byte masks on a system that grants every request. -/
def uv : AffinityUv Unit where
  uvValue := Errno.linuxValue
  cpumaskSize := 64
  mark := fun _ => 1
  mark_ne_zero := fun _ => by decide
  grant := fun _ wanted =>
    .ok ⟨wanted ∩ Finset.range 64, Finset.inter_subset_right⟩
  getError := fun _ => none

/-- The thread runs on CPU `cpu`. -/
def os (cpu : Fin 64) : AffinityOs uv where
  affinity := fun _ => ⟨{cpu.val}, by simp [uv]⟩
  asked := []

/-- `CpuSet::new()` followed by `set(1)`. -/
def cpuOne : CpuSet :=
  ⟨(Array.replicate 64 0).setIfInBounds 0 2⟩

theorem cpuOne_built : CpuSet.Built uv cpuOne :=
  CpuSet.Built.set (CpuSet.Built.new rfl) (by decide : CpuSet.set _ 1 = _)

end AffinityWitness

open AffinityWitness in
/-- A set that holds CPU 1 alone is asked for as CPU 0, and a thread that runs
on CPU 1 alone is reported as one that runs on CPU 8. -/
theorem affinity_disagrees_on_cpu_one :
    CpuSet.Built uv cpuOne ∧ ¬AsksForMembers uv () cpuOne (os 0) ∧
      ¬ReportsMembers uv () (os 1) := by
  refine ⟨cpuOne_built, ?_, ?_⟩
  · rw [asksForMembers_iff uv () (os 0) (by decide) (by decide)]
    intro hsub
    have hmem : 1 ∈ cpuOne.members := by
      rw [CpuSet.members, mem_members]
      decide
    simpa using hsub hmem
  · rw [reportsMembers_iff uv () (os 1) (by decide) rfl]
    rintro ⟨hsub, _⟩
    have hmem : 1 ∈ ((os 1).affinity ()).val := by simp [os]
    simpa using hsub hmem

open AffinityWitness in
theorem affinity_agrees_iff_cpuOne :
    (AsksForMembers uv () cpuOne (os 1) ↔ cpuOne.members ⊆ {0}) ∧
    (ReportsMembers uv () (os 1) ↔
      ((os 1).affinity ()).val ⊆ {0} ∧
        (0 ∈ ((os 1).affinity ()).val → uv.mark 0 = 1)) ∧
    (RoundTrips uv () cpuOne (os 1) ↔
      (GrantsAsAsked uv () cpuOne →
        ∀ cpu < cpuOne.bytes.size,
          byteAt cpuOne.bytes cpu = 0 ∨
            byteAt cpuOne.bytes cpu = uv.mark cpu)) :=
  affinity_agrees_iff uv () cpuOne (os 1) cpuOne_built rfl

end UvMbt
