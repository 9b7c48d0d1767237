import LowLatency.Basic
set_option autoImplicit false

/-!
# CPU sets and thread affinity on macOS

macOS has no `pthread_setaffinity_np`, so the library defines a `cpu_set_t` of one `uint32_t`
with a bit per core, the macros `CPU_ZERO`, `CPU_SET` and `CPU_ISSET` over it, and two
functions: `sched_getaffinity` sets one bit per core the kernel reports, and
`pthread_setaffinity_np` binds the thread to the first core whose bit is set, through a Mach
affinity policy whose tag is that core.

`count` is a `BitVec 32`, and an `int` is its 32-bit pattern.  `1 << num` is defined (C++20)
for `0 ≤ num < 32` and is then the pattern with bit `num` set (`1 << 31` is `INT_MIN`); any
other shift is undefined behaviour, modelled as `none`.  The kernel's answers
(`sysctlbyname`'s return code and core count) are arguments; the `printf`s and the Mach calls
only report or apply the result, which the model returns.
-/

namespace LowLatency

/-- `cpu_set_t`: bit `i` of `count` is core `i`. -/
structure cpu_set_t where
  count : BitVec 32
  deriving DecidableEq, Repr

/-- Core `c` is in the set: bit `c` of `count` (false past bit 31). -/
def cpu_set_t.isSet (cs : cpu_set_t) (c : Nat) : Bool :=
  cs.count.getLsbD c

/-- `1 << num` for an `int num`, or `none` when the shift is undefined. -/
def shlOne (num : Int) : Option (BitVec 32) :=
  if 0 ≤ num ∧ num < 32 then some (1#32 <<< num.toNat) else none

/-- `CPU_ZERO(cs)`: `cs->count = 0`. -/
def CPU_ZERO (_cs : cpu_set_t) : cpu_set_t :=
  ⟨0⟩

/-- `CPU_SET(num, cs)`: `cs->count |= (1 << num)`. -/
def CPU_SET (num : Int) (cs : cpu_set_t) : Option cpu_set_t :=
  (shlOne num).map fun b => ⟨cs.count ||| b⟩

/-- `CPU_ISSET(num, cs)`: `cs->count & (1 << num)`, converted to the `int` it returns. -/
def CPU_ISSET (num : Int) (cs : cpu_set_t) : Option Int :=
  (shlOne num).map fun b => (cs.count &&& b).toInt

/-- The loop `for (int i = 0; i < n; i++) cpu_set->count |= (1 << i);`. -/
def setCores : Nat → cpu_set_t → Option cpu_set_t
  | 0, cs => some cs
  | n + 1, cs => (setCores n cs).bind (CPU_SET n)

/-- `sched_getaffinity(pid, cpu_size, cpu_set)`, given what
`sysctlbyname("machdep.cpu.core_count", ...)` returned (`ret`) and wrote (`coreCount`): `-1`
with the set untouched on failure, else `0` with one bit per core. -/
def sched_getaffinity (ret coreCount : Int) (cs : cpu_set_t) : Option (Int × cpu_set_t) :=
  if ret ≠ 0 then some (-1, cs)
  else (setCores coreCount.toNat (CPU_ZERO cs)).map fun cs => (0, cs)

/-- The search `for (; core < bound; core++) { if (CPU_ISSET(core, cpu_set)) break; }` with `n`
iterations left: the core it stops at. -/
def findCore (cs : cpu_set_t) : Nat → Nat → Option Nat
  | 0, core => some core
  | n + 1, core => (CPU_ISSET core cs).bind fun r =>
    if r ≠ 0 then some core else findCore cs n (core + 1)

/-- `pthread_setaffinity_np(thread, cpu_size, cpu_set)`: the return value `0` and the core
the policy `{core}` binds the thread to.  The bound `8 * cpu_size` is computed in `size_t`. -/
def pthread_setaffinity_np (cpuSize : Nat) (cs : cpu_set_t) : Option (Int × Nat) :=
  (findCore cs (8 * cpuSize % 2 ^ 64) 0).map fun core => (0, core)

/-! ## The bit operations -/

theorem shlOne_of_lt {c : Nat} (hc : c < 32) : shlOne c = some (1#32 <<< c) := by
  rw [shlOne, if_pos (by omega), Int.toNat_ofNat]

theorem shlOne_of_le {c : Nat} (hc : 32 ≤ c) : shlOne c = none := by
  simp [shlOne]; omega

theorem getLsbD_one_shiftLeft {c : Nat} (hc : c < 32) (i : Nat) :
    (1#32 <<< c).getLsbD i = decide (i = c) := by
  have h := BitVec.getLsbD_twoPow (w := 32) c i
  simp only [BitVec.twoPow] at h
  rw [h, decide_eq_true hc, Bool.true_and]
  exact decide_eq_decide.mpr eq_comm

/-- Masking with `1 << c` keeps bit `c` alone. -/
theorem and_one_shiftLeft_eq_zero_iff {c : Nat} (hc : c < 32) (x : BitVec 32) :
    x &&& 1#32 <<< c = 0#32 ↔ x.getLsbD c = false := by
  constructor
  · intro h
    simpa [getLsbD_one_shiftLeft hc] using congrArg (BitVec.getLsbD · c) h
  · intro h
    ext i
    by_cases hi : i.val = c <;> simp [getLsbD_one_shiftLeft hc, hi, h]

/-- `CPU_ISSET(c, cs)` for a core below 32 is non-zero exactly when bit `c` is set. -/
theorem CPU_ISSET_of_lt {c : Nat} (hc : c < 32) (cs : cpu_set_t) :
    ∃ r, CPU_ISSET c cs = some r ∧ (r ≠ 0 ↔ cs.isSet c = true) := by
  refine ⟨(cs.count &&& 1#32 <<< c).toInt, by simp [CPU_ISSET, shlOne_of_lt hc], ?_⟩
  have hzero : (0#32).toInt = 0 := rfl
  rw [Ne, ← hzero, BitVec.toInt_inj, and_one_shiftLeft_eq_zero_iff hc, cpu_set_t.isSet,
    Bool.not_eq_false]

/-! ## `sched_getaffinity` -/

/-- After `i` iterations from an empty set the loop has set bits `0 … i - 1`. -/
theorem setCores_zero {n : Nat} (hn : n ≤ 32) :
    setCores n ⟨0⟩ = some ⟨BitVec.ofNat 32 (2 ^ n - 1)⟩ := by
  induction n with
  | zero => rfl
  | succ n ih =>
    rw [setCores, ih (by omega), Option.some_bind, CPU_SET, shlOne_of_lt (by omega),
      Option.map_some']
    congr 2
    apply BitVec.eq_of_getLsbD_eq
    intro i
    simp only [BitVec.getLsbD_or, BitVec.getLsbD_ofNat, Nat.testBit_two_pow_sub_one,
      getLsbD_one_shiftLeft (show n < 32 by omega)]
    by_cases h : i.val < n + 1 <;> simp [h, i.isLt] <;> omega

/-- Past 32 iterations the loop shifts `1` by 32: undefined. -/
theorem setCores_of_lt {n : Nat} (hn : 32 < n) (cs : cpu_set_t) : setCores n cs = none := by
  obtain ⟨k, rfl⟩ : ∃ k, n = k + 1 := ⟨n - 1, by omega⟩
  simp [setCores, CPU_SET, shlOne_of_le (show 32 ≤ k by omega)]

/-- For every answer of `sysctlbyname`: on failure `sched_getaffinity` returns `-1` and leaves
the set alone; otherwise it returns `0` with exactly the cores below the reported count set
(`2^count - 1`, no core for a count `≤ 0`), and for a count above 32 its loop shifts `1` by 32
or more, which is undefined. -/
theorem sched_getaffinity_eq (ret coreCount : Int) (cs : cpu_set_t) :
    sched_getaffinity ret coreCount cs =
      if ret ≠ 0 then some (-1, cs)
      else if coreCount ≤ 32 then some (0, ⟨BitVec.ofNat 32 (2 ^ coreCount.toNat - 1)⟩)
      else none := by
  unfold sched_getaffinity CPU_ZERO
  split
  · rfl
  · split
    · rw [setCores_zero (by omega)]; rfl
    · rw [setCores_of_lt (by omega)]; rfl

/-! ## `pthread_setaffinity_np` -/

variable (cs : cpu_set_t)

/-- The search stops at the first set core at or after its start. -/
theorem findCore_of_first {c : Nat} (hbit : cs.isSet c = true) :
    ∀ n core, core ≤ c → c < core + n →
      (∀ c', core ≤ c' → c' < c → cs.isSet c' = false) → findCore cs n core = some c
  | 0, _, h1, h2, _ => absurd h2 (by omega)
  | n + 1, core, h1, h2, hbelow => by
    have hc : c < 32 := by
      by_contra h
      simp [cpu_set_t.isSet, BitVec.getLsbD_ge _ _ (by omega : 32 ≤ c)] at hbit
    obtain ⟨r, hr, hiff⟩ := CPU_ISSET_of_lt (show core < 32 by omega) cs
    simp only [findCore, hr, Option.some_bind]
    rcases Nat.eq_or_lt_of_le h1 with rfl | hlt
    · rw [if_pos (hiff.mpr hbit)]
    · rw [if_neg (by rw [hiff, hbelow core le_rfl hlt]; decide)]
      exact findCore_of_first hbit n (core + 1) hlt (by omega)
        fun c' h1' h2' => hbelow c' (by omega) h2'

/-- With no set core in its range, the search runs to its bound, unless it reaches core 32
first, whose `CPU_ISSET` is undefined. -/
theorem findCore_of_none :
    ∀ n core, core ≤ 32 → (∀ c', core ≤ c' → c' < core + n → cs.isSet c' = false) →
      findCore cs n core = if core + n ≤ 32 then some (core + n) else none
  | 0, core, hcore, _ => by simp [findCore, hcore]
  | n + 1, core, hcore, hnone => by
    rcases Nat.eq_or_lt_of_le hcore with rfl | hlt
    · simp [findCore, CPU_ISSET, shlOne, show ¬32 + (n + 1) ≤ 32 by omega]
    · obtain ⟨r, hr, hiff⟩ := CPU_ISSET_of_lt hlt cs
      simp only [findCore, hr, Option.some_bind]
      rw [if_neg (by rw [hiff, hnone core le_rfl (by omega)]; decide),
        findCore_of_none n (core + 1) hlt fun c' h1 h2 => hnone c' (by omega) (by omega)]
      simp only [Nat.add_right_comm core 1 n, Nat.add_assoc]

/-- For every set of cores and every `cpu_size`: when a core below `8 * cpu_size` is set,
`pthread_setaffinity_np` returns 0 and binds the thread to the lowest one; when none is, its
loop runs out and binds the thread to core `8 * cpu_size`, one past the cores it looked at
(core 32 for the 4 bytes of `cpu_set_t`), unless that bound exceeds 32, where
`CPU_ISSET(32, ...)` is undefined. -/
theorem pthread_setaffinity_np_binds_lowest (cpuSize : Nat) :
    (∀ c, c < 8 * cpuSize % 2 ^ 64 → cs.isSet c = true →
      (∀ c' < c, cs.isSet c' = false) → pthread_setaffinity_np cpuSize cs = some (0, c)) ∧
    ((∀ c < 8 * cpuSize % 2 ^ 64, cs.isSet c = false) →
      pthread_setaffinity_np cpuSize cs =
        if 8 * cpuSize % 2 ^ 64 ≤ 32 then some (0, 8 * cpuSize % 2 ^ 64) else none) := by
  refine ⟨fun c hc hbit hbelow => ?_, fun hnone => ?_⟩
  · rw [pthread_setaffinity_np, findCore_of_first cs hbit _ 0 (Nat.zero_le c) (by omega)
      fun c' _ h => hbelow c' h]
    rfl
  · rw [pthread_setaffinity_np, findCore_of_none cs _ 0 (by omega)
      fun c' _ h => hnone c' (by omega), Nat.zero_add]
    split <;> rfl

/-- Core 2 alone is set: the thread is bound to it; no core is set: to core 32. -/
example :
    pthread_setaffinity_np 4 ⟨4#32⟩ = some (0, 2) ∧ pthread_setaffinity_np 4 ⟨0#32⟩ = some (0, 32) :=
  ⟨(pthread_setaffinity_np_binds_lowest ⟨4#32⟩ 4).1 2 (by decide) (by decide) (by decide),
    ((pthread_setaffinity_np_binds_lowest ⟨0#32⟩ 4).2 (by decide)).trans (by decide)⟩

end LowLatency
