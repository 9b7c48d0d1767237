import LowLatency.Basic
import Mathlib.Data.Nat.Find
set_option autoImplicit false

/-!
# MemPool: the fixed-capacity object pool

`Common::MemPool<T>` owns a vector `store_` of `ObjectBlock`s (an object and its `is_free_`
flag) and the index `next_free_index_`.  `allocate` constructs the object in the block at
`next_free_index_`, marks it used, and calls `updateNextFreeIndex`, whose loop walks forward
cyclically until it finds a free block and exits with "Memory Pool out of space." if it comes
back to where it started.  `deallocate` marks a block free again and never moves the index.

A handle (`T*`) is modelled by the index of its block; `deallocate` receives the pointer
difference `elem - &store_[0]` as an `Int`, so a foreign pointer can be out of range.  The
loop is a function of a fuel argument (`scanFree`); `updateNextFreeIndex` gives it
`store_.size()` iterations, and `scanFree_of_first_free` / `scanFree_of_none_free` show
that it always stops inside that budget: with the block it returns, or with the exit.

The constructor's `ASSERT` that `object_` is the first member of `ObjectBlock` is a layout
fact of the C++ struct and holds; the model leaves it out.  The source writes
`next_free_index` and `is_free` for `next_free_index_` and `is_free_`; the model takes the
evident intent.
-/

namespace LowLatency

/-- `MemPool<T>::ObjectBlock`: the object and whether the block is free. -/
structure ObjectBlock (α : Type) where
  object : α
  isFree : Bool
  deriving DecidableEq, Repr

/-- `Common::MemPool<T>`: the blocks and the index of the next block to hand out. -/
structure MemPool (α : Type) where
  store : List (ObjectBlock α)
  nextFreeIndex : Nat
  deriving DecidableEq, Repr

namespace MemPool

variable {α : Type}

/-- `store_[i].is_free_`.  An index past the end reads as not free. -/
def isFreeAt (store : List (ObjectBlock α)) (i : Nat) : Bool :=
  (store[i]?.map (·.isFree)).getD false

/-- `MemPool(num_elems)`: `num_elems` free blocks holding `T()`, next free index `0`. -/
def new [Inhabited α] (numElems : Nat) : MemPool α :=
  ⟨List.replicate numElems ⟨default, true⟩, 0⟩

/-- The `while (!store_[next_free_index_].is_free_)` loop of `updateNextFreeIndex()`, at
index `i` with `fuel` iterations left; `initial` is `initial_free_index`.  After
`++next_free_index_` wraps to `0` at `store_.size()`, the loop exits with "Memory Pool out of
space." once it is back at `initial`. -/
def scanFree (store : List (ObjectBlock α)) (initial : Nat) : Nat → Nat → Except String Nat
  | 0, _ => .error "Memory Pool out of space."
  | fuel + 1, i =>
    if isFreeAt store i then .ok i
    else do
      let j := if i + 1 = store.length then 0 else i + 1
      ASSERT (initial != j) "Memory Pool out of space."
      scanFree store initial fuel j

/-- `updateNextFreeIndex()`: move `next_free_index_` to the next free block. -/
def updateNextFreeIndex (p : MemPool α) : Except String (MemPool α) := do
  let i ← scanFree p.store p.nextFreeIndex p.store.length p.nextFreeIndex
  pure { p with nextFreeIndex := i }

/-- `allocate(args...)`: construct `v` (that is, `T(args...)`) in the block at
`next_free_index_`, mark it used, advance the index, and return the block's handle. -/
def allocate (p : MemPool α) (v : α) : Except String (MemPool α × Nat) := do
  let i := p.nextFreeIndex
  ASSERT (isFreeAt p.store i) ("Expected free ObjectBlock at index:" ++ toString i)
  let p' ← updateNextFreeIndex { p with store := p.store.set i ⟨v, false⟩ }
  pure (p', i)

/-- `deallocate(elem)`, with `elemIndex = elem - &store_[0]`: check that the block belongs to
the pool and is in use, then mark it free. -/
def deallocate (p : MemPool α) (elemIndex : Int) : Except String (MemPool α) := do
  ASSERT (0 ≤ elemIndex && elemIndex < p.store.length)
    "Element being deallocated does not belong to this Memory pool."
  ASSERT (!isFreeAt p.store elemIndex.toNat)
    ("Expected in-use ObjectBlock at index:" ++ toString elemIndex)
  pure { p with store := p.store.modify (fun b => { b with isFree := true }) elemIndex.toNat }

/-! ## Free flags -/

theorem lt_of_isFreeAt {store : List (ObjectBlock α)} {i : Nat}
    (h : isFreeAt store i = true) : i < store.length := by
  by_contra hi
  simp [isFreeAt, List.getElem?_eq_none (Nat.le_of_not_lt hi)] at h

theorem isFreeAt_set_self (store : List (ObjectBlock α)) {i : Nat} (b : ObjectBlock α)
    (h : i < store.length) : isFreeAt (store.set i b) i = b.isFree := by
  simp [isFreeAt, h]

theorem isFreeAt_set_ne (store : List (ObjectBlock α)) {i j : Nat} (b : ObjectBlock α)
    (h : i ≠ j) : isFreeAt (store.set i b) j = isFreeAt store j := by
  simp [isFreeAt, List.getElem?_set_ne h]

theorem isFreeAt_modify_self (store : List (ObjectBlock α)) {i : Nat}
    (h : i < store.length) :
    isFreeAt (store.modify (fun b => { b with isFree := true }) i) i = true := by
  simp [isFreeAt, List.getElem?_modify, h]

theorem isFreeAt_modify_ne (store : List (ObjectBlock α)) {i j : Nat} (h : i ≠ j) :
    isFreeAt (store.modify (fun b => { b with isFree := true }) i) j = isFreeAt store j := by
  simp only [isFreeAt, List.getElem?_modify, h, if_false]
  cases store[j]? <;> rfl

theorem isFreeAt_replicate [Inhabited α] {n i : Nat} (h : i < n) :
    isFreeAt (List.replicate n (⟨default, true⟩ : ObjectBlock α)) i = true := by
  simp [isFreeAt, List.getElem?_replicate, h]

/-! ## The scan of `updateNextFreeIndex` -/

section Scan

variable {store : List (ObjectBlock α)} {initial : Nat}

/-- The wrap-around increment of the loop is `+ 1` modulo the capacity. -/
theorem wrap_eq_mod {N i : Nat} (h : i < N) : (if i + 1 = N then 0 else i + 1) = (i + 1) % N := by
  split
  · simp [*]
  · rw [Nat.mod_eq_of_lt (by omega)]

/-- From offset `k`, the next index the loop visits is offset `k + 1`. -/
theorem wrap_offset {N k : Nat} (hN : 0 < N) :
    (if (initial + k) % N + 1 = N then 0 else (initial + k) % N + 1) = (initial + (k + 1)) % N := by
  rw [wrap_eq_mod (Nat.mod_lt _ hN), Nat.mod_add_mod, Nat.add_assoc]

/-- Before a full revolution the loop is not back at its start. -/
theorem offset_ne_initial {N k : Nat} (hinit : initial < N) (hk : k + 1 < N) :
    (initial != (initial + (k + 1)) % N) = true := by
  simp only [bne_iff_ne, ne_eq]
  intro h
  have : (initial + 0) % N = (initial + (k + 1)) % N := by
    rw [Nat.add_zero, Nat.mod_eq_of_lt hinit]; exact h
  exact absurd (add_mod_cancel_of_lt (by omega) hk this) (by omega)

/-- A block the scan returns is free. -/
theorem isFreeAt_of_scanFree_ok :
    ∀ {fuel i j : Nat}, scanFree store initial fuel i = .ok j → isFreeAt store j = true
  | 0, _, _, h => nomatch h
  | fuel + 1, i, j, h => by
    simp only [scanFree] at h
    split at h
    · cases h; assumption
    · rw [bind_eq_ok_iff] at h
      obtain ⟨_, -, h⟩ := h
      exact isFreeAt_of_scanFree_ok h

/-- If the first free block at offset `k` or later is at offset `m < N`, the scan from
offset `k` returns it. -/
theorem scanFree_of_first_free {m : Nat} (hinit : initial < store.length)
    (hm : m < store.length) (hfree : isFreeAt store ((initial + m) % store.length) = true) :
    ∀ d k, k + d = store.length → k ≤ m →
      (∀ m', k ≤ m' → m' < m → isFreeAt store ((initial + m') % store.length) = false) →
      scanFree store initial d ((initial + k) % store.length) =
        .ok ((initial + m) % store.length)
  | 0, k, hd, hk, _ => absurd hd (by omega)
  | d + 1, k, hd, hk, hused => by
    rcases Nat.eq_or_lt_of_le hk with rfl | hlt
    · simp [scanFree, hfree]
    · have hN : 0 < store.length := by omega
      simp only [scanFree, hused k le_rfl hlt, Bool.false_eq_true, if_false,
        wrap_offset hN, offset_ne_initial hinit (by omega : k + 1 < store.length),
        ASSERT_true, ok_bind]
      exact scanFree_of_first_free hinit hm hfree d (k + 1) (by omega) hlt
        fun m' h1 h2 => hused m' (by omega) h2

/-- If no block at offset `k` or later is free, the scan from offset `k` exits. -/
theorem scanFree_of_none_free (hinit : initial < store.length) :
    ∀ d k, k + d = store.length →
      (∀ m', k ≤ m' → m' < store.length →
        isFreeAt store ((initial + m') % store.length) = false) →
      scanFree store initial d ((initial + k) % store.length) =
        .error "Memory Pool out of space."
  | 0, _, _, _ => rfl
  | d + 1, k, hd, hused => by
    have hN : 0 < store.length := by omega
    simp only [scanFree, hused k le_rfl (by omega), Bool.false_eq_true, if_false,
      wrap_offset hN]
    by_cases hlast : k + 1 = store.length
    · simp [hlast, Nat.mod_eq_of_lt hinit]
    · rw [offset_ne_initial hinit (by omega), ASSERT_true, ok_bind]
      exact scanFree_of_none_free hinit d (k + 1) (by omega)
        fun m' h1 h2 => hused m' (by omega) h2

/-- Started at `initial` with `store_.size()` iterations, the loop returns the first free
block in cyclic order after `initial` (offset `m`), or exits when no block is free. -/
theorem scanFree_start (hinit : initial < store.length) :
    (∃ m, m < store.length ∧ isFreeAt store ((initial + m) % store.length) = true ∧
      (∀ m', m' < m → isFreeAt store ((initial + m') % store.length) = false) ∧
      scanFree store initial store.length initial = .ok ((initial + m) % store.length)) ∨
    ((∀ m, m < store.length → isFreeAt store ((initial + m) % store.length) = false) ∧
      scanFree store initial store.length initial = .error "Memory Pool out of space.") := by
  have hstart : (initial + 0) % store.length = initial := by
    rw [Nat.add_zero, Nat.mod_eq_of_lt hinit]
  by_cases hex : ∃ m, m < store.length ∧ isFreeAt store ((initial + m) % store.length) = true
  · classical
    obtain ⟨hm, hfree⟩ := Nat.find_spec hex
    have hfirst : ∀ m', m' < Nat.find hex →
        isFreeAt store ((initial + m') % store.length) = false := fun m' hlt => by
      simpa [hlt.trans hm] using Nat.find_min hex hlt
    have h0 := scanFree_of_first_free hinit hm hfree store.length 0 (by omega) (Nat.zero_le _)
      fun m' _ hlt => hfirst m' hlt
    rw [hstart] at h0
    exact .inl ⟨Nat.find hex, hm, hfree, hfirst, h0⟩
  · have hnone : ∀ m, m < store.length →
        isFreeAt store ((initial + m) % store.length) = false := fun m hm => by
      simpa using fun h => hex ⟨m, hm, h⟩
    have h0 := scanFree_of_none_free hinit store.length 0 (by omega)
      fun m' _ hm' => hnone m' hm'
    rw [hstart] at h0
    exact .inr ⟨hnone, h0⟩

/-- The budget of `store_.size()` iterations is never the reason the loop stops: from any
offset `k < N`, more fuel gives the same result, so `scanFree` is the unbounded `while`. -/
theorem scanFree_add_fuel (hinit : initial < store.length) :
    ∀ d k extra, k + (d + 1) = store.length →
      scanFree store initial (d + 1 + extra) ((initial + k) % store.length) =
        scanFree store initial (d + 1) ((initial + k) % store.length)
  | d, k, extra, hd => by
    have hN : 0 < store.length := by omega
    rw [show d + 1 + extra = (d + extra) + 1 by omega]
    simp only [scanFree, wrap_offset hN]
    split
    · rfl
    · cases d with
      | zero =>
        have hback : (initial + (k + 1)) % store.length = initial := by
          rw [show initial + (k + 1) = initial + store.length by omega, Nat.add_mod_right,
            Nat.mod_eq_of_lt hinit]
        simp [hback]
      | succ d =>
        rw [offset_ne_initial hinit (by omega), ASSERT_true, ok_bind, ok_bind]
        exact scanFree_add_fuel hinit d (k + 1) extra (by omega)

/-- The only exit `scanFree` takes is "Memory Pool out of space.". -/
theorem scanFree_error {store : List (ObjectBlock α)} {initial : Nat} :
    ∀ {fuel i : Nat} {e : String}, scanFree store initial fuel i = .error e →
      e = "Memory Pool out of space."
  | 0, _, _, h => by cases h; rfl
  | fuel + 1, i, e, h => by
    simp only [scanFree] at h
    split at h
    · cases h
    · rcases (bind_eq_error_iff _ _ _).mp h with h | ⟨_, -, h⟩
      · exact ((ASSERT_eq_error_iff _ _ _).mp h).2
      · exact scanFree_error h

end Scan

/-! ## `allocate` -/

/-- The block `allocate` hands out, marked used and holding the new object. -/
abbrev taken (p : MemPool α) (v : α) : List (ObjectBlock α) :=
  p.store.set p.nextFreeIndex ⟨v, false⟩

/-- With a free block at `next_free_index_`, `allocate` is the scan over the updated blocks. -/
theorem allocate_eq_ok_iff (p : MemPool α) (v : α) {p' : MemPool α} {h : Nat}
    (hfree : isFreeAt p.store p.nextFreeIndex = true) :
    p.allocate v = .ok (p', h) ↔ h = p.nextFreeIndex ∧
      ∃ j, scanFree (taken p v) p.nextFreeIndex p.store.length p.nextFreeIndex = .ok j ∧
        p' = ⟨taken p v, j⟩ := by
  simp only [allocate, updateNextFreeIndex, hfree, ASSERT_true, ok_bind, List.length_set]
  cases hs : scanFree (taken p v) p.nextFreeIndex p.store.length p.nextFreeIndex with
  | error e => simp [hs]
  | ok j =>
    simp only [hs, ok_bind]
    constructor
    · intro h; cases h; exact ⟨rfl, j, rfl, rfl⟩
    · rintro ⟨rfl, j', hj', rfl⟩; cases hj'; rfl

/-- `allocate` with a free block at `next_free_index_` exits only for lack of space. -/
theorem allocate_error (p : MemPool α) (v : α) {e : String}
    (hfree : isFreeAt p.store p.nextFreeIndex = true) (h : p.allocate v = .error e) :
    e = "Memory Pool out of space." := by
  simp only [allocate, updateNextFreeIndex, hfree, ASSERT_true, ok_bind] at h
  cases hs : scanFree (taken p v) p.nextFreeIndex (p.store.set p.nextFreeIndex ⟨v, false⟩).length
      p.nextFreeIndex with
  | error e' => rw [hs] at h; cases h; exact scanFree_error hs
  | ok j => rw [hs] at h; cases h

theorem isFreeAt_taken_self (p : MemPool α) (v : α) (h : p.nextFreeIndex < p.store.length) :
    isFreeAt (taken p v) p.nextFreeIndex = false :=
  isFreeAt_set_self _ _ h

theorem isFreeAt_taken_ne (p : MemPool α) (v : α) {j : Nat} (h : p.nextFreeIndex ≠ j) :
    isFreeAt (taken p v) j = isFreeAt p.store j :=
  isFreeAt_set_ne _ _ h

/-- With a free block at `next_free_index_`, `allocate` exits exactly when the scan over the
updated blocks does. -/
theorem allocate_eq_error_iff (p : MemPool α) (v : α) {e : String}
    (hfree : isFreeAt p.store p.nextFreeIndex = true) :
    p.allocate v = .error e ↔
      scanFree (taken p v) p.nextFreeIndex p.store.length p.nextFreeIndex = .error e := by
  simp only [allocate, updateNextFreeIndex, hfree, ASSERT_true, ok_bind, List.length_set]
  cases scanFree (taken p v) p.nextFreeIndex p.store.length p.nextFreeIndex <;> simp

/-- `allocate` returns only after its `is_free_` check passed. -/
theorem isFreeAt_of_allocate_ok {p : MemPool α} {v : α} {r : MemPool α × Nat}
    (h : p.allocate v = .ok r) : isFreeAt p.store p.nextFreeIndex = true := by
  by_contra hf
  simp [allocate, Bool.eq_false_iff.mpr hf] at h

/-! ## `deallocate` -/

/-- `deallocate` of a block in range that is in use marks it free. -/
theorem deallocate_of_used (p : MemPool α) {i : Nat} (hi : i < p.store.length)
    (hused : isFreeAt p.store i = false) :
    p.deallocate i =
      .ok { p with store := p.store.modify (fun b => { b with isFree := true }) i } := by
  have hrange : (0 ≤ (i : Int) && (i : Int) < (p.store.length : Int)) = true := by
    simp only [Bool.and_eq_true, decide_eq_true_eq]; omega
  simp only [deallocate, Int.toNat_ofNat, hrange, hused, ASSERT_true, Bool.not_false, ok_bind]
  rfl

/-- `deallocate` changes no block count. -/
theorem length_of_deallocate_ok {p p' : MemPool α} {i : Int} (h : p.deallocate i = .ok p') :
    p'.store.length = p.store.length := by
  simp only [deallocate, bind_eq_ok_iff] at h
  obtain ⟨_, _, _, _, h⟩ := h
  cases h
  simp

end MemPool

end LowLatency
