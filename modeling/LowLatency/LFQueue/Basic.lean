import LowLatency.Basic
set_option autoImplicit false

/-!
# LFQueue: the ring buffer of `lf_queue.h`

`Common::LFQueue<T>` keeps its elements in a vector `store_` whose size is fixed at
construction, and three counters: `next_write_index_` (the producer's slot),
`next_read_index_` (the consumer's slot) and `num_elements_`.  A pointer `&store_[i]` that
the queue hands out is modelled by the index `i`; dereferencing it reads `store_[i]`.

The FIFO view `contents` lists the `num_elements_` slots from `next_read_index_` on, in
cyclic order.  Under `WellFormed` the operations act on that view as a FIFO queue does:
writing the producer's slot leaves the view unchanged, `updateWriteIndex` appends the element
just written, and `updateReadIndex` drops the element `getNextToRead` points at.  These
lemmas are the refinement of the ring buffer to `List`, used by the concurrent model in
`LFQueue/Spsc.lean`.

The source spells `next_read_index_` as `next_read_index` in `updateReadIndex`, and `atomic`
as `atomix`; the model takes the evident intent.
-/

namespace LowLatency

/-- `Common::LFQueue<T>`: the storage vector and the three atomic counters. -/
structure LFQueue (α : Type) where
  store : List α
  nextWriteIndex : Nat
  nextReadIndex : Nat
  numElements : Nat
  deriving DecidableEq, Repr

namespace LFQueue

variable {α : Type}

/-! ## The operations -/

/-- `LFQueue(num_elems)`: `num_elems` default-constructed slots (`T()`), counters at zero. -/
def new [Inhabited α] (numElems : Nat) : LFQueue α :=
  ⟨List.replicate numElems default, 0, 0, 0⟩

/-- `store_[i]`, read through a pointer the queue handed out. -/
def slot [Inhabited α] (q : LFQueue α) (i : Nat) : α :=
  q.store[i]?.getD default

/-- `*p = v` for the pointer `p = &store_[i]`: an in-place write of one slot. -/
def writeSlot (q : LFQueue α) (i : Nat) (v : α) : LFQueue α :=
  { q with store := q.store.set i v }

/-- `getNextToWrite()`: `&store_[next_write_index_]`. -/
def getNextToWrite (q : LFQueue α) : Nat :=
  q.nextWriteIndex

/-- `updateWriteIndex()`: advance the write index cyclically and count the new element. -/
def updateWriteIndex (q : LFQueue α) : LFQueue α :=
  { q with nextWriteIndex := (q.nextWriteIndex + 1) % q.store.length,
           numElements := q.numElements + 1 }

/-- `size()`: `num_elements_`. -/
def size (q : LFQueue α) : Nat :=
  q.numElements

/-- `getNextToRead()`: `&store_[next_read_index_]`, or `nullptr` (`none`) when empty. -/
def getNextToRead (q : LFQueue α) : Option Nat :=
  if q.size ≠ 0 then some q.nextReadIndex else none

/-- `updateReadIndex()`: advance the read index cyclically, then exit if the queue was empty,
else uncount the element.  (The message's thread id, `pthread_self()`, is not modelled.) -/
def updateReadIndex (q : LFQueue α) : Except String (LFQueue α) := do
  let nextReadIndex := (q.nextReadIndex + 1) % q.store.length
  ASSERT (q.numElements != 0) "Read and invalid element in:"
  pure { q with nextReadIndex, numElements := q.numElements - 1 }

@[simp] theorem writeSlot_store (q : LFQueue α) (i : Nat) (v : α) :
    (q.writeSlot i v).store = q.store.set i v := rfl

@[simp] theorem writeSlot_nextWriteIndex (q : LFQueue α) (i : Nat) (v : α) :
    (q.writeSlot i v).nextWriteIndex = q.nextWriteIndex := rfl

@[simp] theorem writeSlot_nextReadIndex (q : LFQueue α) (i : Nat) (v : α) :
    (q.writeSlot i v).nextReadIndex = q.nextReadIndex := rfl

@[simp] theorem writeSlot_numElements (q : LFQueue α) (i : Nat) (v : α) :
    (q.writeSlot i v).numElements = q.numElements := rfl

@[simp] theorem updateWriteIndex_store (q : LFQueue α) :
    q.updateWriteIndex.store = q.store := rfl

@[simp] theorem updateWriteIndex_nextReadIndex (q : LFQueue α) :
    q.updateWriteIndex.nextReadIndex = q.nextReadIndex := rfl

@[simp] theorem updateWriteIndex_numElements (q : LFQueue α) :
    q.updateWriteIndex.numElements = q.numElements + 1 := rfl

@[simp] theorem size_eq (q : LFQueue α) : q.size = q.numElements := rfl

theorem getNextToRead_eq_none_iff (q : LFQueue α) :
    q.getNextToRead = none ↔ q.numElements = 0 := by
  simp [getNextToRead]

theorem getNextToRead_eq_some_iff (q : LFQueue α) (i : Nat) :
    q.getNextToRead = some i ↔ q.numElements ≠ 0 ∧ i = q.nextReadIndex := by
  unfold getNextToRead
  split <;> simp_all [eq_comm]

/-- `updateReadIndex` on a non-empty queue returns normally. -/
theorem updateReadIndex_of_ne_zero (q : LFQueue α) (h : q.numElements ≠ 0) :
    q.updateReadIndex = .ok { q with nextReadIndex := (q.nextReadIndex + 1) % q.store.length,
                                     numElements := q.numElements - 1 } := by
  simp [updateReadIndex, ASSERT, h]

/-- `updateReadIndex` on an empty queue trips its `ASSERT`. -/
theorem updateReadIndex_of_eq_zero (q : LFQueue α) (h : q.numElements = 0) :
    q.updateReadIndex = .error "Read and invalid element in:" := by
  simp [updateReadIndex, ASSERT, h]

/-! ## Well-formed queues -/

/-- The shape every reachable queue keeps: a positive capacity, the read index in range, at
most `N` elements, and the write index `num_elements_` slots past the read index. -/
structure WellFormed (q : LFQueue α) : Prop where
  capacity_pos : 0 < q.store.length
  read_lt : q.nextReadIndex < q.store.length
  size_le : q.numElements ≤ q.store.length
  write_eq : q.nextWriteIndex = (q.nextReadIndex + q.numElements) % q.store.length

theorem WellFormed.write_lt {q : LFQueue α} (hq : q.WellFormed) :
    q.nextWriteIndex < q.store.length := by
  rw [hq.write_eq]; exact Nat.mod_lt _ hq.capacity_pos

/-- While the queue is not full, the producer's slot holds none of the queued elements. -/
theorem WellFormed.write_ne_read_slot {q : LFQueue α} (hq : q.WellFormed)
    (hfull : q.numElements < q.store.length) {k : Nat} (hk : k < q.numElements) :
    q.nextWriteIndex ≠ (q.nextReadIndex + k) % q.store.length := by
  rw [hq.write_eq]
  intro h
  have := add_mod_cancel_of_lt hfull (by omega) h
  omega

theorem WellFormed.writeSlot {q : LFQueue α} (hq : q.WellFormed) (i : Nat) (v : α) :
    (q.writeSlot i v).WellFormed := by
  obtain ⟨h1, h2, h3, h4⟩ := hq
  exact ⟨by simpa using h1, by simpa using h2, by simpa using h3, by simpa using h4⟩

theorem WellFormed.updateWriteIndex {q : LFQueue α} (hq : q.WellFormed)
    (hfull : q.numElements < q.store.length) : q.updateWriteIndex.WellFormed := by
  refine ⟨hq.capacity_pos, hq.read_lt, by simp; omega, ?_⟩
  simp only [LFQueue.updateWriteIndex, hq.write_eq, Nat.mod_add_mod, Nat.add_assoc]

theorem WellFormed.updateReadIndex {q : LFQueue α} (hq : q.WellFormed)
    (h : q.numElements ≠ 0) :
    ({ q with nextReadIndex := (q.nextReadIndex + 1) % q.store.length,
              numElements := q.numElements - 1 } : LFQueue α).WellFormed := by
  refine ⟨hq.capacity_pos, Nat.mod_lt _ hq.capacity_pos, by have := hq.size_le; simp; omega, ?_⟩
  simp only [hq.write_eq, Nat.mod_add_mod]
  congr 1
  omega

/-! ## The FIFO view -/

section View

variable [Inhabited α]

/-- The queued elements in FIFO order: `num_elements_` slots from `next_read_index_` on. -/
def contents (q : LFQueue α) : List α :=
  (List.range q.numElements).map fun k => q.slot ((q.nextReadIndex + k) % q.store.length)

@[simp] theorem length_contents (q : LFQueue α) : q.contents.length = q.numElements := by
  simp [contents]

theorem contents_new (n : Nat) : (new n : LFQueue α).contents = [] := rfl

@[simp] theorem slot_updateWriteIndex (q : LFQueue α) (i : Nat) :
    q.updateWriteIndex.slot i = q.slot i := rfl

theorem slot_writeSlot_self (q : LFQueue α) {i : Nat} (v : α) (h : i < q.store.length) :
    (q.writeSlot i v).slot i = v := by
  simp [slot, writeSlot, h]

theorem wellFormed_new {n : Nat} (h : 0 < n) : (new n : LFQueue α).WellFormed :=
  ⟨by simpa [new] using h, by simpa [new] using h, by simp [new], by simp [new]⟩

theorem slot_writeSlot_ne (q : LFQueue α) {i j : Nat} (v : α) (h : i ≠ j) :
    (q.writeSlot i v).slot j = q.slot j := by
  simp [slot, writeSlot, List.getElem?_set_ne h]

/-- Writing the producer's slot of a queue that is not full leaves the FIFO view alone. -/
theorem contents_writeSlot {q : LFQueue α} (hq : q.WellFormed)
    (hfull : q.numElements < q.store.length) (v : α) :
    (q.writeSlot q.nextWriteIndex v).contents = q.contents := by
  simp only [contents, writeSlot_numElements, writeSlot_nextReadIndex, writeSlot_store,
    List.length_set]
  refine List.map_congr_left fun k hk => ?_
  exact slot_writeSlot_ne q v (hq.write_ne_read_slot hfull (List.mem_range.mp hk))

/-- `updateWriteIndex` appends the element in the producer's slot to the FIFO view. -/
theorem contents_updateWriteIndex {q : LFQueue α} (hq : q.WellFormed) :
    q.updateWriteIndex.contents = q.contents ++ [q.slot q.nextWriteIndex] := by
  simp only [contents, updateWriteIndex_numElements, List.range_succ, List.map_append,
    List.map_singleton, slot_updateWriteIndex, updateWriteIndex_store,
    updateWriteIndex_nextReadIndex, hq.write_eq]

/-- The queue `updateReadIndex` leaves behind when it returns. -/
theorem contents_updateReadIndex {q : LFQueue α} (h : q.numElements ≠ 0) :
    ({ q with nextReadIndex := (q.nextReadIndex + 1) % q.store.length,
              numElements := q.numElements - 1 } : LFQueue α).contents = q.contents.tail := by
  obtain ⟨n, hn⟩ := Nat.exists_eq_succ_of_ne_zero h
  simp only [contents, hn, Nat.succ_sub_one, List.range_succ_eq_map, List.map_cons,
    List.tail_cons, List.map_map]
  refine List.map_congr_left fun k _ => ?_
  simp only [Function.comp, Nat.mod_add_mod, slot, Nat.succ_eq_add_one]
  congr 3
  omega

/-- The element `getNextToRead` points at is the head of the FIFO view. -/
theorem head_contents {q : LFQueue α} (hq : q.WellFormed) (h : q.numElements ≠ 0) :
    q.contents.head? = some (q.slot q.nextReadIndex) := by
  obtain ⟨n, hn⟩ := Nat.exists_eq_succ_of_ne_zero h
  simp [contents, hn, List.range_succ_eq_map, Nat.mod_eq_of_lt hq.read_lt]

/-- `LFQueue` has no full check: on a full queue `getNextToWrite()` hands out the slot of the
oldest unread element, so a push overwrites that element, which `getNextToRead()` then
returns in its place, and `size()` passes the capacity. -/
theorem push_full_overwrites_oldest {q : LFQueue α} (hq : q.WellFormed)
    (hfull : q.numElements = q.store.length) (v : α) :
    q.getNextToWrite = q.nextReadIndex ∧
    ((q.writeSlot q.getNextToWrite v).updateWriteIndex).contents.head? = some v ∧
    ((q.writeSlot q.getNextToWrite v).updateWriteIndex).size = q.store.length + 1 := by
  have hwrite : q.getNextToWrite = q.nextReadIndex := by
    rw [getNextToWrite, hq.write_eq, hfull, Nat.add_mod_right, Nat.mod_eq_of_lt hq.read_lt]
  refine ⟨hwrite, ?_, by simp [size, hfull]⟩
  simp [contents, List.range_succ_eq_map, Nat.mod_eq_of_lt hq.read_lt, hwrite,
    slot_writeSlot_self q v hq.read_lt]

theorem push_full_overwrites_oldest_one :
    (⟨[7], 0, 0, 1⟩ : LFQueue Nat).WellFormed ∧
    (⟨[7], 0, 0, 1⟩ : LFQueue Nat).numElements = (⟨[7], 0, 0, 1⟩ : LFQueue Nat).store.length ∧
    (⟨[7], 0, 0, 1⟩ : LFQueue Nat).getNextToWrite = (⟨[7], 0, 0, 1⟩ : LFQueue Nat).nextReadIndex ∧
    (((⟨[7], 0, 0, 1⟩ : LFQueue Nat).writeSlot
      (⟨[7], 0, 0, 1⟩ : LFQueue Nat).getNextToWrite 8).updateWriteIndex).contents.head? = some 8 ∧
    (((⟨[7], 0, 0, 1⟩ : LFQueue Nat).writeSlot
      (⟨[7], 0, 0, 1⟩ : LFQueue Nat).getNextToWrite 8).updateWriteIndex).size =
      (⟨[7], 0, 0, 1⟩ : LFQueue Nat).store.length + 1 :=
  have hq : (⟨[7], 0, 0, 1⟩ : LFQueue Nat).WellFormed := ⟨by decide, by decide, by decide, rfl⟩
  ⟨hq, rfl, push_full_overwrites_oldest hq rfl 8⟩

end View

end LFQueue

end LowLatency
