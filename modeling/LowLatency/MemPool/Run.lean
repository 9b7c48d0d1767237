import LowLatency.MemPool.Basic
import Mathlib.Data.Nat.Find
import Mathlib.Data.List.Perm.Subperm
import Mathlib.Data.List.Nodup
set_option autoImplicit false

/-!
# MemPool over whole runs

A run starts from `MemPool(N)` and applies `allocate` and `deallocate` in any order, each
`deallocate` on a handle that an earlier `allocate` returned and that is still live.
`Reachable N p live` carries the live handles as ghost state.

`Inv` is the invariant the pool is built around: `next_free_index_` is a free block in range,
and the live handles are distinct and are exactly the blocks in use.  From it:

* `allocate` never trips its `is_free_` check, and every handle it returns is new;
* `allocate` is next-fit: it returns the block at `next_free_index_`, and the scan stops at
  the first free block after it in cyclic order, within `N - 1` steps;
* `allocate` exits with "Memory Pool out of space." exactly when the block it takes is the
  last free one.  So a pool of capacity `N` never holds `N` live objects: the allocation
  that would fill it constructs the object and then exits.
-/

namespace LowLatency.MemPool

variable {α : Type}

/-- The states reachable from `MemPool(N)`, with the handles that are live in each. -/
inductive Reachable [Inhabited α] (N : Nat) : MemPool α → List Nat → Prop
  | init : Reachable N (new N) []
  | allocate {p p' : MemPool α} {live : List Nat} {v : α} {h : Nat} :
      Reachable N p live → p.allocate v = .ok (p', h) → Reachable N p' (live ++ [h])
  | deallocate {p p' : MemPool α} {live : List Nat} {h : Nat} :
      Reachable N p live → h ∈ live → p.deallocate h = .ok p' →
      Reachable N p' (live.erase h)

/-- The pool invariant: the next free index is a free block in range, and the live handles
are distinct and are exactly the blocks in use. -/
structure Inv (N : Nat) (p : MemPool α) (live : List Nat) : Prop where
  capacity : p.store.length = N
  next_free : isFreeAt p.store p.nextFreeIndex = true
  live_nodup : live.Nodup
  live_iff : ∀ i, i ∈ live ↔ i < N ∧ isFreeAt p.store i = false

theorem Inv.next_lt {N : Nat} {p : MemPool α} {live : List Nat} (hp : Inv N p live) :
    p.nextFreeIndex < N :=
  hp.capacity ▸ lt_of_isFreeAt hp.next_free

/-! ## The invariant over runs -/

section Inv

variable {N : Nat} {p p' : MemPool α} {live : List Nat}

theorem inv_init [Inhabited α] (hN : 0 < N) : Inv N (new N : MemPool α) [] where
  capacity := List.length_replicate _ _
  next_free := isFreeAt_replicate hN
  live_nodup := List.nodup_nil
  live_iff := fun i => by
    simp only [List.not_mem_nil, false_iff, not_and]
    intro hi
    simp [new, isFreeAt_replicate hi]

theorem inv_allocate {v : α} {h : Nat} (hp : Inv N p live)
    (ha : p.allocate v = .ok (p', h)) : Inv N p' (live ++ [h]) := by
  obtain ⟨rfl, j, hj, rfl⟩ := (allocate_eq_ok_iff p v hp.next_free).mp ha
  have hfree' := isFreeAt_of_scanFree_ok hj
  have hnot : p.nextFreeIndex ∉ live := fun hm => by
    have := ((hp.live_iff _).mp hm).2
    rw [hp.next_free] at this; cases this
  exact
    { capacity := by simp [hp.capacity]
      next_free := hfree'
      live_nodup := List.nodup_append.mpr ⟨hp.live_nodup, List.nodup_singleton _,
        fun a ha hb => hnot (by rw [List.mem_singleton] at hb; exact hb ▸ ha)⟩
      live_iff := fun i => by
        by_cases hi : p.nextFreeIndex = i
        · subst hi
          simp [isFreeAt_taken_self p v (hp.capacity ▸ hp.next_lt), hp.next_lt]
        · simp only [List.mem_append, List.mem_singleton, isFreeAt_taken_ne p v hi,
            hp.live_iff i, Ne.symm hi, or_false] }

theorem inv_deallocate {h : Nat} (hp : Inv N p live) (hlive : h ∈ live)
    (hd : p.deallocate h = .ok p') : Inv N p' (live.erase h) := by
  obtain ⟨hlt, hused⟩ := (hp.live_iff h).mp hlive
  have hrange : (0 ≤ (h : Int) && (h : Int) < (p.store.length : Int)) = true := by
    have := hp.capacity; simp only [Bool.and_eq_true, decide_eq_true_eq]; omega
  simp only [deallocate, Int.toNat_ofNat, hrange, hused, ASSERT_true, Bool.not_false,
    ok_bind, pure, Except.pure, Except.ok.injEq] at hd
  subst hd
  have hne : h ≠ p.nextFreeIndex := fun he => by
    rw [he, hp.next_free] at hused; cases hused
  exact
    { capacity := by simp [hp.capacity]
      next_free := by rw [isFreeAt_modify_ne _ hne]; exact hp.next_free
      live_nodup := hp.live_nodup.erase h
      live_iff := fun i => by
        rw [hp.live_nodup.mem_erase_iff]
        by_cases hi : h = i
        · subst hi; simp [isFreeAt_modify_self _ (hp.capacity ▸ hlt)]
        · simp only [isFreeAt_modify_ne _ hi, hp.live_iff i, Ne.symm hi, ne_eq,
            not_false_eq_true, true_and] }

theorem reachable_inv [Inhabited α] (hN : 0 < N) (h : Reachable N p live) : Inv N p live := by
  induction h with
  | init => exact inv_init hN
  | allocate _ ha ih => exact inv_allocate ih ha
  | deallocate _ hlive hd ih => exact inv_deallocate ih hlive hd

/-- Every reachable pool has the capacity it was built with. -/
theorem reachable_capacity [Inhabited α] (h : Reachable N p live) : p.store.length = N := by
  induction h with
  | init => exact List.length_replicate _ _
  | allocate _ ha ih =>
    obtain ⟨-, _, -, rfl⟩ := (allocate_eq_ok_iff _ _ (isFreeAt_of_allocate_ok ha)).mp ha
    simpa using ih
  | deallocate _ _ hd ih => rw [length_of_deallocate_ok hd, ih]

end Inv

/-! ## Next fit -/

/-- Every block of a ring is some offset below `N` from any start. -/
theorem exists_offset {N i j : Nat} (hi : i < N) (hj : j < N) :
    ∃ m, m < N ∧ (i + m) % N = j := by
  by_cases h : i ≤ j
  · exact ⟨j - i, by omega, by rw [Nat.add_sub_cancel' h, Nat.mod_eq_of_lt hj]⟩
  · refine ⟨j + N - i, by omega, ?_⟩
    rw [show i + (j + N - i) = j + N by omega, Nat.add_mod_right, Nat.mod_eq_of_lt hj]

/-- `allocate` is next-fit: it takes the block at `next_free_index_`, and the scan moves the
index to the first free block after it in cyclic order, `k ≤ N - 1` steps on, every block
in between being in use. -/
theorem Inv.allocate_next_fit {N : Nat} {p p' : MemPool α} {live : List Nat} {v : α}
    {h : Nat} (hp : Inv N p live) (ha : p.allocate v = .ok (p', h)) :
    h = p.nextFreeIndex ∧ p'.store = p.store.set h ⟨v, false⟩ ∧
    ∃ k, 1 ≤ k ∧ k ≤ N - 1 ∧ p'.nextFreeIndex = (h + k) % N ∧
      isFreeAt p'.store p'.nextFreeIndex = true ∧
      ∀ m, 1 ≤ m → m < k → isFreeAt p'.store ((h + m) % N) = false := by
  obtain ⟨rfl, j, hj, rfl⟩ := (allocate_eq_ok_iff p v hp.next_free).mp ha
  have hinit : p.nextFreeIndex < (taken p v).length := by simpa [hp.capacity] using hp.next_lt
  rcases scanFree_start hinit with ⟨m, hm, hfree, hfirst, hok⟩ | ⟨-, herr⟩
  · simp only [List.length_set, hp.capacity] at hm hfree hfirst hok hj
    rw [hok] at hj
    cases hj
    have hm0 : m ≠ 0 := by
      rintro rfl
      rw [Nat.add_zero, Nat.mod_eq_of_lt hp.next_lt,
        isFreeAt_taken_self p v (hp.capacity ▸ hp.next_lt)] at hfree
      cases hfree
    exact ⟨rfl, rfl, m, by omega, by omega, rfl, hfree, fun m' _ hlt => hfirst m' hlt⟩
  · simp only [List.length_set] at herr
    rw [herr] at hj
    cases hj

/-! ## Round-robin reuse -/

/-- `allocate` followed by `deallocate` of the handle it returned, once per value; the
handles in order. -/
def allocDeallocCycles (p : MemPool α) : List α → Except String (MemPool α × List Nat)
  | [] => .ok (p, [])
  | v :: vs => do
    let (p₁, h) ← p.allocate v
    let p₂ ← p₁.deallocate h
    let (p₃, hs) ← allocDeallocCycles p₂ vs
    pure (p₃, h :: hs)

/-- On a pool of at least two blocks that are all free, `allocate` takes the block at
`next_free_index_` and moves the index on by one, and `deallocate` of that block leaves every
block free again. -/
theorem cycle_all_free {N : Nat} (hN : 2 ≤ N) {p : MemPool α} (v : α)
    (hlen : p.store.length = N) (hfree : ∀ j, j < N → isFreeAt p.store j = true)
    (hnext : p.nextFreeIndex < N) :
    ∃ p₁ p₂, p.allocate v = .ok (p₁, p.nextFreeIndex) ∧
      p₁.deallocate p.nextFreeIndex = .ok p₂ ∧
      p₂.store.length = N ∧ (∀ j, j < N → isFreeAt p₂.store j = true) ∧
      p₂.nextFreeIndex = (p.nextFreeIndex + 1) % N := by
  have hlen' : (taken p v).length = N := by simp [hlen]
  have hinit : p.nextFreeIndex < (taken p v).length := hlen' ▸ hnext
  have hne : p.nextFreeIndex ≠ (p.nextFreeIndex + 1) % N := by
    simpa using offset_ne_initial (k := 0) hnext (by omega)
  have hscan := scanFree_of_first_free (m := 1) hinit (by omega)
    (by rw [hlen', isFreeAt_taken_ne p v hne]; exact hfree _ (Nat.mod_lt _ (by omega)))
    (taken p v).length 0 (by omega) (Nat.zero_le _) fun m' _ hm' => by
      rw [show m' = 0 by omega, Nat.add_zero, Nat.mod_eq_of_lt hinit]
      exact isFreeAt_taken_self p v (hlen ▸ hnext)
  rw [Nat.add_zero, Nat.mod_eq_of_lt hinit, hlen'] at hscan
  have halloc := (allocate_eq_ok_iff p v (hfree _ hnext)).mpr
    ⟨rfl, _, by simpa [hlen] using hscan, rfl⟩
  refine ⟨_, _, halloc, deallocate_of_used _ hinit (isFreeAt_taken_self p v (hlen ▸ hnext)),
    by simp [hlen], fun j hj => ?_, rfl⟩
  by_cases hij : p.nextFreeIndex = j
  · subst hij; exact isFreeAt_modify_self _ hinit
  · rw [isFreeAt_modify_ne _ hij, isFreeAt_taken_ne p v hij]; exact hfree j hj

/-- Repeated cycles on an all-free pool hand out `a, a + 1, …` modulo `N`. -/
theorem allocDeallocCycles_all_free {N : Nat} (hN : 2 ≤ N) :
    ∀ (vs : List α) (p : MemPool α) (a : Nat), p.store.length = N →
      (∀ j, j < N → isFreeAt p.store j = true) → p.nextFreeIndex = a % N →
      ∃ p', allocDeallocCycles p vs = .ok (p', (List.range vs.length).map (fun i => (a + i) % N))
  | [], p, _, _, _, _ => ⟨p, rfl⟩
  | v :: vs, p, a, hlen, hfree, hnext => by
    obtain ⟨p₁, p₂, halloc, hdealloc, hlen₂, hfree₂, hnext₂⟩ :=
      cycle_all_free hN v hlen hfree (hnext ▸ Nat.mod_lt _ (by omega))
    obtain ⟨p', hrest⟩ := allocDeallocCycles_all_free hN vs p₂ (a + 1) hlen₂ hfree₂
      (by rw [hnext₂, hnext, Nat.mod_add_mod])
    have hlist : p.nextFreeIndex :: (List.range vs.length).map (fun i => (a + 1 + i) % N) =
        (List.range (vs.length + 1)).map (fun i => (a + i) % N) := by
      rw [List.range_succ_eq_map, List.map_cons, List.map_map, hnext, Nat.add_zero]
      exact congrArg _ (List.map_congr_left fun i _ => by
        simp only [Function.comp, Nat.succ_eq_add_one]; congr 1; omega)
    refine ⟨p', ?_⟩
    simp only [allocDeallocCycles, halloc, hdealloc, hrest, ok_bind, List.length_cons, ← hlist]
    rfl

/-! ## Exclusive handles -/

variable [Inhabited α]

/-- For every capacity `N ≥ 1` and every run of `allocate`s and `deallocate`s of live
handles: `next_free_index_` is a free block in range, so `allocate` never fails its
`is_free_` check (its only exit is "Memory Pool out of space."); every handle `allocate`
returns backs no live object; and the live handles are distinct and are exactly the blocks
in use.  A pool of capacity 0 is left out: `MemPool(0)` already reads `store_[0]` of an empty
vector in its constructor's `ASSERT`. -/
theorem live_blocks_exclusive {N : Nat} (hN : 0 < N) {p : MemPool α} {live : List Nat}
    (h : Reachable N p live) :
    (p.nextFreeIndex < N ∧ isFreeAt p.store p.nextFreeIndex = true) ∧
    (∀ v e, p.allocate v = .error e → e = "Memory Pool out of space.") ∧
    (∀ v p' i, p.allocate v = .ok (p', i) → i ∉ live) ∧
    live.Nodup ∧ (∀ i, i ∈ live ↔ i < N ∧ isFreeAt p.store i = false) := by
  have hp := reachable_inv hN h
  refine ⟨⟨hp.next_lt, hp.next_free⟩, fun v e he => allocate_error p v hp.next_free he,
    fun v p' i ha hi => ?_, hp.live_nodup, hp.live_iff⟩
  obtain ⟨rfl, -⟩ := (allocate_eq_ok_iff p v hp.next_free).mp ha
  have := ((hp.live_iff _).mp hi).2
  rw [hp.next_free] at this
  cases this

/-- `MemPool(3)`: `allocate(5)` takes block 0, `allocate(6)` block 1, and `deallocate` frees
block 0 again. -/
theorem reachable_three_two_allocs :
    Reachable 3 (⟨[⟨5, false⟩, ⟨6, false⟩, ⟨0, true⟩], 2⟩ : MemPool Nat) [0, 1] :=
  have h : Reachable 3 (⟨[⟨5, false⟩, ⟨0, true⟩, ⟨0, true⟩], 1⟩ : MemPool Nat) [0] :=
    .allocate (v := 5) .init rfl
  .allocate (v := 6) h rfl

theorem reachable_three_freed :
    Reachable 3 (⟨[⟨5, true⟩, ⟨6, false⟩, ⟨0, true⟩], 2⟩ : MemPool Nat) [1] :=
  .deallocate (h := 0) reachable_three_two_allocs (by decide) rfl

/-- After two allocations and the release of the first: block 1 is the only live one, and the
next allocation cannot return it. -/
theorem live_blocks_exclusive_freed :
    0 < 3 ∧ Reachable 3 (⟨[⟨5, true⟩, ⟨6, false⟩, ⟨0, true⟩], 2⟩ : MemPool Nat) [1] ∧
    ((2 < 3 ∧ isFreeAt [⟨5, true⟩, ⟨6, false⟩, (⟨0, true⟩ : ObjectBlock Nat)] 2 = true) ∧
      (∀ v e, (⟨[⟨5, true⟩, ⟨6, false⟩, ⟨0, true⟩], 2⟩ : MemPool Nat).allocate v = .error e →
        e = "Memory Pool out of space.") ∧
      (∀ v p' i, (⟨[⟨5, true⟩, ⟨6, false⟩, ⟨0, true⟩], 2⟩ : MemPool Nat).allocate v =
        .ok (p', i) → i ∉ [1]) ∧
      [1].Nodup ∧
      (∀ i, i ∈ [1] ↔ i < 3 ∧ isFreeAt [⟨5, true⟩, ⟨6, false⟩, (⟨0, true⟩ : ObjectBlock Nat)] i =
        false)) :=
  ⟨by decide, reachable_three_freed, live_blocks_exclusive (by decide) reachable_three_freed⟩

/-- `allocate` exits with "Memory Pool out of space." exactly when the block it takes is the
last free one: the scan that follows finds no free block. -/
theorem allocate_aborts_iff_last_free {N : Nat} (hN : 0 < N) {p : MemPool α}
    {live : List Nat} (h : Reachable N p live) (v : α) :
    p.allocate v = .error "Memory Pool out of space." ↔
      ∀ j, j < N → j ≠ p.nextFreeIndex → isFreeAt p.store j = false := by
  have hp := reachable_inv hN h
  have hinit : p.nextFreeIndex < (taken p v).length := by simpa [hp.capacity] using hp.next_lt
  rw [allocate_eq_error_iff p v hp.next_free]
  rcases scanFree_start hinit with ⟨m, hm, hfree, -, hok⟩ | ⟨hnone, herr⟩
  · simp only [List.length_set, hp.capacity] at hm hfree hok ⊢
    rw [hok]
    simp only [reduceCtorEq, false_iff, not_forall]
    have hlt : (p.nextFreeIndex + m) % N < N := Nat.mod_lt _ hN
    by_cases hj : (p.nextFreeIndex + m) % N = p.nextFreeIndex
    · rw [hj, isFreeAt_taken_self p v (hp.capacity ▸ hp.next_lt)] at hfree
      cases hfree
    · rw [isFreeAt_taken_ne p v (Ne.symm hj)] at hfree
      exact ⟨_, hlt, hj, by simp [hfree]⟩
  · simp only [List.length_set, hp.capacity] at hnone herr ⊢
    simp only [herr, true_iff]
    intro j hj hne
    obtain ⟨m, hm, rfl⟩ := exists_offset hp.next_lt hj
    rw [← isFreeAt_taken_ne p v (Ne.symm hne)]
    exact hnone m hm

theorem allocate_aborts_iff_last_free_new :
    0 < 1 ∧ Reachable 1 (new 1 : MemPool Nat) [] ∧
    ((new 1 : MemPool Nat).allocate 0 = .error "Memory Pool out of space." ↔
      ∀ j, j < 1 → j ≠ (new 1 : MemPool Nat).nextFreeIndex →
        isFreeAt (new 1 : MemPool Nat).store j = false) :=
  ⟨Nat.one_pos, .init, allocate_aborts_iff_last_free Nat.one_pos .init 0⟩

/-- So a pool of capacity `N` never holds `N` live objects. -/
theorem live_length_lt {N : Nat} (hN : 0 < N) {p : MemPool α} {live : List Nat}
    (h : Reachable N p live) : live.length < N := by
  have hp := reachable_inv hN h
  have hsub : live ⊆ (List.range N).erase p.nextFreeIndex := fun i hi => by
    obtain ⟨hlt, hused⟩ := (hp.live_iff i).mp hi
    have hne : i ≠ p.nextFreeIndex := fun he => by
      rw [he, hp.next_free] at hused; cases hused
    exact (List.mem_erase_of_ne hne).mpr (List.mem_range.mpr hlt)
  have := (hp.live_nodup.subperm hsub).length_le
  rw [List.length_erase_of_mem (List.mem_range.mpr hp.next_lt), List.length_range] at this
  omega

/-- Two live handles in a pool of three, the most it can hold. -/
theorem live_length_lt_two_allocs :
    0 < 3 ∧ Reachable 3 (⟨[⟨5, false⟩, ⟨6, false⟩, ⟨0, true⟩], 2⟩ : MemPool Nat) [0, 1] ∧
      [0, 1].length < 3 :=
  ⟨by decide, reachable_three_two_allocs, live_length_lt (by decide) reachable_three_two_allocs⟩

/-- In every reachable pool, `deallocate(elem)` returns exactly for a live handle.  A pointer
outside the pool trips the range `ASSERT`, and a free block (a handle freed twice, or one never
handed out) trips the in-use `ASSERT`, each with its message. -/
theorem deallocate_checks_handle {N : Nat} (hN : 0 < N) {p : MemPool α} {live : List Nat}
    (h : Reachable N p live) (i : Int) :
    ((∃ p', p.deallocate i = .ok p') ↔ 0 ≤ i ∧ i.toNat ∈ live) ∧
    (¬(0 ≤ i ∧ i < N) →
      p.deallocate i = .error "Element being deallocated does not belong to this Memory pool.") ∧
    (0 ≤ i → i < N → i.toNat ∉ live →
      p.deallocate i = .error ("Expected in-use ObjectBlock at index:" ++ toString i)) := by
  have hp := reachable_inv hN h
  have hrange : ¬(0 ≤ i ∧ i < N) →
      p.deallocate i = .error "Element being deallocated does not belong to this Memory pool." :=
    fun hout => by
      simp only [deallocate, hp.capacity, show (0 ≤ i && i < (N : Int)) = false by simpa using hout,
        ASSERT_false, error_bind]
  have hfree : 0 ≤ i → i < N → i.toNat ∉ live →
      p.deallocate i = .error ("Expected in-use ObjectBlock at index:" ++ toString i) :=
    fun h0 hlt hnot => by
      have hfr : isFreeAt p.store i.toNat = true := by
        by_contra hf
        exact hnot ((hp.live_iff _).mpr ⟨by omega, by simpa using hf⟩)
      simp only [deallocate, hp.capacity, show (0 ≤ i && i < (N : Int)) = true by simp [h0, hlt],
        hfr, ASSERT_true, ok_bind, Bool.not_true, ASSERT_false, error_bind]
  refine ⟨⟨fun ⟨p', hok⟩ => ?_, fun ⟨h0, hmem⟩ => ?_⟩, hrange, hfree⟩
  · by_cases hin : 0 ≤ i ∧ i < N
    · refine ⟨hin.1, by_contra fun hnot => ?_⟩
      rw [hfree hin.1 hin.2 hnot] at hok; cases hok
    · rw [hrange hin] at hok; cases hok
  · obtain ⟨hlt, hused⟩ := (hp.live_iff _).mp hmem
    have hok := deallocate_of_used p (hp.capacity ▸ hlt) hused
    rw [Int.toNat_of_nonneg h0] at hok
    exact ⟨_, hok⟩

theorem deallocate_checks_handle_new :
    0 < 1 ∧ Reachable 1 (new 1 : MemPool Nat) [] ∧
    (((∃ p', (new 1 : MemPool Nat).deallocate 0 = .ok p') ↔ 0 ≤ (0 : Int) ∧ (0 : Int).toNat ∈ []) ∧
      (¬(0 ≤ (0 : Int) ∧ (0 : Int) < (1 : Nat)) → (new 1 : MemPool Nat).deallocate 0 =
        .error "Element being deallocated does not belong to this Memory pool.") ∧
      (0 ≤ (0 : Int) → (0 : Int) < (1 : Nat) → (0 : Int).toNat ∉ ([] : List Nat) →
        (new 1 : MemPool Nat).deallocate 0 =
          .error ("Expected in-use ObjectBlock at index:" ++ toString (0 : Int)))) :=
  have h : Reachable 1 (new 1 : MemPool Nat) [] := .init
  ⟨Nat.one_pos, h, deallocate_checks_handle Nat.one_pos h 0⟩

/-- For every reachable pool and every `allocate` that returns: it returns the block at
`next_free_index_`, having built the object there and marked it used, and moves
`next_free_index_` to the first free block after it in cyclic order, at most `N - 1` blocks
on, every block in between being in use.  Hence from a fresh pool of capacity `N ≥ 2`,
repeated allocate-then-deallocate cycles return blocks `0, 1, …, N - 1, 0, …` in turn. -/
theorem allocate_next_fit_round_robin :
    (∀ (N : Nat) (p p' : MemPool α) (live : List Nat) (v : α) (h : Nat),
      Reachable N p live → p.allocate v = .ok (p', h) →
        h = p.nextFreeIndex ∧ p'.store = p.store.set h ⟨v, false⟩ ∧
        ∃ k, 1 ≤ k ∧ k ≤ N - 1 ∧ p'.nextFreeIndex = (h + k) % N ∧
          isFreeAt p'.store p'.nextFreeIndex = true ∧
          ∀ m, 1 ≤ m → m < k → isFreeAt p'.store ((h + m) % N) = false) ∧
    (∀ N, 2 ≤ N → ∀ vs : List α,
      ∃ p', allocDeallocCycles (new N) vs = .ok (p', (List.range vs.length).map (· % N))) := by
  refine ⟨fun N p p' live v h hr ha => ?_, fun N hN vs => ?_⟩
  · have hpos : 0 < N :=
      reachable_capacity hr ▸ Nat.lt_of_le_of_lt (Nat.zero_le _)
        (lt_of_isFreeAt (isFreeAt_of_allocate_ok ha))
    exact (reachable_inv hpos hr).allocate_next_fit ha
  · obtain ⟨p', hp'⟩ := allocDeallocCycles_all_free hN vs (new N) 0 (List.length_replicate _ _)
      (fun j hj => isFreeAt_replicate hj) (Nat.zero_mod N).symm
    exact ⟨p', by simpa using hp'⟩

theorem allocate_next_fit_round_robin_two :
    ((new 2 : MemPool Nat).allocate 0 = .ok (⟨[⟨0, false⟩, ⟨0, true⟩], 1⟩, 0) ∧
      0 = (new 2 : MemPool Nat).nextFreeIndex ∧
      (⟨[⟨0, false⟩, ⟨0, true⟩], 1⟩ : MemPool Nat).store =
        (new 2 : MemPool Nat).store.set 0 ⟨0, false⟩ ∧
      ∃ k, 1 ≤ k ∧ k ≤ 2 - 1 ∧ (⟨[⟨0, false⟩, ⟨0, true⟩], 1⟩ : MemPool Nat).nextFreeIndex =
          (0 + k) % 2 ∧
        isFreeAt (⟨[⟨0, false⟩, ⟨0, true⟩], 1⟩ : MemPool Nat).store 1 = true ∧
        ∀ m, 1 ≤ m → m < k →
          isFreeAt (⟨[⟨0, false⟩, ⟨0, true⟩], 1⟩ : MemPool Nat).store ((0 + m) % 2) = false) ∧
    (2 ≤ 2 ∧ ∃ p', allocDeallocCycles (new 2 : MemPool Nat) [7, 8, 9] =
      .ok (p', (List.range 3).map (· % 2))) :=
  have ha : (new 2 : MemPool Nat).allocate 0 = .ok (⟨[⟨0, false⟩, ⟨0, true⟩], 1⟩, 0) := rfl
  ⟨⟨ha, allocate_next_fit_round_robin.1 2 (new 2) _ [] 0 0 .init ha⟩,
    le_rfl, allocate_next_fit_round_robin.2 2 le_rfl [7, 8, 9]⟩

/-- From a fresh pool of capacity `1`, the first allocation exits. -/
theorem capacity_one_allocate_aborts :
    (new 1 : MemPool Nat).allocate 0 = .error "Memory Pool out of space." :=
  rfl

end LowLatency.MemPool
