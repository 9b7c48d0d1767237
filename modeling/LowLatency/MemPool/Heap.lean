import LowLatency.MemPool.Basic
import Mathlib.Logic.Function.Basic
set_option autoImplicit false

/-!
# The heap `MemPool` implements

To its users a `MemPool` is a heap: a partial map from handles to objects.  `allocate(v)`
takes a handle that holds no object and puts `v` there, `deallocate(h)` drops the object of a
handle that holds one, and no other handle changes.  `MemPool.view` reads that map off the
blocks: the object of every block in use.

`pool_refines_heap` shows that every run of calls that return, from `MemPool(N)`, is a run of
the heap with the same calls and results that ends in the pool's view.  So an allocation
never hands out a block whose object is live, a deallocation frees only a live object, and
no call touches any other live object.
-/

namespace LowLatency.MemPool

variable {α : Type}

/-- What a user of the pool sees: the object of every block in use. -/
def view (p : MemPool α) (i : Nat) : Option α :=
  p.store[i]?.bind fun b => if b.isFree then none else some b.object

/-- A call that returned: `allocate(v)` with the handle it returned, or `deallocate(h)`. -/
inductive Event (α : Type) where
  | allocate (v : α) (h : Nat)
  | deallocate (h : Nat)
  deriving DecidableEq, Repr

/-- A call of the pool that returns. -/
def PoolStep (p : MemPool α) : Event α → MemPool α → Prop
  | .allocate v h, p' => p.allocate v = .ok (p', h)
  | .deallocate h, p' => p.deallocate h = .ok p'

/-- The heap: `allocate` takes a handle with no object, `deallocate` one with an object. -/
def HeapStep (heap : Nat → Option α) : Event α → (Nat → Option α) → Prop
  | .allocate v h, heap' => heap h = none ∧ heap' = Function.update heap h (some v)
  | .deallocate h, heap' => heap h ≠ none ∧ heap' = Function.update heap h none

/-- A run of a labelled step relation, with its events in order. -/
inductive Trace {σ : Type} (step : σ → Event α → σ → Prop) : σ → List (Event α) → σ → Prop
  | nil (s : σ) : Trace step s [] s
  | cons {s s' s'' : σ} {e : Event α} {es : List (Event α)} :
      step s e s' → Trace step s' es s'' → Trace step s (e :: es) s''

/-! ## The view of each call -/

theorem view_new [Inhabited α] (N : Nat) : (new N : MemPool α).view = fun _ => none := by
  funext i
  simp only [view, new, List.getElem?_replicate]
  split <;> rfl

theorem view_of_isFreeAt {p : MemPool α} {i : Nat} (h : isFreeAt p.store i = true) :
    p.view i = none := by
  unfold isFreeAt at h
  cases hs : p.store[i]? with
  | none => simp [view, hs]
  | some b => simp_all [view]

/-- `allocate` puts its object at the free handle it returns and changes no other handle. -/
theorem view_allocate {p p' : MemPool α} {v : α} {h : Nat} (ha : p.allocate v = .ok (p', h)) :
    p.view h = none ∧ p'.view = Function.update p.view h (some v) := by
  have hfree := isFreeAt_of_allocate_ok ha
  obtain ⟨rfl, j, -, rfl⟩ := (allocate_eq_ok_iff p v hfree).mp ha
  refine ⟨view_of_isFreeAt hfree, funext fun i => ?_⟩
  by_cases hi : i = p.nextFreeIndex
  · subst hi
    simp [view, List.getElem?_set, lt_of_isFreeAt hfree]
  · simp [view, List.getElem?_set, Function.update_apply, hi, Ne.symm hi]

/-- `deallocate` returns only for a handle with an object, drops it, and changes no other
handle. -/
theorem view_deallocate {p p' : MemPool α} {h : Nat} (hd : p.deallocate h = .ok p') :
    p.view h ≠ none ∧ p'.view = Function.update p.view h none := by
  simp only [deallocate, Int.toNat_ofNat, bind_unit_eq_ok_iff, ASSERT_eq_ok_iff,
    Bool.and_eq_true, decide_eq_true_eq, Bool.not_eq_true'] at hd
  obtain ⟨⟨-, hlt⟩, hused, hd⟩ := hd
  cases hd
  have hlt : h < p.store.length := by omega
  refine ⟨?_, funext fun i => ?_⟩
  · simp only [isFreeAt, List.getElem?_eq_getElem hlt, Option.map_some', Option.getD_some]
      at hused
    simp [view, List.getElem?_eq_getElem hlt, hused]
  · by_cases hi : i = h
    · subst hi
      simp [view, List.getElem?_modify]
    · simp only [view, List.getElem?_modify, Ne.symm hi, if_false, Function.update_apply, hi]
      cases p.store[i]? <;> rfl

/-- Each call that returns is a step of the heap, from the pool's view to the pool's view. -/
theorem poolStep_heapStep {p p' : MemPool α} {e : Event α} (h : PoolStep p e p') :
    HeapStep p.view e p'.view := by
  cases e with
  | allocate v i => exact view_allocate h
  | deallocate i => exact view_deallocate h

/-- Every run of calls that return, from any pool, is a run of the heap between the views. -/
theorem trace_view {p p' : MemPool α} {es : List (Event α)} (h : Trace PoolStep p es p') :
    Trace HeapStep p.view es p'.view := by
  induction h with
  | nil p => exact .nil _
  | cons hstep _ ih => exact .cons (poolStep_heapStep hstep) ih

/-- For every capacity and every run of `allocate` and `deallocate` calls that return, from
`MemPool(N)`: the same calls with the same results are a run of the heap from the empty heap,
and it ends in the pool's view.  Each allocation took a handle with no live object, each
deallocation freed a live one, and every other live object was left as it was. -/
theorem pool_refines_heap [Inhabited α] (N : Nat) {p : MemPool α} {es : List (Event α)}
    (h : Trace PoolStep (new N) es p) : Trace HeapStep (fun _ => none) es p.view :=
  view_new (α := α) N ▸ trace_view h

theorem pool_refines_heap_three :
    Trace PoolStep (new 3) [.allocate 'a' 0, .allocate 'b' 1, .deallocate 0]
      ⟨[⟨'a', true⟩, ⟨'b', false⟩, ⟨'A', true⟩], 2⟩ ∧
    Trace HeapStep (fun _ => none) [.allocate 'a' 0, .allocate 'b' 1, .deallocate 0]
      (view ⟨[⟨'a', true⟩, ⟨'b', false⟩, ⟨'A', true⟩], 2⟩) :=
  have h1 : PoolStep (new 3) (.allocate 'a' 0) ⟨[⟨'a', false⟩, ⟨'A', true⟩, ⟨'A', true⟩], 1⟩ :=
    rfl
  have h2 : PoolStep ⟨[⟨'a', false⟩, ⟨'A', true⟩, ⟨'A', true⟩], 1⟩ (.allocate 'b' 1)
      ⟨[⟨'a', false⟩, ⟨'b', false⟩, ⟨'A', true⟩], 2⟩ := rfl
  have h3 : PoolStep ⟨[⟨'a', false⟩, ⟨'b', false⟩, ⟨'A', true⟩], 2⟩ (.deallocate 0)
      ⟨[⟨'a', true⟩, ⟨'b', false⟩, ⟨'A', true⟩], 2⟩ := rfl
  have h := Trace.cons h1 (.cons h2 (.cons h3 (.nil _)))
  ⟨h, pool_refines_heap 3 h⟩

end LowLatency.MemPool
