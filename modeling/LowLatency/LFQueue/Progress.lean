import LowLatency.LFQueue.Spsc
import Mathlib.Logic.Relation
set_option autoImplicit false

/-!
# Neither thread of the SPSC queue waits for the other

`LFQueue` has no lock: no call of one thread depends on the other thread moving.  So from any
reachable state, with the other thread stopped wherever it is (inside a call included), the
consumer alone reads and releases every published element, and the producer alone publishes
as many elements as there are free slots.  A run of one thread is a
`Relation.ReflTransGen` of its steps (`StepOf`).

`~Logger()` relies on the first fact: it waits for the background thread to empty the queue.
-/

namespace LowLatency.LFQueue.Spsc

open Relation

variable {α : Type} [Inhabited α] {N : Nat} {s s' : Spsc α}

/-- A step of the producer thread (`producer = true`) or of the consumer thread. -/
def StepOf (producer : Bool) (s s' : Spsc α) : Prop :=
  ∃ a : Action α, a.isProducer = producer ∧ s.step a = some s'

theorem Inv.run {b : Bool} (hs : Inv N s) (hr : ReflTransGen (StepOf b) s s') : Inv N s' := by
  induction hr with
  | refl => exact hs
  | tail _ hstep ih => obtain ⟨a, -, ha⟩ := hstep; exact inv_step ih a ha

/-! ## Each call, run forwards -/

/-- `getNextToRead()` by an idle consumer: a pointer to the read slot, or `nullptr` when the
queue is empty. -/
theorem step_getNextToRead_of_idle (hc : s.consumer = .idle) :
    s.step .getNextToRead = some (if s.queue.numElements ≠ 0 then
      { s with consumer := .holding s.queue.nextReadIndex } else s) := by
  by_cases h : s.queue.numElements = 0 <;> simp [step, hc, getNextToRead, h]

theorem step_read_of_holding {c : Nat} (hc : s.consumer = .holding c) :
    s.step .read = some { s with consumer := .reading c (s.queue.slot c) } := by
  simp [step, hc]

/-- `updateReadIndex()` after a read returns: the pointer came from a non-empty queue, and
only the consumer has removed elements since. -/
theorem Inv.step_updateReadIndex {c : Nat} {v : α} (hs : Inv N s)
    (hc : s.consumer = .reading c v) :
    ∃ q : LFQueue α, q.numElements = s.queue.numElements - 1 ∧ s.step .updateReadIndex =
      some { s with queue := q, consumer := .idle, consumed := s.consumed ++ [v] } := by
  have hne := (hs.consumer_slot c (by simp [hc, Consumer.slot?])).2
  exact ⟨{ s.queue with nextReadIndex := (s.queue.nextReadIndex + 1) % s.queue.store.length,
                        numElements := s.queue.numElements - 1 }, rfl,
    by simp [step, hc, updateReadIndex_of_ne_zero _ hne]⟩

/-- A consumer call moves neither the producer nor what it published. -/
theorem step_consumer_frame {a : Action α} (ha : a.isProducer = false)
    (h : s.step a = some s') : s'.producer = s.producer ∧ s'.published = s.published := by
  cases a with
  | getNextToRead =>
    obtain ⟨-, rfl⟩ := step_getNextToRead h
    split <;> exact ⟨rfl, rfl⟩
  | read => obtain ⟨c, -, rfl⟩ := step_read h; exact ⟨rfl, rfl⟩
  | updateReadIndex => obtain ⟨c, v, q, -, -, rfl⟩ := step_updateReadIndex h; exact ⟨rfl, rfl⟩
  | _ => cases ha

theorem step_getNextToWrite_of_idle (hp : s.producer = .idle)
    (hlt : s.queue.numElements < s.queue.store.length) :
    s.step .getNextToWrite = some { s with producer := .writing s.queue.getNextToWrite } := by
  simp [step, hp, hlt]

theorem step_populate_of_writing {p : Nat} (v : α) (hp : s.producer = .writing p) :
    s.step (.populate v) =
      some { s with queue := s.queue.writeSlot p v, producer := .populated p v } := by
  simp [step, hp]

theorem step_updateWriteIndex_of_populated {p : Nat} {v : α} (hp : s.producer = .populated p v) :
    s.step .updateWriteIndex =
      some { s with queue := s.queue.updateWriteIndex, producer := .idle,
                    published := s.published ++ [v] } := by
  simp [step, hp]

/-! ## What a run of one thread leaves alone -/

theorem consumerRun_frame (hr : ReflTransGen (StepOf false) s s') :
    s'.producer = s.producer ∧ s'.published = s.published := by
  induction hr with
  | refl => exact ⟨rfl, rfl⟩
  | tail _ hstep ih =>
    obtain ⟨a, ha, h⟩ := hstep
    obtain ⟨hp, hpub⟩ := step_consumer_frame ha h
    exact ⟨hp.trans ih.1, hpub.trans ih.2⟩

theorem producerRun_frame (hr : ReflTransGen (StepOf true) s s') :
    s'.consumer = s.consumer ∧ s'.consumed = s.consumed := by
  induction hr with
  | refl => exact ⟨rfl, rfl⟩
  | tail _ hstep ih =>
    obtain ⟨a, ha, h⟩ := hstep
    obtain ⟨hc, hcons⟩ := step_producer_frame ha h
    exact ⟨hc.trans ih.1, hcons.trans ih.2⟩

/-! ## The consumer alone -/

/-- An idle consumer reads and releases every element in the queue, one
`getNextToRead()`/`*next`/`updateReadIndex()` round per element. -/
theorem Inv.drain_from_idle (hs : Inv N s) (hc : s.consumer = .idle) :
    ∃ s', ReflTransGen (StepOf false) s s' ∧ s'.consumer = .idle ∧
      s'.queue.numElements = 0 := by
  obtain ⟨n, hn⟩ : ∃ n, s.queue.numElements = n := ⟨_, rfl⟩
  induction n generalizing s with
  | zero => exact ⟨s, .refl, hc, hn⟩
  | succ n ih =>
    have h1 := step_getNextToRead_of_idle hc
    rw [if_pos (by omega)] at h1
    have h2 := step_read_of_holding (s := { s with consumer := .holding s.queue.nextReadIndex }) rfl
    have hs2 := inv_step (inv_step hs _ h1) _ h2
    obtain ⟨q, hq, h3⟩ := hs2.step_updateReadIndex rfl
    obtain ⟨s', hrun, hc', hn'⟩ := ih (inv_step hs2 _ h3) rfl (by simp [hq, hn])
    exact ⟨s', .head ⟨.getNextToRead, rfl, h1⟩ (.head ⟨.read, rfl, h2⟩
      (.head ⟨.updateReadIndex, rfl, h3⟩ hrun)), hc', hn'⟩

/-- A consumer inside a read finishes it: `*next`, then `updateReadIndex()`. -/
theorem Inv.release (hs : Inv N s) :
    ∃ s', ReflTransGen (StepOf false) s s' ∧ s'.consumer = .idle := by
  cases hc : s.consumer with
  | idle => exact ⟨s, .refl, hc⟩
  | holding c =>
    have h1 := step_read_of_holding hc
    obtain ⟨q, -, h2⟩ := (inv_step hs _ h1).step_updateReadIndex rfl
    exact ⟨_, .tail (.single ⟨.read, rfl, h1⟩) ⟨.updateReadIndex, rfl, h2⟩, rfl⟩
  | reading c v =>
    obtain ⟨q, -, h1⟩ := hs.step_updateReadIndex hc
    exact ⟨_, .single ⟨.updateReadIndex, rfl, h1⟩, rfl⟩

/-- For every capacity `N ≥ 1` and every state any interleaving reaches, the consumer thread
alone, with the producer stopped wherever it is (inside `getNextToWrite()`/populate/
`updateWriteIndex()` included), consumes every element published so far, in order, and ends
idle on an empty queue; it moves neither the producer nor its publications. -/
theorem consumer_drains_alone (hN : 1 ≤ N) (h : Reachable N s) :
    ∃ s', ReflTransGen (StepOf false) s s' ∧ s'.consumer = .idle ∧
      s'.consumed = s.published ∧ s'.queue.size = 0 ∧
      s'.producer = s.producer ∧ s'.published = s.published := by
  have hs := reachable_inv hN h
  obtain ⟨s₁, hr₁, hc₁⟩ := hs.release
  obtain ⟨s₂, hr₂, hc₂, hn₂⟩ := (hs.run hr₁).drain_from_idle hc₁
  have hr := hr₁.trans hr₂
  obtain ⟨hp, hpub⟩ := consumerRun_frame hr
  have hempty : s₂.queue.contents = [] := List.eq_nil_of_length_eq_zero (by simpa using hn₂)
  have hhist := (hs.run hr).history
  rw [hempty, List.append_nil] at hhist
  exact ⟨s₂, hr, hc₂, by rw [← hhist, hpub], hn₂, hp, hpub⟩

/-- Mid-run on two slots, with the producer stopped after writing 9 into slot 0 and the
consumer reading 8: the consumer alone finishes 8 and ends having consumed `[7, 8]`. -/
theorem consumer_drains_alone_wrapped :
    1 ≤ 2 ∧
    Reachable 2 (⟨⟨[9, 8], 0, 1, 1⟩, .populated 0 9, .reading 1 8, [7, 8], [7]⟩ : Spsc Nat) ∧
    ∃ s', ReflTransGen (StepOf false)
        (⟨⟨[9, 8], 0, 1, 1⟩, .populated 0 9, .reading 1 8, [7, 8], [7]⟩ : Spsc Nat) s' ∧
      s'.consumer = .idle ∧ s'.consumed = [7, 8] ∧ s'.queue.size = 0 ∧
      s'.producer = .populated 0 9 ∧ s'.published = [7, 8] :=
  ⟨by decide, reachable_half_written, consumer_drains_alone (by decide) reachable_half_written⟩

/-! ## The producer alone -/

/-- An idle producer below capacity publishes `v`: `getNextToWrite()`, `*p = v`,
`updateWriteIndex()`. -/
theorem Inv.push_alone (hs : Inv N s) (hp : s.producer = .idle) (v : α)
    (hlt : s.queue.numElements < N) :
    ∃ s', ReflTransGen (StepOf true) s s' ∧ s'.producer = .idle ∧
      s'.published = s.published ++ [v] ∧ s'.queue.numElements = s.queue.numElements + 1 := by
  have h1 := step_getNextToWrite_of_idle hp (hs.capacity ▸ hlt)
  have h2 := step_populate_of_writing
    (s := { s with producer := .writing s.queue.getNextToWrite }) v rfl
  have h3 := step_updateWriteIndex_of_populated
    (s := { s with queue := s.queue.writeSlot s.queue.getNextToWrite v,
                   producer := .populated s.queue.getNextToWrite v }) rfl
  exact ⟨_, .head ⟨.getNextToWrite, rfl, h1⟩ (.head ⟨.populate v, rfl, h2⟩
    (.single ⟨.updateWriteIndex, rfl, h3⟩)), rfl, rfl, by simp⟩

theorem Inv.publish_alone (hs : Inv N s) (hp : s.producer = .idle) (vs : List α)
    (hroom : s.queue.numElements + vs.length ≤ N) :
    ∃ s', ReflTransGen (StepOf true) s s' ∧ s'.producer = .idle ∧
      s'.published = s.published ++ vs := by
  induction vs generalizing s with
  | nil => exact ⟨s, .refl, hp, by simp⟩
  | cons v vs ih =>
    simp only [List.length_cons] at hroom
    obtain ⟨s₁, hr₁, hp₁, hpub₁, hn₁⟩ := hs.push_alone hp v (by omega)
    obtain ⟨s₂, hr₂, hp₂, hpub₂⟩ := ih (hs.run hr₁) hp₁ (by omega)
    exact ⟨s₂, hr₁.trans hr₂, hp₂, by simp [hpub₂, hpub₁]⟩

/-- For every capacity `N ≥ 1`, every reachable state whose producer is between two writes,
and every list of elements that fits in the free slots (`size() + length ≤ N`), the
producer thread alone publishes the list in order, with the consumer stopped wherever it is
(holding the head slot or reading it included); it leaves the consumer and what it has
consumed alone. -/
theorem producer_publishes_alone (hN : 1 ≤ N) (h : Reachable N s) (hp : s.producer = .idle)
    (vs : List α) (hroom : s.queue.size + vs.length ≤ N) :
    ∃ s', ReflTransGen (StepOf true) s s' ∧ s'.producer = .idle ∧
      s'.published = s.published ++ vs ∧ s'.consumer = s.consumer ∧ s'.consumed = s.consumed := by
  obtain ⟨s', hr, hp', hpub⟩ := (reachable_inv hN h).publish_alone hp vs hroom
  exact ⟨s', hr, hp', hpub, producerRun_frame hr⟩

theorem producer_publishes_alone_init :
    1 ≤ 2 ∧ Reachable 2 (init 2 : Spsc Nat) ∧ (init 2 : Spsc Nat).producer = .idle ∧
    (init 2 : Spsc Nat).queue.size + [4, 5].length ≤ 2 ∧
    ∃ s', ReflTransGen (StepOf true) (init 2 : Spsc Nat) s' ∧ s'.producer = .idle ∧
      s'.published = (init 2 : Spsc Nat).published ++ [4, 5] ∧
      s'.consumer = (init 2 : Spsc Nat).consumer ∧ s'.consumed = (init 2 : Spsc Nat).consumed :=
  ⟨by decide, .init, rfl, by decide,
    producer_publishes_alone (by decide) .init rfl [4, 5] (by decide)⟩

end LowLatency.LFQueue.Spsc
