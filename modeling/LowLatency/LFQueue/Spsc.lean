import LowLatency.LFQueue.Basic
set_option autoImplicit false

/-!
# LFQueue under one producer and one consumer

`LFQueue` is meant for exactly one producer thread and one consumer thread.
The producer populates `*getNextToWrite()` and then calls `updateWriteIndex()`; it starts a
write only while `size() < N`, since the queue itself has no back-pressure.  The consumer
calls `getNextToRead()`, reads the element behind a non-null pointer, then calls
`updateReadIndex()`.  Each call is one atomic step here, and the two threads' steps
interleave in every order (`Spsc.step`, `Spsc.Reachable`).

Two ghost lists record what happened: `published`, the elements whose `updateWriteIndex` has
run, and `consumed`, the elements whose `updateReadIndex` has run.  `Spsc.Inv` says the
queue's FIFO view is exactly what is published and not yet consumed, and pins the slot each
thread holds; `reachable_inv` proves it of every reachable state.
-/

namespace LowLatency.LFQueue

variable {α : Type}

/-- Where the producer thread is: between two writes, holding the pointer `getNextToWrite()`
returned, or having populated that slot with `v`. -/
inductive Producer (α : Type) where
  | idle
  | writing (slot : Nat)
  | populated (slot : Nat) (v : α)
  deriving DecidableEq, Repr

/-- Where the consumer thread is: between two reads, holding the non-null pointer
`getNextToRead()` returned, or having read `v` through it. -/
inductive Consumer (α : Type) where
  | idle
  | holding (slot : Nat)
  | reading (slot : Nat) (v : α)
  deriving DecidableEq, Repr

/-- The slot the producer is populating, if it is inside a write. -/
def Producer.slot? : Producer α → Option Nat
  | .idle => none
  | .writing p | .populated p _ => some p

/-- The slot the consumer holds a pointer to, if it is inside a read. -/
def Consumer.slot? : Consumer α → Option Nat
  | .idle => none
  | .holding c | .reading c _ => some c

/-- The value the consumer has read and not yet released with `updateReadIndex()`. -/
def Consumer.inFlight : Consumer α → List α
  | .reading _ v => [v]
  | _ => []

/-- The queue, both threads, and the ghost history of published and consumed elements. -/
structure Spsc (α : Type) where
  queue : LFQueue α
  producer : Producer α
  consumer : Consumer α
  published : List α
  consumed : List α
  deriving DecidableEq, Repr

/-- One call of either thread. -/
inductive Action (α : Type) where
  | getNextToWrite
  | populate (v : α)
  | updateWriteIndex
  | getNextToRead
  | read
  | updateReadIndex
  deriving DecidableEq, Repr

/-- The producer's calls. -/
def Action.isProducer : Action α → Bool
  | .getNextToWrite | .populate _ | .updateWriteIndex => true
  | _ => false

namespace Spsc

variable [Inhabited α]

/-- A fresh `LFQueue(N)` with both threads idle. -/
def init (N : Nat) : Spsc α :=
  ⟨new N, .idle, .idle, [], []⟩

/-- Every element the consumer has read, in order, including one it has not released. -/
def reads (s : Spsc α) : List α :=
  s.consumed ++ s.consumer.inFlight

/-- One atomic step; `none` when the action is not the acting thread's next call, or when
`updateReadIndex()` exits. -/
def step (s : Spsc α) : Action α → Option (Spsc α)
  | .getNextToWrite =>
    match s.producer with
    | .idle =>
      if s.queue.size < s.queue.store.length then
        some { s with producer := .writing s.queue.getNextToWrite }
      else none
    | _ => none
  | .populate v =>
    match s.producer with
    | .writing p => some { s with queue := s.queue.writeSlot p v, producer := .populated p v }
    | _ => none
  | .updateWriteIndex =>
    match s.producer with
    | .populated _ v =>
      some { s with queue := s.queue.updateWriteIndex, producer := .idle,
                    published := s.published ++ [v] }
    | _ => none
  | .getNextToRead =>
    match s.consumer with
    | .idle =>
      match s.queue.getNextToRead with
      | some c => some { s with consumer := .holding c }
      | none => some s
    | _ => none
  | .read =>
    match s.consumer with
    | .holding c => some { s with consumer := .reading c (s.queue.slot c) }
    | _ => none
  | .updateReadIndex =>
    match s.consumer with
    | .reading _ v =>
      match s.queue.updateReadIndex with
      | .ok q => some { s with queue := q, consumer := .idle, consumed := s.consumed ++ [v] }
      | .error _ => none
    | _ => none

/-- A producer call leaves the consumer and what it has consumed alone. -/
theorem step_producer_frame {s s' : Spsc α} {a : Action α} (ha : a.isProducer = true)
    (h : s.step a = some s') : s'.consumer = s.consumer ∧ s'.consumed = s.consumed := by
  cases a with
  | getNextToWrite =>
    simp only [step] at h
    split at h
    · split at h <;> cases h; exact ⟨rfl, rfl⟩
    · cases h
  | populate v =>
    simp only [step] at h
    split at h <;> cases h; exact ⟨rfl, rfl⟩
  | updateWriteIndex =>
    simp only [step] at h
    split at h <;> cases h; exact ⟨rfl, rfl⟩
  | _ => cases ha

/-- `getNextToRead()` moves an idle consumer to the slot at the read index when the queue is
not empty, and changes nothing else. -/
theorem step_getNextToRead {s s' : Spsc α} (h : s.step .getNextToRead = some s') :
    s.consumer = .idle ∧
      s' = if s.queue.numElements ≠ 0 then { s with consumer := .holding s.queue.nextReadIndex }
        else s := by
  simp only [step] at h
  split at h
  · rename_i hc
    refine ⟨hc, ?_⟩
    split at h <;> cases h
    · rename_i c hr
      obtain ⟨hne, rfl⟩ := (getNextToRead_eq_some_iff _ _).mp hr
      simp [hne]
    · rename_i hr
      simp [(getNextToRead_eq_none_iff _).mp hr]
  · cases h

/-- `*next`: the consumer reads the slot it holds. -/
theorem step_read {s s' : Spsc α} (h : s.step .read = some s') :
    ∃ c, s.consumer = .holding c ∧ s' = { s with consumer := .reading c (s.queue.slot c) } := by
  simp only [step] at h
  split at h
  · cases h; exact ⟨_, ‹_›, rfl⟩
  · cases h

/-- `updateReadIndex()`: the consumer releases the value it read, which joins `consumed`. -/
theorem step_updateReadIndex {s s' : Spsc α} (h : s.step .updateReadIndex = some s') :
    ∃ c v q, s.consumer = .reading c v ∧ s.queue.updateReadIndex = .ok q ∧
      s' = { s with queue := q, consumer := .idle, consumed := s.consumed ++ [v] } := by
  simp only [step] at h
  split at h
  · split at h <;> cases h; exact ⟨_, _, _, ‹_›, ‹_›, rfl⟩
  · cases h

/-- The states reachable from `LFQueue(N)` by any interleaving of the two threads. -/
inductive Reachable (N : Nat) : Spsc α → Prop
  | init : Reachable N (init N)
  | step {s s' : Spsc α} (a : Action α) : Reachable N s → s.step a = some s' → Reachable N s'

/-- Every state a concrete list of calls reaches is reachable. -/
theorem Reachable.of_runSteps {N : Nat} {s s' : Spsc α} (h : Reachable N s)
    (as : List (Action α)) (hr : runSteps Spsc.step s as = some s') : Reachable N s' := by
  induction as generalizing s with
  | nil => cases hr; exact h
  | cons a as ih =>
    cases ha : s.step a with
    | none => simp [runSteps, ha] at hr
    | some s₁ => exact ih (.step a h ha) (by simpa [runSteps, ha] using hr)

/-! ## The invariant -/

/-- What every reachable state satisfies: the FIFO view is the published elements not yet
consumed, the producer's slot is the write index of a queue that is not full, the consumer's
slot is the read index of a non-empty queue, and the values the threads carry are the ones
in their slots. -/
structure Inv (N : Nat) (s : Spsc α) : Prop where
  capacity : s.queue.store.length = N
  wf : s.queue.WellFormed
  history : s.published = s.consumed ++ s.queue.contents
  producer_slot : ∀ p, s.producer.slot? = some p →
    p = s.queue.nextWriteIndex ∧ s.queue.numElements < N
  populated : ∀ p v, s.producer = .populated p v → s.queue.slot p = v
  consumer_slot : ∀ c, s.consumer.slot? = some c →
    c = s.queue.nextReadIndex ∧ s.queue.numElements ≠ 0
  reading : ∀ c v, s.consumer = .reading c v → s.queue.contents.head? = some v

theorem inv_init {N : Nat} (hN : 1 ≤ N) : Inv N (init N : Spsc α) where
  capacity := by simp [init, new]
  wf := wellFormed_new hN
  history := rfl
  producer_slot := nofun
  populated := nofun
  consumer_slot := nofun
  reading := nofun

variable {N : Nat} {s : Spsc α}

/-- The producer starts a write only below capacity. -/
theorem inv_getNextToWrite (hs : Inv N s)
    (hlt : s.queue.numElements < s.queue.store.length) :
    Inv N { s with producer := .writing s.queue.getNextToWrite } :=
  { hs with
    producer_slot := fun _ h => by cases h; exact ⟨rfl, hs.capacity ▸ hlt⟩
    populated := nofun }

theorem inv_populate {p : Nat} (v : α) (hs : Inv N s) (hp : s.producer = .writing p) :
    Inv N { s with queue := s.queue.writeSlot p v, producer := .populated p v } := by
  obtain ⟨rfl, hlt⟩ := hs.producer_slot p (by simp [hp, Producer.slot?])
  have hview := contents_writeSlot hs.wf (hs.capacity ▸ hlt) v
  exact
    { capacity := by simpa using hs.capacity
      wf := hs.wf.writeSlot _ v
      history := by rw [hview]; exact hs.history
      producer_slot := fun _ h => by cases h; exact ⟨rfl, hlt⟩
      populated := fun _ _ h => by cases h; exact slot_writeSlot_self _ v hs.wf.write_lt
      consumer_slot := hs.consumer_slot
      reading := fun c w h => by rw [hview]; exact hs.reading c w h }

theorem inv_updateWriteIndex {p : Nat} {v : α} (hs : Inv N s)
    (hp : s.producer = .populated p v) :
    Inv N { s with queue := s.queue.updateWriteIndex, producer := .idle,
                   published := s.published ++ [v] } := by
  obtain ⟨rfl, hlt⟩ := hs.producer_slot p (by simp [hp, Producer.slot?])
  have hview : s.queue.updateWriteIndex.contents = s.queue.contents ++ [v] := by
    rw [contents_updateWriteIndex hs.wf, hs.populated _ v hp]
  exact
    { capacity := hs.capacity
      wf := hs.wf.updateWriteIndex (hs.capacity ▸ hlt)
      history := by rw [hview, hs.history, List.append_assoc]
      producer_slot := nofun
      populated := nofun
      consumer_slot := fun c h => ⟨(hs.consumer_slot c h).1, by simp⟩
      reading := fun c w h => by
        have h : s.consumer = .reading c w := h
        have hne : s.queue.contents ≠ [] := by
          simpa [← List.length_pos] using Nat.pos_of_ne_zero
            (hs.consumer_slot c (by simp [h, Consumer.slot?])).2
        rw [hview, List.head?_append_of_ne_nil _ hne]
        exact hs.reading c w h }

theorem inv_getNextToRead {c : Nat} (hs : Inv N s)
    (hr : s.queue.getNextToRead = some c) : Inv N { s with consumer := .holding c } :=
  { hs with
    consumer_slot := fun _ h => by
      cases h; exact ((getNextToRead_eq_some_iff _ _).mp hr).symm
    reading := nofun }

theorem inv_read {c : Nat} (hs : Inv N s) (hc : s.consumer = .holding c) :
    Inv N { s with consumer := .reading c (s.queue.slot c) } := by
  obtain ⟨rfl, hne⟩ := hs.consumer_slot c (by simp [hc, Consumer.slot?])
  exact
    { hs with
      consumer_slot := fun _ h => by cases h; exact ⟨rfl, hne⟩
      reading := fun _ _ h => by cases h; exact head_contents hs.wf hne }

theorem inv_updateReadIndex {c : Nat} {v : α} (hs : Inv N s)
    (hc : s.consumer = .reading c v) :
    ∃ q, s.queue.updateReadIndex = .ok q ∧
      Inv N { s with queue := q, consumer := .idle, consumed := s.consumed ++ [v] } := by
  have hne := (hs.consumer_slot c (by simp [hc, Consumer.slot?])).2
  refine ⟨_, updateReadIndex_of_ne_zero _ hne, ?_⟩
  have hhead := hs.reading c v hc
  have hsplit : s.queue.contents = v :: s.queue.contents.tail := by
    cases h : s.queue.contents <;> simp_all
  exact
    { capacity := hs.capacity
      wf := hs.wf.updateReadIndex hne
      history := by
        rw [contents_updateReadIndex hne, hs.history, hsplit]
        simp
      producer_slot := fun p h => by
        obtain ⟨h1, h2⟩ := hs.producer_slot p h
        exact ⟨h1, by simp; omega⟩
      populated := hs.populated
      consumer_slot := nofun
      reading := nofun }

/-- Every step keeps the invariant. -/
theorem inv_step {s' : Spsc α} (hs : Inv N s) (a : Action α) (h : s.step a = some s') :
    Inv N s' := by
  cases a with
  | getNextToWrite =>
    simp only [step] at h
    split at h <;> [split at h; cases h] <;> cases h
    exact inv_getNextToWrite hs ‹_›
  | populate v =>
    simp only [step] at h
    split at h <;> cases h
    exact inv_populate v hs ‹_›
  | updateWriteIndex =>
    simp only [step] at h
    split at h <;> cases h
    exact inv_updateWriteIndex hs ‹_›
  | getNextToRead =>
    simp only [step] at h
    split at h <;> [split at h; cases h] <;> cases h
    · exact inv_getNextToRead hs ‹_›
    · exact hs
  | read =>
    obtain ⟨c, hc, rfl⟩ := step_read h
    exact inv_read hs hc
  | updateReadIndex =>
    obtain ⟨c, v, q, hc, hq, rfl⟩ := step_updateReadIndex h
    obtain ⟨q', hq', hinv⟩ := inv_updateReadIndex hs hc
    cases hq.symm.trans hq'
    exact hinv

theorem reachable_inv (hN : 1 ≤ N) (h : Reachable N s) : Inv N s := by
  induction h with
  | init => exact inv_init hN
  | step a _ hstep ih => exact inv_step ih a hstep

/-- A run on two slots: the producer publishes 7 and 8, the consumer reads and releases 7, the
producer takes slot 0 again after the write index has wrapped, and the consumer reads 8 from
slot 1. -/
theorem reachable_wrapped :
    Reachable 2 (⟨⟨[7, 8], 0, 1, 1⟩, .writing 0, .reading 1 8, [7, 8], [7]⟩ : Spsc Nat) :=
  .of_runSteps .init [.getNextToWrite, .populate 7, .updateWriteIndex, .getNextToWrite,
    .populate 8, .updateWriteIndex, .getNextToRead, .read, .updateReadIndex, .getNextToWrite,
    .getNextToRead, .read] rfl

/-- The same run, then the producer writes 9 into slot 0 and has not yet published it. -/
theorem reachable_half_written :
    Reachable 2 (⟨⟨[9, 8], 0, 1, 1⟩, .populated 0 9, .reading 1 8, [7, 8], [7]⟩ : Spsc Nat) :=
  .step (.populate 9) reachable_wrapped rfl

/-! ## FIFO delivery -/

/-- While both threads are inside a call, they hold different slots: the queue is neither
empty (the consumer got a pointer) nor full (the producer started a write). -/
theorem Inv.slots_ne (hs : Inv N s) {p c : Nat} (hp : s.producer.slot? = some p)
    (hc : s.consumer.slot? = some c) : p ≠ c := by
  obtain ⟨rfl, hlt⟩ := hs.producer_slot p hp
  obtain ⟨rfl, hne⟩ := hs.consumer_slot c hc
  intro h
  have hwrap : (s.queue.nextReadIndex + s.queue.numElements) % s.queue.store.length =
      (s.queue.nextReadIndex + 0) % s.queue.store.length := by
    rw [← hs.wf.write_eq, h, Nat.add_zero, Nat.mod_eq_of_lt hs.wf.read_lt]
  exact hne (add_mod_cancel_of_lt (hs.capacity ▸ hlt) hs.wf.capacity_pos hwrap)

/-- What the consumer has read is a prefix of what the producer published. -/
theorem Inv.reads_prefix (hs : Inv N s) : s.reads <+: s.published := by
  rw [hs.history, reads, List.prefix_append_right_inj]
  cases hc : s.consumer with
  | reading c v =>
    obtain ⟨tl, htl⟩ : ∃ tl, s.queue.contents = v :: tl := by
      have := hs.reading c v hc
      cases h : s.queue.contents <;> simp_all
    simp [Consumer.inFlight, htl]
  | _ => exact List.nil_prefix

/-- For every capacity `N ≥ 1` and every interleaving of the producer's and the consumer's
calls, the consumer reads the published elements in order, each once (its reads are a
prefix of the publications); it never holds the slot the producer is populating; and the
counters satisfy `size() = published - consumed ≤ N` and
`next_write_index_ = (next_read_index_ + size()) mod N`. -/
theorem spsc_delivers_fifo (hN : 1 ≤ N) (h : Reachable N s) :
    s.reads <+: s.published ∧
    (∀ p c, s.producer.slot? = some p → s.consumer.slot? = some c → p ≠ c) ∧
    s.queue.size = s.published.length - s.consumed.length ∧ s.queue.size ≤ N ∧
    s.queue.nextWriteIndex = (s.queue.nextReadIndex + s.queue.size) % N := by
  have hs := reachable_inv hN h
  refine ⟨hs.reads_prefix, fun p c hp hc => hs.slots_ne hp hc, ?_, ?_, ?_⟩
  · simp [hs.history]
  · exact hs.capacity ▸ hs.wf.size_le
  · exact hs.capacity ▸ hs.wf.write_eq

/-- Mid-run on two slots: 7 released, 8 being read from slot 1, 9 written into slot 0 but not
published. -/
theorem spsc_delivers_fifo_wrapped :
    1 ≤ 2 ∧
    Reachable 2 (⟨⟨[9, 8], 0, 1, 1⟩, .populated 0 9, .reading 1 8, [7, 8], [7]⟩ : Spsc Nat) ∧
    ((⟨⟨[9, 8], 0, 1, 1⟩, .populated 0 9, .reading 1 8, [7, 8], [7]⟩ : Spsc Nat).reads <+:
        [7, 8] ∧
      (∀ p c, (Producer.populated 0 9 : Producer Nat).slot? = some p →
        (Consumer.reading 1 8 : Consumer Nat).slot? = some c → p ≠ c) ∧
      (⟨[9, 8], 0, 1, 1⟩ : LFQueue Nat).size = [7, 8].length - [7].length ∧
      (⟨[9, 8], 0, 1, 1⟩ : LFQueue Nat).size ≤ 2 ∧
      (⟨[9, 8], 0, 1, 1⟩ : LFQueue Nat).nextWriteIndex =
        ((⟨[9, 8], 0, 1, 1⟩ : LFQueue Nat).nextReadIndex +
          (⟨[9, 8], 0, 1, 1⟩ : LFQueue Nat).size) % 2) :=
  ⟨by decide, reachable_half_written, spsc_delivers_fifo (by decide) reachable_half_written⟩

/-! ## The channel the queue implements

Abstractly the queue is a FIFO channel: a list, to which `enqueue v` appends and from which
`dequeue v` takes `v` off the front.  Each call of either thread is one step of the channel:
`updateWriteIndex()` enqueues the value the producer populated, `updateReadIndex()` dequeues
the value the consumer read, and every other call leaves the channel alone.  So a half
written slot is never visible, and an element leaves the channel only when it is released. -/

/-- An operation of the FIFO channel. -/
inductive ChannelOp (α : Type) where
  | enqueue (v : α)
  | dequeue (v : α)
  deriving DecidableEq, Repr

/-- One step of the channel: nothing (`none`), `enqueue v`, or `dequeue v`. -/
inductive ChannelStep : Option (ChannelOp α) → List α → List α → Prop
  | stutter (l : List α) : ChannelStep none l l
  | enqueue (v : α) (l : List α) : ChannelStep (some (.enqueue v)) l (l ++ [v])
  | dequeue (v : α) (l : List α) : ChannelStep (some (.dequeue v)) (v :: l) l

/-- The channel operation a call performs: its linearization point. -/
def linearize (s : Spsc α) : Action α → Option (ChannelOp α)
  | .updateWriteIndex => match s.producer with
    | .populated _ v => some (.enqueue v)
    | _ => none
  | .updateReadIndex => match s.consumer with
    | .reading _ v => some (.dequeue v)
    | _ => none
  | _ => none

/-- For every capacity `N ≥ 1`, every reachable state and every call either thread can make
there, the queue's FIFO view moves as one step of the channel: `updateWriteIndex()` appends
the populated value, `updateReadIndex()` removes the value the consumer read from the front,
and `getNextToWrite()`, the write through its pointer, `getNextToRead()` and the read leave
it unchanged. -/
theorem step_refines_channel (hN : 1 ≤ N) (h : Reachable N s) (a : Action α) {s' : Spsc α}
    (hs : s.step a = some s') : ChannelStep (s.linearize a) s.queue.contents s'.queue.contents := by
  have hh := (reachable_inv hN h).history
  have hh' := (inv_step (reachable_inv hN h) a hs).history
  cases a with
  | getNextToWrite =>
    simp only [step] at hs
    split at hs <;> [split at hs; cases hs] <;> cases hs
    exact .stutter _
  | populate v =>
    simp only [step] at hs
    split at hs <;> cases hs
    rw [show (s.queue.writeSlot _ v).contents = s.queue.contents from
      List.append_cancel_left (hh'.symm.trans hh)]
    exact .stutter _
  | updateWriteIndex =>
    simp only [step] at hs
    split at hs <;> cases hs
    rename_i p v hp
    rw [hh, List.append_assoc] at hh'
    simp only [linearize, hp, List.append_cancel_left hh'.symm]
    exact .enqueue v _
  | getNextToRead =>
    simp only [step] at hs
    split at hs <;> [split at hs; cases hs] <;> cases hs <;> exact .stutter _
  | read =>
    obtain ⟨c, -, rfl⟩ := step_read hs
    exact .stutter _
  | updateReadIndex =>
    obtain ⟨c, v, q, hc, -, rfl⟩ := step_updateReadIndex hs
    rw [hh', List.append_assoc] at hh
    rw [← List.append_cancel_left hh]
    simp only [linearize, hc]
    exact .dequeue v _

/-- The three kinds of step, mid-run on two slots: writing 9 into slot 0, which held the
released 7, leaves the channel `[8]` alone; publishing 9 enqueues it; releasing 8 dequeues
it. -/
theorem step_refines_channel_wrapped :
    Reachable 2 (⟨⟨[7, 8], 0, 1, 1⟩, .writing 0, .reading 1 8, [7, 8], [7]⟩ : Spsc Nat) ∧
    Reachable 2 (⟨⟨[9, 8], 0, 1, 1⟩, .populated 0 9, .reading 1 8, [7, 8], [7]⟩ : Spsc Nat) ∧
    ChannelStep
      ((⟨⟨[7, 8], 0, 1, 1⟩, .writing 0, .reading 1 8, [7, 8], [7]⟩ : Spsc Nat).linearize
        (.populate 9))
      (⟨[7, 8], 0, 1, 1⟩ : LFQueue Nat).contents (⟨[9, 8], 0, 1, 1⟩ : LFQueue Nat).contents ∧
    ChannelStep
      ((⟨⟨[9, 8], 0, 1, 1⟩, .populated 0 9, .reading 1 8, [7, 8], [7]⟩ : Spsc Nat).linearize
        .updateWriteIndex)
      (⟨[9, 8], 0, 1, 1⟩ : LFQueue Nat).contents (⟨[9, 8], 1, 1, 2⟩ : LFQueue Nat).contents ∧
    ChannelStep
      ((⟨⟨[9, 8], 0, 1, 1⟩, .populated 0 9, .reading 1 8, [7, 8], [7]⟩ : Spsc Nat).linearize
        .updateReadIndex)
      (⟨[9, 8], 0, 1, 1⟩ : LFQueue Nat).contents (⟨[9, 8], 0, 0, 0⟩ : LFQueue Nat).contents :=
  have hwrite : (⟨⟨[7, 8], 0, 1, 1⟩, .writing 0, .reading 1 8, [7, 8], [7]⟩ : Spsc Nat).step
      (.populate 9) = some ⟨⟨[9, 8], 0, 1, 1⟩, .populated 0 9, .reading 1 8, [7, 8], [7]⟩ := rfl
  have hpublish : (⟨⟨[9, 8], 0, 1, 1⟩, .populated 0 9, .reading 1 8, [7, 8], [7]⟩ : Spsc Nat).step
      .updateWriteIndex = some ⟨⟨[9, 8], 1, 1, 2⟩, .idle, .reading 1 8, [7, 8, 9], [7]⟩ := rfl
  have hrelease : (⟨⟨[9, 8], 0, 1, 1⟩, .populated 0 9, .reading 1 8, [7, 8], [7]⟩ : Spsc Nat).step
      .updateReadIndex = some ⟨⟨[9, 8], 0, 0, 0⟩, .populated 0 9, .idle, [7, 8], [7, 8]⟩ := rfl
  ⟨reachable_wrapped, reachable_half_written,
    step_refines_channel (by decide) reachable_wrapped _ hwrite,
    step_refines_channel (by decide) reachable_half_written _ hpublish,
    step_refines_channel (by decide) reachable_half_written _ hrelease⟩

end Spsc

end LowLatency.LFQueue
