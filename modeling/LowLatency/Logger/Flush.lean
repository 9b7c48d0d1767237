import LowLatency.Logger.Element
import LowLatency.LFQueue.Spsc
set_option autoImplicit false

/-!
# The logger's background thread and its shutdown

`Common::Logger` owns an `LFQueue<LogElement>` of `LOG_QUEUE_SIZE` slots.  The application
thread is its producer: `pushValue(e)` populates `*queue_.getNextToWrite()` and calls
`updateWriteIndex()`.  The background thread runs `flushQueue()`:

    while (running_) {
      for (next = getNextToRead(); size() && next; next = getNextToRead()) {
        switch (next->type_) { ... file_ << next->u_.<member>; }
        updateReadIndex();
      }
      file_.flush();
      sleep_for(10ms);
    }

`~Logger()` (run by the application thread once it has stopped pushing) waits until
`queue_.size()` is zero, clears `running_`, joins the background thread and closes the file.

The state keeps the SPSC model of `LFQueue/Spsc.lean` as it is, and every queue call of
either thread is an `Spsc.step`; so every reachable logger state has a reachable queue
component (`Inv.spsc`) and the queue invariant applies.  `Spsc.step` starts a write only
while `size() < N`, so a push into a full queue (`LOG_QUEUE_SIZE` unflushed elements), which
`pushValue` does not guard against and where `LFQueue` overwrites the oldest unread element
(`LFQueue/Basic.lean`), is left out here.  The `ofstream` is a buffer of
written values and the file's flushed contents; `flush()` and `close()` move the buffer to the
file.  A written value is what `file_ <<` receives (`LogElement.print?`); how `ostream`
renders it as text is the standard library's.  The constructor's `ASSERT`s (file opened,
thread started) and the `cerr` messages are not modelled.
-/

namespace LowLatency

open LFQueue

/-- `LOG_QUEUE_SIZE`. -/
def LOG_QUEUE_SIZE : Nat := 8 * 1024 * 1024

/-- Where the background thread is in `flushQueue()`. -/
inductive FlushPc where
  | loopHead
  | innerHead
  | body
  | update
  | flushing
  | sleeping
  | exited
  deriving DecidableEq, Repr

/-- Where the application thread is: pushing, or inside `~Logger()`. -/
inductive MainPc where
  | running
  | draining
  | stopping
  | joining
  | closing
  | closed
  deriving DecidableEq, Repr

/-- The logger: the queue with both threads' positions in it, `running_`, the two program
counters, and the `ofstream`'s unflushed buffer and flushed file contents. -/
structure Logger where
  spsc : Spsc LogElement
  running : Bool
  flush : FlushPc
  main : MainPc
  buffer : List (Option LogUnion)
  file : List (Option LogUnion)

/-- The queue position the background thread's program counter implies: it holds a pointer
in the loop body, has read the element before `updateReadIndex()`, and is idle elsewhere. -/
def FlushPc.ConsumerAt : FlushPc → Consumer LogElement → Prop
  | .body, c => ∃ i, c = .holding i
  | .update, c => ∃ i v, c = .reading i v
  | _, c => c = .idle

/-- The destructor has passed its drain wait. -/
def MainPc.drained : MainPc → Bool
  | .stopping | .joining | .closing | .closed => true
  | _ => false

/-- One step of either thread. -/
inductive LoggerAction where
  | getNextToWrite
  | populate (e : LogElement)
  | updateWriteIndex
  | destructor
  | flushQueue
  deriving DecidableEq, Repr

namespace Logger

/-- A constructed logger: empty queue, `running_` set, both threads at their start. -/
def init : Logger :=
  ⟨Spsc.init LOG_QUEUE_SIZE, true, .loopHead, .running, [], []⟩

/-- A queue call of the application thread, allowed until it enters the destructor. -/
def produce (s : Logger) (a : Action LogElement) : Option Logger :=
  if s.main = .running then (s.spsc.step a).map fun sp => { s with spsc := sp } else none

/-- The next step of `~Logger()`. -/
def destructorStep (s : Logger) : Option Logger :=
  match s.main with
  | .running => if s.spsc.producer = .idle then some { s with main := .draining } else none
  | .draining => if s.spsc.queue.size = 0 then some { s with main := .stopping } else some s
  | .stopping => some { s with running := false, main := .joining }
  | .joining => if s.flush = .exited then some { s with main := .closing } else none
  | .closing => some { s with file := s.file ++ s.buffer, buffer := [], main := .closed }
  | .closed => none

/-- The next step of `flushQueue()`. -/
def flushStep (s : Logger) : Option Logger :=
  match s.flush with
  | .loopHead => some { s with flush := if s.running then .innerHead else .exited }
  | .innerHead => (s.spsc.step .getNextToRead).map fun sp =>
      { s with spsc := sp, flush := if sp.consumer = .idle then .flushing else .body }
  | .body => (s.spsc.step .read).map fun sp =>
      { s with spsc := sp, flush := .update,
               buffer := s.buffer ++ sp.consumer.inFlight.map LogElement.print? }
  | .update => (s.spsc.step .updateReadIndex).map fun sp =>
      { s with spsc := sp, flush := .innerHead }
  | .flushing => some { s with file := s.file ++ s.buffer, buffer := [], flush := .sleeping }
  | .sleeping => some { s with flush := .loopHead }
  | .exited => none

/-- One step of the system. -/
def step (s : Logger) : LoggerAction → Option Logger
  | .getNextToWrite => s.produce .getNextToWrite
  | .populate e => s.produce (.populate e)
  | .updateWriteIndex => s.produce .updateWriteIndex
  | .destructor => s.destructorStep
  | .flushQueue => s.flushStep

/-- The states a constructed logger reaches under every interleaving of the two threads. -/
inductive Reachable : Logger → Prop
  | init : Reachable init
  | step {s s' : Logger} (a : LoggerAction) : Reachable s → s.step a = some s' → Reachable s'

/-! ## The invariant -/

/-- What every reachable logger state satisfies: the queue component is reachable in the SPSC
model; the stream holds, in order, the printed form of everything the background thread has
read; and the destructor's phases carry what its earlier steps established. -/
structure Inv (s : Logger) : Prop where
  spsc : Spsc.Reachable LOG_QUEUE_SIZE s.spsc
  consumer : s.flush.ConsumerAt s.spsc.consumer
  output : s.file ++ s.buffer = s.spsc.reads.map LogElement.print?
  producer_idle : s.main ≠ .running → s.spsc.producer = .idle
  drained : s.main.drained = true → s.spsc.queue.numElements = 0
  stopped : s.main = .joining ∨ s.main = .closing ∨ s.main = .closed → s.running = false
  exited : s.main = .closing ∨ s.main = .closed → s.flush = .exited
  flushed : s.main = .closed → s.buffer = []

theorem log_queue_size_pos : 1 ≤ LOG_QUEUE_SIZE := by decide

theorem inv_init : Inv init where
  spsc := .init
  consumer := rfl
  output := rfl
  producer_idle := fun _ => rfl
  drained := nofun
  stopped := by simp [init]
  exited := by simp [init]
  flushed := nofun

variable {s s' : Logger}

theorem Inv.spscInv (hs : Inv s) : Spsc.Inv LOG_QUEUE_SIZE s.spsc :=
  Spsc.reachable_inv log_queue_size_pos hs.spsc

theorem inv_produce (a : Action LogElement) (ha : a.isProducer = true) (hs : Inv s)
    (h : s.produce a = some s') : Inv s' := by
  simp only [produce] at h
  split at h
  · rename_i hmain
    obtain ⟨sp, hsp, rfl⟩ := Option.map_eq_some'.mp h
    obtain ⟨hc, hcons⟩ := Spsc.step_producer_frame ha hsp
    exact
      { spsc := .step a hs.spsc hsp
        consumer := hc ▸ hs.consumer
        output := by rw [Spsc.reads, hc, hcons]; exact hs.output
        producer_idle := fun h => absurd hmain h
        drained := fun h => by simp [hmain, MainPc.drained] at h
        stopped := fun h => by simp [hmain] at h
        exited := fun h => by simp [hmain] at h
        flushed := fun h => by simp [hmain] at h }
  · cases h

theorem inv_destructorStep (hs : Inv s) (h : s.destructorStep = some s') : Inv s' := by
  simp only [destructorStep] at h
  split at h <;> rename_i hmain
  · -- the application thread has stopped pushing
    split at h <;> cases h
    exact { hs with
      producer_idle := fun _ => ‹_›
      drained := nofun
      stopped := by simp
      exited := by simp
      flushed := nofun }
  · -- `while (queue_.size())`
    split at h <;> cases h
    · exact { hs with
        producer_idle := fun _ => hs.producer_idle (by simp [hmain])
        drained := fun _ => ‹_›
        stopped := by simp
        exited := by simp
        flushed := nofun }
    · exact hs
  · -- `running_ = false`
    cases h
    exact { hs with
      producer_idle := fun _ => hs.producer_idle (by simp [hmain])
      drained := fun _ => hs.drained (by simp [hmain, MainPc.drained])
      stopped := fun _ => rfl
      exited := by simp
      flushed := nofun }
  · -- `logger_thread_->join()`
    split at h <;> cases h
    exact { hs with
      producer_idle := fun _ => hs.producer_idle (by simp [hmain])
      drained := fun _ => hs.drained (by simp [hmain, MainPc.drained])
      stopped := fun _ => hs.stopped (.inl hmain)
      exited := fun _ => ‹_›
      flushed := nofun }
  · -- `file_.close()`
    cases h
    exact { hs with
      output := by rw [← hs.output]; simp
      producer_idle := fun _ => hs.producer_idle (by simp [hmain])
      drained := fun _ => hs.drained (by simp [hmain, MainPc.drained])
      stopped := fun _ => hs.stopped (.inr (.inl hmain))
      exited := fun _ => hs.exited (.inl hmain)
      flushed := fun _ => rfl }
  · cases h

/-- While the background thread has not exited, the destructor has not reached `close()`. -/
theorem Inv.not_closing (hs : Inv s) (hf : s.flush ≠ .exited) :
    ¬(s.main = .closing ∨ s.main = .closed) := fun hm => hf (hs.exited hm)

/-- A step of the background thread keeps the destructor's part of the invariant: it moves
neither `running_` nor the destructor, touches neither the producer nor a drained queue, and
the destructor is before `close()` while the thread runs.  What remains to show is the
queue's part. -/
theorem Inv.flush_frame (hs : Inv s) (hf : s.flush ≠ .exited) (hmain : s'.main = s.main)
    (hrun : s'.running = s.running) (hprod : s'.spsc.producer = s.spsc.producer)
    (hdrain : s.main.drained = true → s'.spsc.queue.numElements = 0)
    (hspsc : Spsc.Reachable LOG_QUEUE_SIZE s'.spsc) (hcons : s'.flush.ConsumerAt s'.spsc.consumer)
    (hout : s'.file ++ s'.buffer = s'.spsc.reads.map LogElement.print?) : Inv s' where
  spsc := hspsc
  consumer := hcons
  output := hout
  producer_idle := fun hm => hprod ▸ hs.producer_idle (hmain ▸ hm)
  drained := fun hm => hdrain (hmain ▸ hm)
  stopped := fun hm => hrun ▸ hs.stopped (hmain ▸ hm)
  exited := fun hm => absurd (hmain ▸ hm) (hs.not_closing hf)
  flushed := fun hm => absurd (.inr (hmain ▸ hm)) (hs.not_closing hf)

theorem inv_flushStep (hs : Inv s) (h : s.flushStep = some s') : Inv s' := by
  simp only [flushStep] at h
  split at h <;> rename_i hpc
  · -- `while (running_)`
    cases h
    have hc : s.spsc.consumer = .idle := by simpa [hpc, FlushPc.ConsumerAt] using hs.consumer
    exact hs.flush_frame (by simp [hpc]) rfl rfl rfl hs.drained hs.spsc (by split <;> exact hc)
      hs.output
  · -- `next = queue_.getNextToRead()` and the test `queue_.size() && next`
    obtain ⟨sp, hsp, rfl⟩ := Option.map_eq_some'.mp h
    obtain ⟨hidle, hsp'⟩ := Spsc.step_getNextToRead hsp
    have hframe : sp.queue = s.spsc.queue ∧ sp.producer = s.spsc.producer ∧
        sp.reads = s.spsc.reads ∧ (sp.consumer = .idle ∨ ∃ i, sp.consumer = .holding i) := by
      subst hsp'; split <;> simp [Spsc.reads, Consumer.inFlight, hidle]
    obtain ⟨hqueue, hprod, hreads, hcons⟩ := hframe
    refine hs.flush_frame (by simp [hpc]) rfl rfl hprod (hqueue ▸ hs.drained) (.step _ hs.spsc hsp)
      ?_ (by rw [hreads]; exact hs.output)
    split
    · assumption
    · exact hcons.resolve_left ‹_›
  · -- the element is read through the member its tag names
    obtain ⟨sp, hsp, rfl⟩ := Option.map_eq_some'.mp h
    obtain ⟨c, hc, rfl⟩ := Spsc.step_read hsp
    refine hs.flush_frame (by simp [hpc]) rfl rfl rfl hs.drained (.step _ hs.spsc hsp) ⟨_, _, rfl⟩ ?_
    rw [← List.append_assoc, hs.output]
    simp [Spsc.reads, Consumer.inFlight, hc]
  · -- `queue_.updateReadIndex()`
    obtain ⟨sp, hsp, rfl⟩ := Option.map_eq_some'.mp h
    obtain ⟨c, v, q, hc, hupd, rfl⟩ := Spsc.step_updateReadIndex hsp
    have hne := (hs.spscInv.consumer_slot c (by simp [hc, Consumer.slot?])).2
    refine hs.flush_frame (by simp [hpc]) rfl rfl rfl (fun hm => absurd (hs.drained hm) hne)
      (.step _ hs.spsc hsp) rfl ?_
    rw [hs.output]
    simp [Spsc.reads, Consumer.inFlight, hc]
  · -- `file_.flush()`
    cases h
    exact hs.flush_frame (by simp [hpc]) rfl rfl rfl hs.drained hs.spsc
      (by simpa [hpc, FlushPc.ConsumerAt] using hs.consumer) (by rw [← hs.output]; simp)
  · -- `sleep_for(10ms)`
    cases h
    exact hs.flush_frame (by simp [hpc]) rfl rfl rfl hs.drained hs.spsc
      (by simpa [hpc, FlushPc.ConsumerAt] using hs.consumer) hs.output
  · cases h

theorem inv_step (hs : Inv s) (a : LoggerAction) (h : s.step a = some s') : Inv s' := by
  cases a with
  | getNextToWrite => exact inv_produce .getNextToWrite rfl hs h
  | populate e => exact inv_produce (.populate e) rfl hs h
  | updateWriteIndex => exact inv_produce .updateWriteIndex rfl hs h
  | destructor => exact inv_destructorStep hs h
  | flushQueue => exact inv_flushStep hs h

theorem reachable_inv (h : Reachable s) : Inv s := by
  induction h with
  | init => exact inv_init
  | step a _ hstep ih => exact inv_step ih a hstep

/-! ## Orderly shutdown loses nothing -/

/-- Once the file is closed, the drained queue, the exited background thread and the final
flush leave in the file exactly what was read, which is everything published. -/
theorem Inv.file_of_closed (hs : Inv s) (hclosed : s.main = .closed) :
    s.file = s.spsc.published.map LogElement.print? := by
  have hidle : s.spsc.consumer = .idle := by
    simpa [hs.exited (.inr hclosed), FlushPc.ConsumerAt] using hs.consumer
  have hempty : s.spsc.queue.contents = [] :=
    List.eq_nil_of_length_eq_zero (by simpa using hs.drained (by simp [hclosed, MainPc.drained]))
  have hout := hs.output
  rw [hs.flushed hclosed, List.append_nil] at hout
  rw [hout, hs.spscInv.history, hempty, Spsc.reads, hidle]
  simp [Consumer.inFlight]

end Logger

end LowLatency
