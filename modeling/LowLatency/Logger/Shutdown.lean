import LowLatency.Logger.Flush
import LowLatency.LFQueue.Progress
set_option autoImplicit false

/-!
# The logger's shutdown always completes

`~Logger()` waits until `queue_.size()` is zero, clears `running_`, joins the background
thread and closes the file.  Two of these steps wait on the other thread: the drain on
`flushQueue()` emptying the queue, the join on `flushQueue()` seeing `running_` cleared and
leaving its loop.  From every state the two threads reach, some continuation of the run takes
the destructor to `file_.close()`; in it the application thread only finishes the push it is
inside, and the closed file holds everything published, that push included.

The continuation follows one schedule: finish the push, enter the destructor, let the
background thread empty the queue and return to `while (running_)`, then run the destructor
to its end with the background thread leaving its loop when `running_` is cleared.  The
invariant `Live` supplies what the waits need: `running_` is set until the destructor clears
it, and the background thread exits only after.
-/

namespace LowLatency

open LFQueue Relation

/-- `running_` is still set: the destructor has not reached `running_ = false`. -/
def MainPc.keepsRunning : MainPc → Bool
  | .running | .draining | .stopping => true
  | _ => false

namespace Logger

variable {s s' : Logger}

/-- One step of either thread. -/
def Step (s s' : Logger) : Prop := ∃ a : LoggerAction, s.step a = some s'

theorem Reachable.run (h : Reachable s) (hr : ReflTransGen Step s s') : Reachable s' := by
  induction hr with
  | refl => exact h
  | tail _ hstep ih => obtain ⟨a, ha⟩ := hstep; exact .step a ih ha

/-! ## `running_` and the background thread's exit -/

/-- `running_` is set exactly until the destructor clears it, and the background thread has
left its loop only if it is cleared. -/
structure Live (s : Logger) : Prop where
  running : s.running = s.main.keepsRunning
  exited : s.flush = .exited → s.running = false

/-- A step that keeps `running_` and the side of `running_ = false` the destructor is on
keeps `Live` once the thread's exit is accounted for. -/
theorem Live.frame (hl : Live s) (hr : s'.running = s.running)
    (hm : s'.main.keepsRunning = s.main.keepsRunning)
    (hf : s'.flush = .exited → s'.running = false) : Live s' :=
  ⟨by rw [hr, hl.running, hm], hf⟩

theorem live_step (hl : Live s) (a : LoggerAction) (h : s.step a = some s') : Live s' := by
  cases a with
  | destructor =>
    simp only [step, destructorStep] at h
    split at h <;> rename_i hm <;> (try split at h) <;> cases h
    -- `running_ = false` sets both sides; every other step moves only `main`, within a side
    all_goals first
      | exact hl
      | exact ⟨rfl, fun _ => rfl⟩
      | exact hl.frame rfl (by simp [hm, MainPc.keepsRunning]) hl.exited
  | flushQueue =>
    simp only [step, flushStep] at h
    split at h
    · -- `while (running_)` is left only when it is cleared
      cases h
      exact hl.frame rfl rfl (by split <;> simp_all)
    · obtain ⟨sp, -, rfl⟩ := Option.map_eq_some'.mp h
      exact hl.frame rfl rfl (by split <;> nofun)
    all_goals first
      | obtain ⟨sp, -, rfl⟩ := Option.map_eq_some'.mp h
      | cases h
    all_goals exact hl.frame rfl rfl nofun
  | _ =>
    simp only [step, produce] at h
    split at h
    · obtain ⟨sp, -, rfl⟩ := Option.map_eq_some'.mp h
      exact hl.frame rfl rfl hl.exited
    · cases h

theorem reachable_live (h : Reachable s) : Live s := by
  induction h with
  | init => exact ⟨rfl, nofun⟩
  | step a _ hstep ih => exact live_step ih a hstep

/-! ## Each step, run forwards -/

theorem produce_of_running (hm : s.main = .running) {a : Action LogElement}
    {sp : Spsc LogElement} (h : s.spsc.step a = some sp) :
    s.produce a = some { s with spsc := sp } := by
  simp [produce, hm, h]

theorem step_destructor_of_running (hm : s.main = .running) (hp : s.spsc.producer = .idle) :
    s.step .destructor = some { s with main := .draining } := by
  simp [step, destructorStep, hm, hp]

theorem step_destructor_of_draining (hm : s.main = .draining)
    (hn : s.spsc.queue.numElements = 0) :
    s.step .destructor = some { s with main := .stopping } := by
  simp [step, destructorStep, hm, hn]

theorem step_destructor_of_stopping (hm : s.main = .stopping) :
    s.step .destructor = some { s with running := false, main := .joining } := by
  simp [step, destructorStep, hm]

theorem step_destructor_of_joining (hm : s.main = .joining) (hf : s.flush = .exited) :
    s.step .destructor = some { s with main := .closing } := by
  simp [step, destructorStep, hm, hf]

theorem step_destructor_of_closing (hm : s.main = .closing) :
    s.step .destructor =
      some { s with file := s.file ++ s.buffer, buffer := [], main := .closed } := by
  simp [step, destructorStep, hm]

theorem step_flush_of_loopHead (hf : s.flush = .loopHead) :
    s.step .flushQueue = some { s with flush := if s.running then .innerHead else .exited } := by
  simp [step, flushStep, hf]

theorem step_flush_of_flushing (hf : s.flush = .flushing) :
    s.step .flushQueue =
      some { s with file := s.file ++ s.buffer, buffer := [], flush := .sleeping } := by
  simp [step, flushStep, hf]

theorem step_flush_of_sleeping (hf : s.flush = .sleeping) :
    s.step .flushQueue = some { s with flush := .loopHead } := by
  simp [step, flushStep, hf]

/-- `next = getNextToRead()` and the test `size() && next`: into the body on a non-empty
queue, else out of the inner loop. -/
theorem Inv.step_flush_of_innerHead (hs : Inv s) (hf : s.flush = .innerHead) :
    s.step .flushQueue = some (if s.spsc.queue.numElements ≠ 0 then
      { s with spsc := { s.spsc with consumer := .holding s.spsc.queue.nextReadIndex },
               flush := .body }
      else { s with flush := .flushing }) := by
  have hc : s.spsc.consumer = .idle := by simpa [hf, FlushPc.ConsumerAt] using hs.consumer
  simp only [step, flushStep, hf, Spsc.step_getNextToRead_of_idle hc]
  split <;> simp [hc]

/-- The loop body reads the element it holds and writes it to the stream. -/
theorem Inv.step_flush_of_body (hs : Inv s) (hf : s.flush = .body) :
    ∃ c, s.step .flushQueue = some
      { s with spsc := { s.spsc with consumer := .reading c (s.spsc.queue.slot c) },
               flush := .update, buffer := s.buffer ++ [(s.spsc.queue.slot c).print?] } := by
  obtain ⟨c, hc⟩ : ∃ c, s.spsc.consumer = .holding c := by
    simpa [hf, FlushPc.ConsumerAt] using hs.consumer
  exact ⟨c, by simp [step, flushStep, hf, Spsc.step_read_of_holding hc, Consumer.inFlight]⟩

/-- `updateReadIndex()` returns and removes one element; the thread is back at the inner
loop's head. -/
theorem Inv.step_flush_of_update (hs : Inv s) (hf : s.flush = .update) :
    ∃ sp : Spsc LogElement, sp.queue.numElements = s.spsc.queue.numElements - 1 ∧
      s.step .flushQueue = some { s with spsc := sp, flush := .innerHead } := by
  obtain ⟨c, v, hc⟩ : ∃ c v, s.spsc.consumer = .reading c v := by
    simpa [hf, FlushPc.ConsumerAt] using hs.consumer
  obtain ⟨q, hq, h⟩ := hs.spscInv.step_updateReadIndex hc
  exact ⟨{ s.spsc with queue := q, consumer := .idle, consumed := s.spsc.consumed ++ [v] }, hq,
    by simp [step, flushStep, hf, h]⟩

/-! ## The background thread empties the queue -/

/-- A step of the background thread. -/
def FlushStep (s s' : Logger) : Prop := s.step .flushQueue = some s'

/-- The background thread moves neither the destructor nor `running_` nor the producer, and
publishes nothing. -/
theorem FlushStep.frame (h : FlushStep s s') :
    s'.main = s.main ∧ s'.running = s.running ∧ s'.spsc.producer = s.spsc.producer ∧
      s'.spsc.published = s.spsc.published := by
  simp only [FlushStep, step, flushStep] at h
  split at h
  all_goals first
    | (obtain ⟨sp, hsp, rfl⟩ := Option.map_eq_some'.mp h
       exact ⟨rfl, rfl, Spsc.step_consumer_frame (by rfl) hsp⟩)
    | (cases h <;> exact ⟨rfl, rfl, rfl, rfl⟩)

theorem flushRun_frame (h : ReflTransGen FlushStep s s') :
    s'.main = s.main ∧ s'.running = s.running ∧ s'.spsc.producer = s.spsc.producer ∧
      s'.spsc.published = s.spsc.published := by
  induction h with
  | refl => exact ⟨rfl, rfl, rfl, rfl⟩
  | tail _ hstep ih =>
    obtain ⟨h1, h2, h3, h4⟩ := hstep.frame
    exact ⟨h1.trans ih.1, h2.trans ih.2.1, h3.trans ih.2.2.1, h4.trans ih.2.2.2⟩

theorem flushRun_run (h : ReflTransGen FlushStep s s') : ReflTransGen Step s s' :=
  h.mono fun _ _ h => ⟨_, h⟩

/-- From the inner loop's head the background thread reads and writes out every element in
the queue, then flushes, sleeps and is back at `while (running_)` on an empty queue. -/
theorem Inv.drain_from_innerHead (hs : Inv s) (hf : s.flush = .innerHead) :
    ∃ s', ReflTransGen FlushStep s s' ∧ s'.flush = .loopHead ∧
      s'.spsc.queue.numElements = 0 := by
  obtain ⟨n, hn⟩ : ∃ n, s.spsc.queue.numElements = n := ⟨_, rfl⟩
  induction n generalizing s with
  | zero =>
    have h1 := hs.step_flush_of_innerHead hf
    rw [if_neg (by simpa using hn)] at h1
    have h2 := step_flush_of_flushing (s := { s with flush := .flushing }) rfl
    have h3 := step_flush_of_sleeping
      (s := { s with file := s.file ++ s.buffer, buffer := [], flush := .sleeping }) rfl
    exact ⟨_, .head h1 (.head h2 (.single h3)), rfl, hn⟩
  | succ n ih =>
    have h1 := hs.step_flush_of_innerHead hf
    rw [if_pos (by omega)] at h1
    have hs1 := inv_step hs _ h1
    obtain ⟨c, h2⟩ := hs1.step_flush_of_body rfl
    have hs2 := inv_step hs1 _ h2
    obtain ⟨sp, hn3, h3⟩ := hs2.step_flush_of_update rfl
    exact (ih (inv_step hs2 _ h3) rfl (by simp [hn3, hn])).imp fun _ ⟨hr, hend⟩ =>
      ⟨.head h1 (.head h2 (.head h3 hr)), hend⟩

/-- At `while (running_)`, the thread re-enters the loop while `running_` is set; on an empty
queue it need not move. -/
theorem Inv.drain_from_loopHead (hs : Inv s) (hf : s.flush = .loopHead)
    (hr : s.running = true ∨ s.spsc.queue.numElements = 0) :
    ∃ s', ReflTransGen FlushStep s s' ∧ s'.flush = .loopHead ∧
      s'.spsc.queue.numElements = 0 := by
  by_cases hn : s.spsc.queue.numElements = 0
  · exact ⟨s, .refl, hf, hn⟩
  · have h1 := step_flush_of_loopHead hf
    rw [if_pos (hr.resolve_right hn)] at h1
    exact ((inv_step hs _ h1).drain_from_innerHead rfl).imp fun _ ⟨hr, hend⟩ => ⟨.head h1 hr, hend⟩

/-- Wherever it is in `flushQueue()`, the background thread empties the queue and is back at
`while (running_)`, provided `running_` is set or the queue is already empty. -/
theorem Inv.drain (hs : Inv s) (hf : s.flush ≠ .exited)
    (hr : s.running = true ∨ s.spsc.queue.numElements = 0) :
    ∃ s', ReflTransGen FlushStep s s' ∧ s'.flush = .loopHead ∧
      s'.spsc.queue.numElements = 0 := by
  cases hpc : s.flush with
  | loopHead => exact hs.drain_from_loopHead hpc hr
  | innerHead => exact hs.drain_from_innerHead hpc
  | body =>
    obtain ⟨c, h1⟩ := hs.step_flush_of_body hpc
    have hs1 := inv_step hs _ h1
    obtain ⟨sp, -, h2⟩ := hs1.step_flush_of_update rfl
    exact ((inv_step hs1 _ h2).drain_from_innerHead rfl).imp fun _ ⟨hr', hend⟩ =>
      ⟨.head h1 (.head h2 hr'), hend⟩
  | update =>
    obtain ⟨sp, -, h1⟩ := hs.step_flush_of_update hpc
    exact ((inv_step hs _ h1).drain_from_innerHead rfl).imp fun _ ⟨hr', hend⟩ =>
      ⟨.head h1 hr', hend⟩
  | flushing =>
    have h1 := step_flush_of_flushing hpc
    have h2 := step_flush_of_sleeping
      (s := { s with file := s.file ++ s.buffer, buffer := [], flush := .sleeping }) rfl
    exact ((inv_step (inv_step hs _ h1) _ h2).drain_from_loopHead rfl hr).imp
      fun _ ⟨hr', hend⟩ => ⟨.head h1 (.head h2 hr'), hend⟩
  | sleeping =>
    have h1 := step_flush_of_sleeping hpc
    exact ((inv_step hs _ h1).drain_from_loopHead rfl hr).imp fun _ ⟨hr', hend⟩ =>
      ⟨.head h1 hr', hend⟩
  | exited => exact absurd hpc hf

/-! ## The destructor runs to its end -/

theorem close_from_closing (hm : s.main = .closing) :
    ∃ s', ReflTransGen Step s s' ∧ s'.main = .closed ∧ s'.spsc.published = s.spsc.published :=
  ⟨_, .single ⟨_, step_destructor_of_closing hm⟩, rfl, rfl⟩

/-- `logger_thread_->join()` returns: with `running_` cleared and the queue empty, the
background thread leaves its loop. -/
theorem close_from_joining (h : Reachable s) (hm : s.main = .joining) :
    ∃ s', ReflTransGen Step s s' ∧ s'.main = .closed ∧ s'.spsc.published = s.spsc.published := by
  have hrun : s.running = false := by
    simpa [hm, MainPc.keepsRunning] using (reachable_live h).running
  by_cases hf : s.flush = .exited
  · exact (close_from_closing (s := { s with main := .closing }) rfl).imp fun _ ⟨hr, hend⟩ =>
      ⟨.head ⟨_, step_destructor_of_joining hm hf⟩ hr, hend⟩
  · have hs := reachable_inv h
    obtain ⟨s₁, hr₁, hf₁, -⟩ := hs.drain hf (.inr (hs.drained (by simp [hm, MainPc.drained])))
    obtain ⟨hm₁, hrun₁, -, hp₁⟩ := flushRun_frame hr₁
    have h2 : s₁.step .flushQueue = some { s₁ with flush := .exited } := by
      rw [step_flush_of_loopHead hf₁, hrun₁, hrun]; rfl
    obtain ⟨s', hr, hc, hp⟩ :=
      close_from_closing (s := { s₁ with flush := .exited, main := .closing }) rfl
    exact ⟨s', ((flushRun_run hr₁).tail ⟨_, h2⟩).trans
      (.head ⟨_, step_destructor_of_joining (hm₁.trans hm) rfl⟩ hr), hc, hp.trans hp₁⟩

theorem close_from_stopping (h : Reachable s) (hm : s.main = .stopping) :
    ∃ s', ReflTransGen Step s s' ∧ s'.main = .closed ∧ s'.spsc.published = s.spsc.published := by
  have h1 := step_destructor_of_stopping hm
  exact (close_from_joining (.step _ h h1) rfl).imp fun _ ⟨hr, hend⟩ => ⟨.head ⟨_, h1⟩ hr, hend⟩

/-- `while (queue_.size())` ends: `running_` is still set, so the background thread has not
left its loop and empties the queue. -/
theorem close_from_draining (h : Reachable s) (hm : s.main = .draining) :
    ∃ s', ReflTransGen Step s s' ∧ s'.main = .closed ∧ s'.spsc.published = s.spsc.published := by
  have hl := reachable_live h
  have hrun : s.running = true := by simpa [hm, MainPc.keepsRunning] using hl.running
  have hf : s.flush ≠ .exited := fun he => by simp [hl.exited he] at hrun
  obtain ⟨s₁, hr₁, -, hn₁⟩ := (reachable_inv h).drain hf (.inl hrun)
  obtain ⟨hm₁, -, -, hp₁⟩ := flushRun_frame hr₁
  have h2 := step_destructor_of_draining (hm₁.trans hm) hn₁
  obtain ⟨s', hr, hc, hp⟩ := close_from_stopping (.step _ (h.run (flushRun_run hr₁)) h2) rfl
  exact ⟨s', (flushRun_run hr₁).trans (.head ⟨_, h2⟩ hr), hc, hp.trans hp₁⟩

/-- The application thread finishes the push it is inside, if any, and enters the
destructor. -/
theorem close_from_running (h : Reachable s) (hm : s.main = .running) :
    ∃ s', ReflTransGen Step s s' ∧ s'.main = .closed ∧
      ∃ pending : List LogElement, pending.length ≤ 1 ∧ (s.spsc.producer = .idle → pending = []) ∧
        s'.spsc.published = s.spsc.published ++ pending := by
  -- from an idle producer, `~Logger()` starts
  have enter : ∀ {t : Logger}, Reachable t → t.main = .running → t.spsc.producer = .idle →
      ∃ t', ReflTransGen Step t t' ∧ t'.main = .closed ∧ t'.spsc.published = t.spsc.published :=
    fun {t} ht hm hp => by
      have h1 := step_destructor_of_running hm hp
      exact (close_from_draining (.step _ ht h1) rfl).imp fun _ ⟨hr, hend⟩ =>
        ⟨.head ⟨_, h1⟩ hr, hend⟩
  cases hp : s.spsc.producer with
  | idle =>
    obtain ⟨s', hr, hc, hpub⟩ := enter h hm hp
    exact ⟨s', hr, hc, [], by simp, fun _ => rfl, by simp [hpub]⟩
  | writing p =>
    have h1 : s.step (.populate default) = some _ :=
      produce_of_running hm (Spsc.step_populate_of_writing default hp)
    have h2 := produce_of_running (s := { s with spsc := { s.spsc with
        queue := s.spsc.queue.writeSlot p default, producer := .populated p default } }) hm
      (Spsc.step_updateWriteIndex_of_populated rfl)
    obtain ⟨s', hr, hc, hpub⟩ := enter (.step .updateWriteIndex (.step _ h h1) h2) hm rfl
    exact ⟨s', .head ⟨_, h1⟩ (.head ⟨.updateWriteIndex, h2⟩ hr), hc, [default], by simp, nofun,
      hpub⟩
  | populated p v =>
    have h1 : s.step .updateWriteIndex = some _ :=
      produce_of_running hm (Spsc.step_updateWriteIndex_of_populated hp)
    obtain ⟨s', hr, hc, hpub⟩ := enter (.step _ h h1) hm rfl
    exact ⟨s', .head ⟨_, h1⟩ hr, hc, [v], by simp, nofun, hpub⟩

end Logger

end LowLatency
