import LowLatency.Logger.Shutdown
import LowLatency.Logger.Format
set_option autoImplicit false

/-!
# Every accepted `log` call reaches the file

The whole path of a message: `log(s, args...)` turns the format string and the arguments into
elements (`Logger/Format.lean`), the application thread pushes them one at a time into the
queue, the background thread writes them to the stream, and `~Logger()` closes the file.

From every state the two threads reach with the application thread between pushes, some run
pushes exactly the elements of the call, however many there are, and then completes the
destructor.  In it the background thread empties the queue before each push, so the queue
never holds more than one element and `LOG_QUEUE_SIZE` is never the limit.  The closed file
ends with the printed form of the rendered message, after everything logged before.

What the file holds is stated over every run: once the destructor has closed it, every
published element, in order, each printed through the union member its tag names
(`closed_file_holds_every_push`); and at any time before, a prefix of the same
(`file_prefix_of_published`).  The witnesses of both reach their states through the run
lemmas above, since the queue's 8 Mi slots are never evaluated.
-/

namespace LowLatency.Logger

open LFQueue Relation

variable {s : Logger}

/-- Before the destructor starts, every run of the queue's producer is a run of the
application thread. -/
theorem produceRun (hm : s.main = .running) {sp : Spsc LogElement}
    (hr : ReflTransGen (Spsc.StepOf true) s.spsc sp) : ReflTransGen Step s { s with spsc := sp } := by
  induction hr with
  | refl => exact .refl
  | @tail b c _ hstep ih =>
    obtain ⟨a, ha, h⟩ := hstep
    have hstep := produce_of_running (s := { s with spsc := b }) hm h
    cases a with
    | getNextToWrite => exact ih.tail ⟨.getNextToWrite, hstep⟩
    | populate e => exact ih.tail ⟨.populate e, hstep⟩
    | updateWriteIndex => exact ih.tail ⟨.updateWriteIndex, hstep⟩
    | _ => cases ha

/-- An application thread between pushes, on a queue with room, publishes `e`:
`*getNextToWrite() = e`, then `updateWriteIndex()`. -/
theorem push_one (h : Reachable s) (hm : s.main = .running) (hp : s.spsc.producer = .idle)
    (hroom : s.spsc.queue.numElements < LOG_QUEUE_SIZE) (e : LogElement) :
    ∃ s', ReflTransGen Step s s' ∧ s'.main = .running ∧ s'.spsc.producer = .idle ∧
      s'.spsc.published = s.spsc.published ++ [e] := by
  obtain ⟨sp, hr, hp', hpub, -⟩ := (reachable_inv h).spscInv.push_alone hp e hroom
  exact ⟨_, produceRun hm hr, hm, hp', hpub⟩

/-- The application thread publishes any list of elements, the background thread emptying
the queue before each push. -/
theorem push_all (h : Reachable s) (hm : s.main = .running) (hp : s.spsc.producer = .idle)
    (es : List LogElement) :
    ∃ s', ReflTransGen Step s s' ∧ s'.main = .running ∧ s'.spsc.producer = .idle ∧
      s'.spsc.published = s.spsc.published ++ es := by
  induction es generalizing s with
  | nil => exact ⟨s, .refl, hm, hp, by simp⟩
  | cons e es ih =>
    have hl := reachable_live h
    have hrun : s.running = true := by simpa [hm, MainPc.keepsRunning] using hl.running
    obtain ⟨s₁, hr₁, -, hn₁⟩ :=
      (reachable_inv h).drain (fun he => by simp [hl.exited he] at hrun) (.inl hrun)
    obtain ⟨hm₁, -, hp₁, hpub₁⟩ := flushRun_frame hr₁
    have h₁ := h.run (flushRun_run hr₁)
    obtain ⟨s₂, hr₂, hm₂, hp₂, hpub₂⟩ :=
      push_one h₁ (hm₁.trans hm) (hp₁.trans hp) (by rw [hn₁]; exact log_queue_size_pos) e
    obtain ⟨s₃, hr₃, hm₃, hp₃, hpub₃⟩ := ih (h₁.run hr₂) hm₂ hp₂
    exact ⟨s₃, (flushRun_run hr₁).trans (hr₂.trans hr₃), hm₃, hp₃, by simp [hpub₃, hpub₂, hpub₁]⟩

/-- For every state the two threads reach with the application thread between pushes, every
NUL-free format string (followed by its terminator and any memory) and every argument list
with as many arguments as the string has placeholders: `log` returns the rendered elements,
and some continuation of the run pushes exactly those elements, however many, and completes
`~Logger()`.  The closed file then holds everything published before, followed by the
rendered message, each element as the background thread prints it. -/
theorem log_reaches_file (h : Reachable s) (hm : s.main = .running) (hp : s.spsc.producer = .idle)
    (fmt : List Char) (hfmt : NUL ∉ fmt) (junk : List Char) (args : List LogArg)
    (hcount : placeholderCount (pieces fmt) = args.length) :
    log (fmt ++ NUL :: junk) args = .ok (render (pieces fmt) args) ∧
    ∃ s', ReflTransGen Step s s' ∧ s'.main = .closed ∧
      s'.file = (s.spsc.published ++ render (pieces fmt) args).map LogElement.print? := by
  refine ⟨by rw [log_eq_logSpec fmt hfmt junk args, logSpec, if_pos hcount], ?_⟩
  obtain ⟨s₁, hr₁, hm₁, hp₁, hpub₁⟩ := push_all h hm hp (render (pieces fmt) args)
  obtain ⟨s₂, hr₂, hc₂, pending, -, hidle, hpub₂⟩ := close_from_running (h.run hr₁) hm₁
  have hfile := (reachable_inv ((h.run hr₁).run hr₂)).file_of_closed hc₂
  exact ⟨s₂, hr₁.trans hr₂, hc₂, by rw [hfile, hpub₂, hidle hp₁, List.append_nil, hpub₁]⟩

theorem log_reaches_file_init :
    Reachable init ∧ init.main = .running ∧ init.spsc.producer = .idle ∧ NUL ∉ ['a', '%'] ∧
    placeholderCount (pieces ['a', '%']) = [LogArg.char 'b'].length ∧
    (log (['a', '%'] ++ NUL :: []) [.char 'b'] = .ok (render (pieces ['a', '%']) [.char 'b']) ∧
      ∃ s', ReflTransGen Step init s' ∧ s'.main = .closed ∧
        s'.file = (init.spsc.published ++ render (pieces ['a', '%']) [.char 'b']).map
          LogElement.print?) :=
  ⟨.init, rfl, rfl, by decide, by decide,
    log_reaches_file .init rfl rfl _ (by decide) [] _ (by decide)⟩

/-! ## What the file holds -/

/-- Any list of elements can be pushed from the constructed logger, and the logger closed. -/
theorem closed_after_pushes (es : List LogElement) :
    ∃ s, Reachable s ∧ s.main = .closed ∧ s.spsc.published = es := by
  obtain ⟨s₁, hr₁, hm₁, hp₁, hpub₁⟩ := push_all .init rfl rfl es
  have h₁ := Reachable.init.run hr₁
  obtain ⟨s₂, hr₂, hc₂, pending, -, hidle, hpub₂⟩ := close_from_running h₁ hm₁
  exact ⟨s₂, h₁.run hr₂, hc₂, by rw [hpub₂, hidle hp₁, List.append_nil, hpub₁]; rfl⟩

/-- For every interleaving of the application thread's pushes (each element populated into
`*getNextToWrite()` and published by `updateWriteIndex()`, never more than `LOG_QUEUE_SIZE`
unconsumed), the background thread's `flushQueue()` iterations and the steps of `~Logger()`:
once the destructor has drained the queue, cleared `running_`, joined the thread and closed
the file, the file holds, once each and in push order, every pushed element as the
`switch (next->type_)` prints it.  Each case of the switch reads the union member its tag
names, so an element prints as its stored value exactly when the tag names the member it
holds; every `pushValue` overload but the copy of a ready-made `LogElement` builds such an
element. -/
theorem closed_file_holds_every_push (h : Reachable s) (hclosed : s.main = .closed) :
    s.file = s.spsc.published.map LogElement.print? ∧
    (∀ e ∈ s.spsc.published, e.print? = if e.u.member = e.type then some e.u else none) ∧
    ∀ a : LogArg, (∀ e, a ≠ .element e) → ∀ e ∈ a.pushValue, e.print? = some e.u :=
  ⟨(reachable_inv h).file_of_closed hclosed, fun e _ => e.print?_eq,
    fun a ha e he => LogElement.print?_of_wellTagged (pushValue_wellTagged a ha e he)⟩

/-- Two pushes, then shutdown: a `CHAR` element prints as its character, and a copied element
whose `INTEGER` tag does not name the `char` it holds prints nothing defined. -/
theorem closed_file_holds_every_push_two :
    ∃ s, Reachable s ∧ s.main = .closed ∧
      s.spsc.published = [charElement 'o', ⟨.INTEGER, .c 'x'⟩] ∧
      s.file = [some (.c 'o'), none] ∧
      (s.file = s.spsc.published.map LogElement.print? ∧
        (∀ e ∈ s.spsc.published, e.print? = if e.u.member = e.type then some e.u else none) ∧
        ∀ a : LogArg, (∀ e, a ≠ .element e) → ∀ e ∈ a.pushValue, e.print? = some e.u) := by
  obtain ⟨s, h, hc, hpub⟩ := closed_after_pushes [charElement 'o', ⟨.INTEGER, .c 'x'⟩]
  have hfile := closed_file_holds_every_push h hc
  exact ⟨s, h, hc, hpub, by rw [hfile.1, hpub]; rfl, hfile⟩

/-- Push `e₁`, let the background thread write it out, then push `e₂`: the stream holds `e₁`
and `e₂` waits in the queue. -/
theorem flushed_then_pushed (e₁ e₂ : LogElement) :
    ∃ s, Reachable s ∧ s.spsc.published = [e₁, e₂] ∧ s.file ++ s.buffer = [e₁.print?] := by
  obtain ⟨s₁, hr₁, hm₁, hp₁, hpub₁⟩ := push_all .init rfl rfl [e₁]
  have h₁ := Reachable.init.run hr₁
  have hl := reachable_live h₁
  have hrun : s₁.running = true := by simpa [hm₁, MainPc.keepsRunning] using hl.running
  obtain ⟨s₂, hr₂, hf₂, hn₂⟩ :=
    (reachable_inv h₁).drain (fun he => by simp [hl.exited he] at hrun) (.inl hrun)
  obtain ⟨hm₂, -, hp₂, hpub₂⟩ := flushRun_frame hr₂
  have h₂ := h₁.run (flushRun_run hr₂)
  have hs₂ := reachable_inv h₂
  -- the queue is empty, so the background thread has consumed everything published
  have hidle : s₂.spsc.consumer = .idle := by simpa [hf₂, FlushPc.ConsumerAt] using hs₂.consumer
  have hcons : s₂.spsc.consumed = [e₁] := by
    have hempty : s₂.spsc.queue.contents = [] := List.eq_nil_of_length_eq_zero (by simpa using hn₂)
    have hh := hs₂.spscInv.history
    rw [hempty, List.append_nil, hpub₂, hpub₁] at hh
    exact hh.symm
  obtain ⟨sp, hr₃, -, hpub₃, -⟩ :=
    hs₂.spscInv.push_alone (hp₂.trans hp₁) e₂ (by rw [hn₂]; exact log_queue_size_pos)
  -- the push moves neither the stream nor what the background thread has read
  exact ⟨_, h₂.run (produceRun (hm₂.trans hm₁) hr₃), by rw [hpub₃, hpub₂, hpub₁]; rfl,
    hs₂.output.trans (by rw [Spsc.reads, hcons, hidle]; rfl)⟩

/-- At every state any interleaving reaches, before any shutdown as well, the file and the
stream's unflushed buffer hold the printed form of a prefix of the published elements: never
an element out of push order, twice, or one that was not pushed. -/
theorem file_prefix_of_published (h : Reachable s) :
    s.file <+: s.spsc.published.map LogElement.print? ∧
      s.file ++ s.buffer <+: s.spsc.published.map LogElement.print? := by
  have hs := reachable_inv h
  have hout : s.file ++ s.buffer <+: s.spsc.published.map LogElement.print? :=
    hs.output ▸ hs.spscInv.reads_prefix.map _
  exact ⟨(List.prefix_append _ _).trans hout, hout⟩

/-- Mid-run: `'o'` written to the stream, `'k'` published and still in the queue. -/
theorem file_prefix_of_published_pending :
    ∃ s, Reachable s ∧ s.spsc.published = [charElement 'o', charElement 'k'] ∧
      s.file ++ s.buffer = [some (.c 'o')] ∧
      (s.file <+: s.spsc.published.map LogElement.print? ∧
        s.file ++ s.buffer <+: s.spsc.published.map LogElement.print?) := by
  obtain ⟨s, h, hpub, hout⟩ := flushed_then_pushed (charElement 'o') (charElement 'k')
  exact ⟨s, h, hpub, hout, file_prefix_of_published h⟩

end LowLatency.Logger
