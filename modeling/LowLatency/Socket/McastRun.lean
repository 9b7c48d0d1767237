import LowLatency.Socket.Mcast
set_option autoImplicit false

/-!
# Runs of `McastSocket`: the outbound path is a byte pipe

The socket's owner calls `send(data, len)` and `sendAndRecv()` in any order.  `send` appends
to `outbound_data_`; `sendAndRecv` passes everything appended since the last call to
`::send` as one datagram and resets `next_send_valid_index_`.  Over every such run, whatever
the kernel delivers and whatever `recv_callback_` does to the receive side:

* the run returns exactly when no batch of sends between two `sendAndRecv()` calls fills
  `McastBufferSize` bytes (`fits`); the first send that does exits through the `ASSERT`;
* when it returns, the datagrams passed to `::send`, followed by the bytes still pending,
  are the bytes pending at the start followed by every byte passed to `send`, in order:
  nothing is lost, repeated or reordered;
* every datagram is non-empty and shorter than `McastBufferSize`.

The callback is assumed to leave the send side (`outbound_data_` and
`next_send_valid_index_`) alone, and each `len` to be below `2^64 - McastBufferSize`, so that
the `size_t` index cannot wrap past zero.
-/

namespace LowLatency.McastSocket

/-- A call the socket's owner makes. -/
inductive Call where
  | send (data : List UInt8)
  | sendAndRecv (incoming : List UInt8)

/-- The bytes a call passes to `send`. -/
def Call.sent : Call → List UInt8
  | .send data => data
  | .sendAndRecv _ => []

/-- One call: the socket after it, the datagram passed to `::send` if any, and whether it
exited. -/
def call (recvCallback : McastSocket → McastSocket) (s : McastSocket) :
    Call → McastSocket × Option (List UInt8) × Except String Unit
  | .send data => ((s.send data).1, none, (s.send data).2)
  | .sendAndRecv incoming =>
    ((s.sendAndRecv incoming recvCallback).1, (s.sendAndRecv incoming recvCallback).2.1, .ok ())

/-- A run of calls up to the first that exits: the socket, the datagrams passed to `::send`
in order, and whether the run exited. -/
def run (recvCallback : McastSocket → McastSocket) :
    McastSocket → List Call → McastSocket × List (List UInt8) × Except String Unit
  | s, [] => (s, [], .ok ())
  | s, c :: rest =>
    let r := call recvCallback s c
    match r.2.2 with
    | .ok () =>
      let t := run recvCallback r.1 rest
      (t.1, r.2.1.toList ++ t.2.1, t.2.2)
    | .error e => (r.1, r.2.1.toList, .error e)

/-- Whether every `send` of the calls keeps `next_send_valid_index_`, starting at `n`, below
`McastBufferSize`; `sendAndRecv` resets it to 0. -/
def fits : Nat → List Call → Bool
  | _, [] => true
  | n, .send data :: rest => decide (n + data.length < McastBufferSize) && fits (n + data.length) rest
  | _, .sendAndRecv _ :: rest => fits 0 rest

/-! ## One call -/

theorem pending_zero {s : McastSocket} (h : s.nextSendValidIndex = 0) : s.pending = [] := by
  simp [pending, prefixBytes, h]

@[simp] theorem length_pending (s : McastSocket) : s.pending.length = s.nextSendValidIndex := by
  simp [pending, prefixBytes]

/-- A `send` whose index does not wrap appends its bytes to the pending ones. -/
theorem pending_send {s : McastSocket} {data : List UInt8}
    (h : s.nextSendValidIndex + data.length < 2 ^ 64) :
    (s.send data).1.pending = s.pending ++ data := by
  rw [pending, send_nextSendValidIndex, Nat.mod_eq_of_lt h, send_outbound, prefixBytes_memcpy,
    pending]

section Callback

variable {recvCallback : McastSocket → McastSocket}
  (hcb : ∀ t, (recvCallback t).outbound = t.outbound ∧
    (recvCallback t).nextSendValidIndex = t.nextSendValidIndex)
include hcb

/-- The send side of `sendAndRecv()`: the pending bytes go out as one datagram when there are
any, and the index is reset. -/
theorem sendAndRecv_send_side (s : McastSocket) (incoming : List UInt8) :
    (s.sendAndRecv incoming recvCallback).1.nextSendValidIndex = 0 ∧
    (s.sendAndRecv incoming recvCallback).2.1 =
      if 0 < s.nextSendValidIndex then some s.pending else none := by
  refine ⟨rfl, ?_⟩
  simp only [sendAndRecv]
  split
  · simp only [pending, (hcb _).1, (hcb _).2]
  · rfl

/-- For every socket at a valid index, every callback that leaves the send side alone, and
every run of `send` and `sendAndRecv()` calls whose lengths cannot wrap the `size_t` index:
the run returns exactly when each batch of sends between two `sendAndRecv()` calls stays
below `McastBufferSize` bytes; when it returns, the datagrams passed to `::send`, followed by
the bytes still pending, are the start's pending bytes followed by every byte passed to
`send`, in order; and every datagram is non-empty and shorter than `McastBufferSize`. -/
theorem run_is_byte_pipe {s : McastSocket} (hs : s.nextSendValidIndex < McastBufferSize)
    (calls : List Call) (hlen : ∀ c ∈ calls, c.sent.length < 2 ^ 64 - McastBufferSize) :
    ((run recvCallback s calls).2.2 = .ok () ↔ fits s.nextSendValidIndex calls) ∧
    ((run recvCallback s calls).2.2 = .ok () →
      (run recvCallback s calls).2.1.flatten ++ (run recvCallback s calls).1.pending =
        s.pending ++ (calls.map Call.sent).flatten) ∧
    ∀ d ∈ (run recvCallback s calls).2.1, 0 < d.length ∧ d.length < McastBufferSize := by
  induction calls generalizing s with
  | nil => simp [run, fits]
  | cons c rest ih =>
    have ih := fun s hs => ih (s := s) hs fun c hc => hlen c (.tail _ hc)
    cases c with
    | send data =>
      have hwrap : s.nextSendValidIndex + data.length < 2 ^ 64 := by
        have := hlen _ (.head _); simp only [Call.sent] at this; omega
      by_cases hfit : s.nextSendValidIndex + data.length < McastBufferSize
      · have hok : (s.send data).2 = .ok () := send_result_ok (by rwa [Nat.mod_eq_of_lt hwrap])
        have hidx : (s.send data).1.nextSendValidIndex = s.nextSendValidIndex + data.length := by
          rw [send_nextSendValidIndex, Nat.mod_eq_of_lt hwrap]
        obtain ⟨h1, h2, h3⟩ := ih _ (hidx ▸ hfit)
        simp only [run, call, hok, Option.toList_none, List.nil_append, fits, hidx, hfit,
          decide_True, Bool.true_and] at h1 h2 h3 ⊢
        refine ⟨h1, fun h => ?_, h3⟩
        rw [h2 h, pending_send hwrap, List.map_cons, Call.sent, List.flatten_cons,
          List.append_assoc]
      · have herr := send_result_error (by rwa [Nat.mod_eq_of_lt hwrap])
        simp [run, call, herr, fits, hfit]
    | sendAndRecv incoming =>
      obtain ⟨hidx, hdgram⟩ := sendAndRecv_send_side hcb s incoming
      obtain ⟨h1, h2, h3⟩ := ih _ (by rw [hidx]; decide)
      simp only [run, call, fits, List.map_cons, Call.sent, List.flatten_cons,
        List.nil_append] at h1 h2 h3 ⊢
      rw [hidx] at h1
      refine ⟨h1, fun h => ?_, fun d hd => ?_⟩
      · rw [List.flatten_append, List.append_assoc, h2 h, pending_zero hidx, List.nil_append,
          hdgram]
        split
        · simp
        · simp [pending_zero (Nat.eq_zero_of_not_pos ‹_›)]
      · rcases List.mem_append.mp hd with hd | hd
        · rw [hdgram] at hd
          split at hd
          · rw [Option.toList_some, List.mem_singleton] at hd
            rw [hd, length_pending]
            exact ⟨‹_›, hs⟩
          · simp at hd
        · exact h3 d hd

end Callback

theorem run_is_byte_pipe_new :
    (∀ t : McastSocket, (id t).outbound = t.outbound ∧
      (id t).nextSendValidIndex = t.nextSendValidIndex) ∧
    (new (fun _ => 0) (fun _ => 0)).nextSendValidIndex < McastBufferSize ∧
    (∀ c ∈ [Call.send [1, 2], .sendAndRecv [], .send [3]],
      c.sent.length < 2 ^ 64 - McastBufferSize) ∧
    ((run id (new (fun _ => 0) (fun _ => 0)) [.send [1, 2], .sendAndRecv [], .send [3]]).2.2 =
        .ok () ↔
      fits (new (fun _ => 0) (fun _ => 0)).nextSendValidIndex
        [.send [1, 2], .sendAndRecv [], .send [3]]) ∧
    ((run id (new (fun _ => 0) (fun _ => 0)) [.send [1, 2], .sendAndRecv [], .send [3]]).2.2 =
        .ok () →
      (run id (new (fun _ => 0) (fun _ => 0))
          [.send [1, 2], .sendAndRecv [], .send [3]]).2.1.flatten ++
        (run id (new (fun _ => 0) (fun _ => 0))
          [.send [1, 2], .sendAndRecv [], .send [3]]).1.pending =
        (new (fun _ => 0) (fun _ => 0)).pending ++
          ([Call.send [1, 2], .sendAndRecv [], .send [3]].map Call.sent).flatten) ∧
    ∀ d ∈ (run id (new (fun _ => 0) (fun _ => 0))
        [.send [1, 2], .sendAndRecv [], .send [3]]).2.1,
      0 < d.length ∧ d.length < McastBufferSize :=
  ⟨fun _ => ⟨rfl, rfl⟩, by decide, by decide,
    run_is_byte_pipe (fun _ => ⟨rfl, rfl⟩) (by decide) _ (by decide)⟩

/-- Two bytes sent, a `sendAndRecv()`, one more byte: the first two go out as one datagram and
the third is pending. -/
example :
    (run id (new (fun _ => 0) (fun _ => 0)) [.send [1, 2], .sendAndRecv [], .send [3]]).2.1 =
      [[1, 2]] ∧
    (run id (new (fun _ => 0) (fun _ => 0))
      [.send [1, 2], .sendAndRecv [], .send [3]]).1.pending = [3] := by
  decide

end LowLatency.McastSocket
