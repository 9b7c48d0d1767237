import LowLatency.Basic
set_option autoImplicit false

/-!
# `McastSocket`: the outbound buffer and `sendAndRecv()`

`McastSocket` owns two byte vectors of `McastBufferSize` bytes.  `send(data, len)` copies
`len` bytes to `outbound_data_.data() + next_send_valid_index_`, advances the index (a
`size_t`, so modulo 2^64) and only then `ASSERT`s that the index is below `McastBufferSize`.
`sendAndRecv()` receives into `inbound_data_` past `next_rcv_valid_index_` and hands the
socket to `recv_callback_` when bytes arrived; it then passes
`outbound_data_[0, next_send_valid_index_)` to `::send` when that range is not empty, and
resets `next_send_valid_index_`.

Memory is modelled from each vector's first byte on, as a function from offsets to bytes: the
offsets below `McastBufferSize` are the vector, and the ones above are whatever the allocator
put after it, so a write past the vector's end shows in the model.  The kernel's side of
`recv` is an argument (the bytes it has for the socket), `::send` is an output (the bytes it
is passed), and `recv_callback_` is any update of the socket.  `init`, `join` and `leave`
only make system calls on `socket_fd_`, and the `logger_.log` calls only report; neither is
modelled.
-/

namespace LowLatency

/-- `McastBufferSize`. -/
def McastBufferSize : Nat := 64 * 1024 * 1024

/-- `memcpy(base + dst, data, len)` on the memory from `base` on, `len` being the length of
`data`. -/
def memcpy (mem : Nat → UInt8) (dst : Nat) (data : List UInt8) : Nat → UInt8 :=
  fun i => if dst ≤ i ∧ i < dst + data.length then data.getD (i - dst) 0 else mem i

/-- The bytes at offsets `[0, n)`. -/
def prefixBytes (mem : Nat → UInt8) (n : Nat) : List UInt8 :=
  (List.range n).map mem

/-- `Common::McastSocket`, with each vector as the memory from its `data()` on. -/
structure McastSocket where
  outbound : Nat → UInt8
  nextSendValidIndex : Nat
  inbound : Nat → UInt8
  nextRcvValidIndex : Nat

namespace McastSocket

/-- `McastSocket(logger)`: both vectors resized to `McastBufferSize` zero bytes, followed in
memory by `outAfter` and `inAfter`; both indices start at 0. -/
def new (outAfter inAfter : Nat → UInt8) : McastSocket where
  outbound i := if i < McastBufferSize then 0 else outAfter i
  nextSendValidIndex := 0
  inbound i := if i < McastBufferSize then 0 else inAfter i
  nextRcvValidIndex := 0

/-- `outbound_data_[0, next_send_valid_index_)`: the bytes waiting for `sendAndRecv()`. -/
def pending (s : McastSocket) : List UInt8 :=
  prefixBytes s.outbound s.nextSendValidIndex

/-- `send(data, len)`: the socket when the call returns or exits, and whether it exited. -/
def send (s : McastSocket) (data : List UInt8) : McastSocket × Except String Unit :=
  let s := { s with outbound := memcpy s.outbound s.nextSendValidIndex data }
  let s := { s with nextSendValidIndex := (s.nextSendValidIndex + data.length) % 2 ^ 64 }
  (s, ASSERT (s.nextSendValidIndex < McastBufferSize)
    "Mcast socket buffer filled up and sendAndRecv() not called.")

/-- `sendAndRecv()`: the socket after the call, the bytes passed to `::send` if it is called,
and the result `n_rcv > 0`.  `incoming` is what the kernel has for the socket; `recv` takes
at most `McastBufferSize - next_rcv_valid_index_` (`size_t`) bytes of it. -/
def sendAndRecv (s : McastSocket) (incoming : List UInt8)
    (recvCallback : McastSocket → McastSocket) : McastSocket × Option (List UInt8) × Bool :=
  let rcv := incoming.take ((McastBufferSize + 2 ^ 64 - s.nextRcvValidIndex) % 2 ^ 64)
  let s := if 0 < rcv.length then
      recvCallback { s with inbound := memcpy s.inbound s.nextRcvValidIndex rcv,
                            nextRcvValidIndex := (s.nextRcvValidIndex + rcv.length) % 2 ^ 64 }
    else s
  ({ s with nextSendValidIndex := 0 },
    if 0 < s.nextSendValidIndex then some s.pending else none, 0 < rcv.length)

/-- A sequence of `send` calls, up to the first that exits. -/
def sendAll (s : McastSocket) : List (List UInt8) → McastSocket × Except String Unit
  | [] => (s, .ok ())
  | data :: rest =>
    match (s.send data).2 with
    | .ok () => sendAll (s.send data).1 rest
    | .error e => ((s.send data).1, .error e)

/-! ## One `send` -/

@[simp] theorem send_outbound (s : McastSocket) (data : List UInt8) :
    (s.send data).1.outbound = memcpy s.outbound s.nextSendValidIndex data := rfl

@[simp] theorem send_nextSendValidIndex (s : McastSocket) (data : List UInt8) :
    (s.send data).1.nextSendValidIndex = (s.nextSendValidIndex + data.length) % 2 ^ 64 := rfl

theorem send_result (s : McastSocket) (data : List UInt8) :
    (s.send data).2 = ASSERT ((s.nextSendValidIndex + data.length) % 2 ^ 64 < McastBufferSize)
      "Mcast socket buffer filled up and sendAndRecv() not called." := rfl

theorem send_result_ok {s : McastSocket} {data : List UInt8}
    (h : (s.nextSendValidIndex + data.length) % 2 ^ 64 < McastBufferSize) :
    (s.send data).2 = .ok () := by
  rw [send_result, decide_eq_true h, ASSERT_true]

theorem send_result_error {s : McastSocket} {data : List UInt8}
    (h : ¬(s.nextSendValidIndex + data.length) % 2 ^ 64 < McastBufferSize) :
    (s.send data).2 = .error "Mcast socket buffer filled up and sendAndRecv() not called." := by
  rw [send_result, decide_eq_false h, ASSERT_false]

/-- `send` writes `data[i]` at the old index plus `i`, whether or not that is inside the
vector. -/
theorem send_outbound_add (s : McastSocket) {data : List UInt8} {i : Nat} (h : i < data.length) :
    (s.send data).1.outbound (s.nextSendValidIndex + i) = data[i] := by
  simp [memcpy, h]

/-- `memcpy` writes nothing at or past `dst + len`. -/
theorem memcpy_of_le {mem : Nat → UInt8} {dst i : Nat} {data : List UInt8}
    (h : dst + data.length ≤ i) : memcpy mem dst data i = mem i := by
  simp [memcpy]
  omega

/-- Copying `data` to offset `n` and reading `[0, n + len)` gives the old `[0, n)` then
`data`. -/
theorem prefixBytes_memcpy (mem : Nat → UInt8) (n : Nat) (data : List UInt8) :
    prefixBytes (memcpy mem n data) (n + data.length) = prefixBytes mem n ++ data := by
  rw [prefixBytes, List.range_add, List.map_append, List.map_map]
  congr 1
  · exact List.map_congr_left fun i hi => by simp [memcpy, List.mem_range.mp hi]
  · refine List.ext_getElem (by simp) fun i h1 h2 => ?_
    simp [memcpy, h2]

/-! ## A run of `send` calls -/

theorem sendAll_cons_of_ok {s : McastSocket} {data : List UInt8} (rest : List (List UInt8))
    (h : (s.send data).2 = .ok ()) : sendAll s (data :: rest) = sendAll (s.send data).1 rest := by
  simp only [sendAll, h]

/-- While the bytes appended fit below `McastBufferSize`, every call returns; the index is
the old one plus the total appended, the pending bytes are the old ones then every `data` in
order, and no byte at or past the old index plus the total is written. -/
theorem sendAll_of_fit (s : McastSocket) (datas : List (List UInt8))
    (hfit : s.nextSendValidIndex + datas.flatten.length < McastBufferSize) :
    (sendAll s datas).2 = .ok () ∧
    (sendAll s datas).1.nextSendValidIndex =
      s.nextSendValidIndex + datas.flatten.length ∧
    (sendAll s datas).1.pending = s.pending ++ datas.flatten ∧
    ∀ i, s.nextSendValidIndex + datas.flatten.length ≤ i →
      (sendAll s datas).1.outbound i = s.outbound i := by
  induction datas generalizing s with
  | nil => simp [sendAll]
  | cons data rest ih =>
    simp only [List.flatten_cons, List.length_append] at hfit ⊢
    have hlt : s.nextSendValidIndex + data.length < 2 ^ 64 := by
      unfold McastBufferSize at hfit; omega
    have hidx : (s.send data).1.nextSendValidIndex = s.nextSendValidIndex + data.length := by
      rw [send_nextSendValidIndex, Nat.mod_eq_of_lt hlt]
    have hok := send_result_ok (by rw [Nat.mod_eq_of_lt hlt]; omega)
    obtain ⟨h1, h2, h3, h4⟩ := ih (s.send data).1 (by omega)
    rw [sendAll_cons_of_ok _ hok]
    refine ⟨h1, by rw [h2, hidx]; omega, ?_, fun i hi => ?_⟩
    · rw [h3, ← List.append_assoc, pending, hidx, send_outbound, prefixBytes_memcpy, pending]
    · rw [h4 i (by rw [hidx]; omega), send_outbound, memcpy_of_le (by omega)]

/-- When `recv_callback_` leaves the outbound side alone, `sendAndRecv()` passes exactly the
pending bytes to `::send`, if there are any, and then resets the index. -/
theorem sendAndRecv_sends_pending (s : McastSocket) (incoming : List UInt8)
    (recvCallback : McastSocket → McastSocket)
    (hcb : ∀ t, (recvCallback t).outbound = t.outbound ∧
      (recvCallback t).nextSendValidIndex = t.nextSendValidIndex) :
    (s.sendAndRecv incoming recvCallback).2.1 =
      (if s.pending = [] then none else some s.pending) ∧
    (s.sendAndRecv incoming recvCallback).1.nextSendValidIndex = 0 := by
  have hpending : s.pending = [] ↔ ¬0 < s.nextSendValidIndex := by
    simp [pending, prefixBytes, Nat.pos_iff_ne_zero]
  have hout := fun t => (hcb t).1
  have hidx := fun t => (hcb t).2
  refine ⟨?_, rfl⟩
  simp only [sendAndRecv, hpending, ite_not]
  split <;> simp only [pending, hout, hidx]

/-- The receive side stays inside `inbound_data_`: `recv` is asked for at most
`McastBufferSize - next_rcv_valid_index_` bytes, so while the index is within the buffer, and
`recv_callback_` keeps it there and writes nothing past the vector, `sendAndRecv()` writes
nothing past `inbound_data_` and leaves the index within the buffer. -/
theorem sendAndRecv_recv_in_bounds (s : McastSocket) (incoming : List UInt8)
    (recvCallback : McastSocket → McastSocket)
    (hcb : ∀ t : McastSocket, t.nextRcvValidIndex ≤ McastBufferSize →
      (recvCallback t).nextRcvValidIndex ≤ McastBufferSize ∧
      ∀ i, McastBufferSize ≤ i → (recvCallback t).inbound i = t.inbound i)
    (h : s.nextRcvValidIndex ≤ McastBufferSize) :
    (s.sendAndRecv incoming recvCallback).1.nextRcvValidIndex ≤ McastBufferSize ∧
    ∀ i, McastBufferSize ≤ i → (s.sendAndRecv incoming recvCallback).1.inbound i = s.inbound i := by
  have hM : McastBufferSize < 2 ^ 64 := by decide
  have hask : (McastBufferSize + 2 ^ 64 - s.nextRcvValidIndex) % 2 ^ 64 =
      McastBufferSize - s.nextRcvValidIndex := by
    rw [show McastBufferSize + 2 ^ 64 - s.nextRcvValidIndex =
      McastBufferSize - s.nextRcvValidIndex + 2 ^ 64 by omega, Nat.add_mod_right,
      Nat.mod_eq_of_lt (by omega)]
  have hlen : (incoming.take (McastBufferSize - s.nextRcvValidIndex)).length ≤
      McastBufferSize - s.nextRcvValidIndex := List.length_take_le _ _
  simp only [sendAndRecv, hask]
  split
  · have hfit : s.nextRcvValidIndex +
        (incoming.take (McastBufferSize - s.nextRcvValidIndex)).length < 2 ^ 64 := by omega
    refine ⟨(hcb _ ?_).1, fun i hi => ((hcb _ ?_).2 i hi).trans (memcpy_of_le (by omega))⟩ <;>
      dsimp only <;> rw [Nat.mod_eq_of_lt hfit] <;> omega
  · exact ⟨h, fun _ _ => rfl⟩

theorem sendAndRecv_recv_in_bounds_fresh :
    (∀ t : McastSocket, t.nextRcvValidIndex ≤ McastBufferSize →
      (id t : McastSocket).nextRcvValidIndex ≤ McastBufferSize ∧
      ∀ i, McastBufferSize ≤ i → (id t : McastSocket).inbound i = t.inbound i) ∧
    (new (fun _ => 0) (fun _ => 0)).nextRcvValidIndex ≤ McastBufferSize ∧
    ((new (fun _ => 0) (fun _ => 0)).sendAndRecv [1, 2, 3] id).1.nextRcvValidIndex ≤
      McastBufferSize ∧
    ∀ i, McastBufferSize ≤ i → ((new (fun _ => 0) (fun _ => 0)).sendAndRecv [1, 2, 3] id).1.inbound i =
      (new (fun _ => 0) (fun _ => 0)).inbound i :=
  have hcb : ∀ t : McastSocket, t.nextRcvValidIndex ≤ McastBufferSize →
      (id t : McastSocket).nextRcvValidIndex ≤ McastBufferSize ∧
      ∀ i, McastBufferSize ≤ i → (id t : McastSocket).inbound i = t.inbound i :=
    fun _ ht => ⟨ht, fun _ _ => rfl⟩
  have h : (new (fun _ => 0) (fun _ => 0)).nextRcvValidIndex ≤ McastBufferSize := Nat.zero_le _
  ⟨hcb, h, sendAndRecv_recv_in_bounds _ _ id hcb h⟩

/-- Every run of `send` calls whose bytes fit below `McastBufferSize` returns; it appends
every `data` in order after the pending bytes, writes nothing past the outbound vector, and
the next `sendAndRecv()` (with a `recv_callback_` that leaves the outbound side alone)
passes exactly the pending bytes to `::send` and resets the index. -/
theorem sendAll_then_sendAndRecv (s : McastSocket) (datas : List (List UInt8))
    (incoming : List UInt8) (recvCallback : McastSocket → McastSocket)
    (hcb : ∀ t, (recvCallback t).outbound = t.outbound ∧
      (recvCallback t).nextSendValidIndex = t.nextSendValidIndex)
    (hfit : s.nextSendValidIndex + datas.flatten.length < McastBufferSize) :
    (sendAll s datas).2 = .ok () ∧
    (sendAll s datas).1.nextSendValidIndex =
      s.nextSendValidIndex + datas.flatten.length ∧
    (sendAll s datas).1.pending = s.pending ++ datas.flatten ∧
    (∀ i, McastBufferSize ≤ i → (sendAll s datas).1.outbound i = s.outbound i) ∧
    ((sendAll s datas).1.sendAndRecv incoming recvCallback).2.1 =
      (if s.pending ++ datas.flatten = [] then none else some (s.pending ++ datas.flatten)) ∧
    ((sendAll s datas).1.sendAndRecv incoming recvCallback).1.nextSendValidIndex = 0 := by
  obtain ⟨hok, hidx, hpend, hframe⟩ := sendAll_of_fit s datas hfit
  obtain ⟨hsent, hreset⟩ := sendAndRecv_sends_pending (sendAll s datas).1 incoming recvCallback hcb
  exact ⟨hok, hidx, hpend, fun i hi => hframe i (by omega), hpend ▸ hsent, hreset⟩

theorem sendAll_then_sendAndRecv_fresh :
    (∀ t, (id t : McastSocket).outbound = t.outbound ∧
      (id t : McastSocket).nextSendValidIndex = t.nextSendValidIndex) ∧
    (new (fun _ => 0) (fun _ => 0)).nextSendValidIndex +
      [[1, 2], [3]].flatten.length < McastBufferSize ∧
    (sendAll (new (fun _ => 0) (fun _ => 0)) [[1, 2], [3]]).2 = .ok () ∧
    (sendAll (new (fun _ => 0) (fun _ => 0)) [[1, 2], [3]]).1.nextSendValidIndex =
      (new (fun _ => 0) (fun _ => 0)).nextSendValidIndex + [[1, 2], [3]].flatten.length ∧
    (sendAll (new (fun _ => 0) (fun _ => 0)) [[1, 2], [3]]).1.pending =
      (new (fun _ => 0) (fun _ => 0)).pending ++ [[(1 : UInt8), 2], [3]].flatten ∧
    (∀ i, McastBufferSize ≤ i → (sendAll (new (fun _ => 0) (fun _ => 0)) [[1, 2], [3]]).1.outbound i =
      (new (fun _ => 0) (fun _ => 0)).outbound i) ∧
    ((sendAll (new (fun _ => 0) (fun _ => 0)) [[1, 2], [3]]).1.sendAndRecv [] id).2.1 =
      (if (new (fun _ => 0) (fun _ => 0)).pending ++ [[(1 : UInt8), 2], [3]].flatten = [] then none
        else some ((new (fun _ => 0) (fun _ => 0)).pending ++ [[(1 : UInt8), 2], [3]].flatten)) ∧
    ((sendAll (new (fun _ => 0) (fun _ => 0)) [[1, 2], [3]]).1.sendAndRecv [] id).1.nextSendValidIndex
      = 0 :=
  have hcb : ∀ t, (id t : McastSocket).outbound = t.outbound ∧
      (id t : McastSocket).nextSendValidIndex = t.nextSendValidIndex := fun _ => ⟨rfl, rfl⟩
  have hfit : (new (fun _ => 0) (fun _ => 0)).nextSendValidIndex +
      [[(1 : UInt8), 2], [3]].flatten.length < McastBufferSize := by simp [new, McastBufferSize]
  ⟨hcb, hfit, sendAll_then_sendAndRecv _ _ [] id hcb hfit⟩

/-! ## Where `send` departs from "exit only past the capacity, writing nothing outside" -/

/-- On a fresh socket: a single `send` of exactly `McastBufferSize` bytes exits although the
total does not exceed the capacity, and one byte more is copied past the end of
`outbound_data_` before the `ASSERT` exits. -/
theorem send_exits_at_capacity :
    ((new (fun _ => 0) (fun _ => 0)).send (List.replicate McastBufferSize 0)).2 =
      .error "Mcast socket buffer filled up and sendAndRecv() not called." ∧
    ((new (fun _ => 0) (fun _ => 0)).send (List.replicate (McastBufferSize + 1) 1)).1.outbound
      McastBufferSize ≠ (new (fun _ => 0) (fun _ => 0)).outbound McastBufferSize := by
  -- the lists are never unfolded: only their lengths are used
  have hpast : McastBufferSize < (List.replicate (McastBufferSize + 1) (1 : UInt8)).length := by
    rw [List.length_replicate]; exact Nat.lt_succ_self _
  have hwrite := send_outbound_add (new (fun _ => 0) (fun _ => 0)) hpast
  rw [List.getElem_replicate, show (new (fun _ => 0) (fun _ => 0)).nextSendValidIndex +
    McastBufferSize = McastBufferSize from Nat.zero_add _] at hwrite
  exact ⟨send_result_error (by rw [List.length_replicate]; simp [new, McastBufferSize]),
    by rw [hwrite]; simp [new]⟩

end McastSocket

end LowLatency
