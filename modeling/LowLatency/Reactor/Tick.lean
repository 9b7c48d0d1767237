import LowLatency.Reactor.Poll
set_option autoImplicit false

/-!
# `TCPServer::sendAndRecv`: one reactor tick

    for_each(receive_sockets_, [&recv](auto socket){ recv |= socket->sendAndRecv(); });
    if (recv) recv_finished_callback_();
    for_each(send_sockets_, [](auto socket){ socket->sendAndRecv(); });

The source writes the accumulation as `recv | = ...`; the model reads it as `|=`, the
non-short-circuiting or the surrounding code intends.  `TCPSocket::sendAndRecv` itself is not
part of the sources, so a socket's call is an argument: a function of the state of the world
(socket buffers, kernel) and the socket, returning the new world and whether bytes arrived.
`recv_finished_callback_` is a function of the world.  A tick is observed through the calls
it makes, in order, and the world it leaves.
-/

namespace LowLatency

/-- A call a tick makes: a socket's `sendAndRecv()` with its result, or
`recv_finished_callback_()`. -/
inductive TickCall where
  | sendAndRecv (socket : Nat) (received : Bool)
  | recvFinished
  deriving DecidableEq, Repr

section Tick

variable {σ : Type}

/-- The first `for_each`, with its accumulator `recv`. -/
def recvLoop (sendAndRecv : σ → Nat → σ × Bool) :
    σ → List Nat → Bool → σ × List TickCall × Bool
  | w, [], recv => (w, [], recv)
  | w, socket :: rest, recv =>
    let r := sendAndRecv w socket
    let t := recvLoop sendAndRecv r.1 rest (recv || r.2)
    (t.1, .sendAndRecv socket r.2 :: t.2.1, t.2.2)

/-- The second `for_each`, which drops the results. -/
def sendLoop (sendAndRecv : σ → Nat → σ × Bool) : σ → List Nat → σ × List TickCall
  | w, [] => (w, [])
  | w, socket :: rest =>
    let r := sendAndRecv w socket
    let t := sendLoop sendAndRecv r.1 rest
    (t.1, .sendAndRecv socket r.2 :: t.2)

/-- `TCPServer::sendAndRecv()`: the world after the tick and the calls it made. -/
def TCPServer.sendAndRecv (s : TCPServer) (socketSendAndRecv : σ → Nat → σ × Bool)
    (recvFinishedCallback : σ → σ) (w : σ) : σ × List TickCall :=
  let r := recvLoop socketSendAndRecv w s.receiveSockets false
  let w := if r.2.2 then recvFinishedCallback r.1 else r.1
  let t := sendLoop socketSendAndRecv w s.sendSockets
  (t.1, r.2.1 ++ (if r.2.2 then [.recvFinished] else []) ++ t.2)

/-- The calls of a loop over `sockets` whose results were `results`. -/
def socketCalls (sockets : List Nat) (results : List Bool) : List TickCall :=
  (sockets.zip results).map fun p => .sendAndRecv p.1 p.2

/-- Each socket's `sendAndRecv()` in turn, each on the world the one before left: the world
after the last call and every call's result, in order. -/
def callEach (sendAndRecv : σ → Nat → σ × Bool) : σ → List Nat → σ × List Bool
  | w, [] => (w, [])
  | w, socket :: rest =>
    let r := sendAndRecv w socket
    let t := callEach sendAndRecv r.1 rest
    (t.1, r.2 :: t.2)

variable (f : σ → Nat → σ × Bool)

@[simp] theorem length_callEach (w : σ) (sockets : List Nat) :
    (callEach f w sockets).2.length = sockets.length := by
  induction sockets generalizing w with
  | nil => rfl
  | cons x xs ih => simp [callEach, ih]

/-- The first loop calls every socket once, in order, and `recv` ends as the or of its
start value and every result: no call is skipped after one returns `true`. -/
theorem recvLoop_eq (w : σ) (sockets : List Nat) (recv : Bool) :
    recvLoop f w sockets recv = ((callEach f w sockets).1,
      socketCalls sockets (callEach f w sockets).2, recv || (callEach f w sockets).2.any id) := by
  induction sockets generalizing w recv with
  | nil => simp [recvLoop, callEach, socketCalls]
  | cons x xs ih =>
    simp only [recvLoop, callEach, ih, socketCalls, List.zip_cons_cons, List.map_cons,
      List.any_cons, id, Bool.or_assoc]

/-- The second loop calls every socket once, in order. -/
theorem sendLoop_eq (w : σ) (sockets : List Nat) :
    sendLoop f w sockets =
      ((callEach f w sockets).1, socketCalls sockets (callEach f w sockets).2) := by
  induction sockets generalizing w with
  | nil => rfl
  | cons x xs ih => simp only [sendLoop, callEach, ih, socketCalls, List.zip_cons_cons, List.map_cons]

/-- For every pair of interest lists, every socket behaviour and every callback, a tick calls
`sendAndRecv()` once on each member of `receive_sockets_` in order, each on the world the
call before left, then `recv_finished_callback_()` exactly once if one of those calls received
bytes and not at all otherwise, then `sendAndRecv()` once on each member of `send_sockets_` in
order; what the second loop receives does not reach the callback, and the tick leaves the world
the last call left. -/
theorem sendAndRecv_tick_calls (s : TCPServer) (recvFinishedCallback : σ → σ) (w : σ) :
    let recv := callEach f w s.receiveSockets
    let send := callEach f (if recv.2.any id then recvFinishedCallback recv.1 else recv.1)
      s.sendSockets
    recv.2.length = s.receiveSockets.length ∧ send.2.length = s.sendSockets.length ∧
    s.sendAndRecv f recvFinishedCallback w =
      (send.1, socketCalls s.receiveSockets recv.2 ++
        (if recv.2.any id then [.recvFinished] else []) ++ socketCalls s.sendSockets send.2) := by
  simp only [TCPServer.sendAndRecv, recvLoop_eq, sendLoop_eq, length_callEach, Bool.false_or,
    and_self]

/-- Whether a call is `socket->sendAndRecv()` on socket `x`. -/
def TickCall.isOn (x : Nat) : TickCall → Bool
  | .sendAndRecv socket _ => socket == x
  | .recvFinished => false

/-- How many times a list of calls calls `sendAndRecv()` on socket `x`. -/
def callsOn (x : Nat) (calls : List TickCall) : Nat :=
  calls.countP (TickCall.isOn x)

theorem callsOn_recvLoop (x : Nat) (w : σ) (sockets : List Nat) (recv : Bool) :
    callsOn x (recvLoop f w sockets recv).2.1 = sockets.count x := by
  induction sockets generalizing w recv with
  | nil => rfl
  | cons y ys ih =>
    simp only [callsOn, recvLoop, List.countP_cons, List.count_cons, TickCall.isOn] at ih ⊢
    rw [ih]

theorem callsOn_sendLoop (x : Nat) (w : σ) (sockets : List Nat) :
    callsOn x (sendLoop f w sockets).2 = sockets.count x := by
  induction sockets generalizing w with
  | nil => rfl
  | cons y ys ih =>
    simp only [callsOn, sendLoop, List.countP_cons, List.count_cons, TickCall.isOn] at ih ⊢
    rw [ih]

/-- Whatever the sockets answer, a tick calls `sendAndRecv()` on `x` once for each time `x`
stands in `receive_sockets_` and once for each time it stands in `send_sockets_`. -/
theorem callsOn_sendAndRecv (s : TCPServer) (recvFinishedCallback : σ → σ) (w : σ) (x : Nat) :
    callsOn x (s.sendAndRecv f recvFinishedCallback w).2 =
      s.receiveSockets.count x + s.sendSockets.count x := by
  have hcb : callsOn x (if (recvLoop f w s.receiveSockets false).2.2 then [.recvFinished]
      else []) = 0 := by
    split <;> rfl
  simp only [TCPServer.sendAndRecv]
  rw [callsOn, List.countP_append, List.countP_append, ← callsOn, ← callsOn, ← callsOn, hcb,
    callsOn_recvLoop, callsOn_sendLoop, Nat.add_zero]

end Tick

/-! ## Ticks of a reachable server -/

/-- In every run of the reactor and for every socket behaviour and callback, one
`TCPServer::sendAndRecv()` calls `sendAndRecv()` on each socket exactly once per interest
list it is in, since `find` keeps both lists duplicate-free: never on the listener, and at
least once on every connection the server has accepted. -/
theorem TCPServer.tick_services_each_socket_once {σ : Type} (f : σ → Nat → σ × Bool)
    {s : TCPServer} (h : TCPServer.Reachable s) (recvFinishedCallback : σ → σ) (w : σ) :
    (∀ x, callsOn x (s.sendAndRecv f recvFinishedCallback w).2 =
      (if x ∈ s.receiveSockets then 1 else 0) + (if x ∈ s.sendSockets then 1 else 0)) ∧
    callsOn listenerSocket (s.sendAndRecv f recvFinishedCallback w).2 = 0 ∧
    ∀ x, listenerSocket < x → x < s.heap →
      1 ≤ callsOn x (s.sendAndRecv f recvFinishedCallback w).2 := by
  have hinv := TCPServer.reachable_inv h
  have hx : ∀ x, callsOn x (s.sendAndRecv f recvFinishedCallback w).2 =
      (if x ∈ s.receiveSockets then 1 else 0) + (if x ∈ s.sendSockets then 1 else 0) :=
    fun x => by rw [callsOn_sendAndRecv, List.count_eq_of_nodup hinv.receive_nodup,
      List.count_eq_of_nodup hinv.send_nodup]
  refine ⟨hx, ?_, fun x h1 h2 => ?_⟩
  · rw [hx, if_neg hinv.listener_not_receive, if_neg (TCPServer.listener_not_send h)]
  · rw [hx, if_pos (hinv.accepted_mem x h1 h2)]
    omega

/-- Two connections accepted, then a `poll()` whose one event says socket 1 is writable: the
tick calls socket 1 twice, socket 2 once and the listener never. -/
theorem TCPServer.tick_services_each_socket_once_writable :
    TCPServer.Reachable ⟨3, 4, [(4, 0), (5, 1), (6, 2)], [1, 2], [1], 3⟩ ∧
    ((∀ x, callsOn x (TCPServer.sendAndRecv ⟨3, 4, [(4, 0), (5, 1), (6, 2)], [1, 2], [1], 3⟩
        (fun (w : Unit) _ => (w, true)) id ()).2 =
      (if x ∈ [1, 2] then 1 else 0) + (if x ∈ [1] then 1 else 0)) ∧
    callsOn listenerSocket (TCPServer.sendAndRecv ⟨3, 4, [(4, 0), (5, 1), (6, 2)], [1, 2], [1], 3⟩
        (fun (w : Unit) _ => (w, true)) id ()).2 = 0 ∧
    ∀ x, listenerSocket < x → x < 3 → 1 ≤ callsOn x (TCPServer.sendAndRecv
        ⟨3, 4, [(4, 0), (5, 1), (6, 2)], [1, 2], [1], 3⟩ (fun (w : Unit) _ => (w, true)) id ()).2) :=
  have hp : TCPServer.poll ⟨3, 4, [(4, 0), (5, 1), (6, 2)], [1, 2], [], 3⟩
      [⟨1, .EVFILT_WRITE, false⟩] [] = .ok ⟨3, 4, [(4, 0), (5, 1), (6, 2)], [1, 2], [1], 3⟩ := rfl
  have h : TCPServer.Reachable ⟨3, 4, [(4, 0), (5, 1), (6, 2)], [1, 2], [1], 3⟩ :=
    .poll _ _ TCPServer.reachable_two_accepted (by simp [ListenerReadOnly, listenerSocket]) hp
  ⟨h, TCPServer.tick_services_each_socket_once _ h id ()⟩

/-- A server with `send_sockets_ = [1]` and an empty `receive_sockets_`, whose socket
receives bytes in its call: the tick makes that receiving call and never calls
`recv_finished_callback_`. -/
theorem sendAndRecv_send_socket_receives :
    TickCall.sendAndRecv 1 true ∈
      (TCPServer.sendAndRecv ⟨3, 4, [(4, 0)], [], [1], 2⟩ (fun (w : Unit) _ => (w, true)) id ()).2 ∧
    TickCall.recvFinished ∉
      (TCPServer.sendAndRecv ⟨3, 4, [(4, 0)], [], [1], 2⟩ (fun (w : Unit) _ => (w, true)) id ()).2 := by
  decide

end LowLatency
