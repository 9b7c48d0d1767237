import LowLatency.Basic
import Mathlib.Data.List.Nodup
import Mathlib.Data.List.Perm.Subperm
set_option autoImplicit false

/-!
# `TCPServer::listen` and `TCPServer::poll`

The server keeps two interest lists of socket pointers, `receive_sockets_` and
`send_sockets_`, and a kqueue.  `listen()` creates the kqueue, connects the listener socket
and registers it for `EVFILT_READ`.  `poll()` asks the kqueue for at most
`1 + |send_sockets_| + |receive_sockets_|` events into `events_[1024]`, walks them (a read
event on the listener only records that connections are pending; other read events and
`EV_ERROR` add the socket to `receive_sockets_`, write events add it to `send_sockets_`,
each insertion guarded by `find`), and then accepts connections until `accept()` returns -1,
registering each new socket for `EVFILT_READ` and adding it to `receive_sockets_`.

A socket is its address; `&listener_socket_` is `listenerSocket`, and `new TCPSocket`
returns the next address of a bump allocator (`heap`), so every socket it returns is new.
The kernel is an argument: the result of each system call, the event batch `kevent` returns,
and the `accept()` results up to the first -1.  The kqueue's read registrations are part of
the state.  The `logger_.log` calls only report and are not modelled.
-/

namespace LowLatency

/-- `&listener_socket_`. -/
def listenerSocket : Nat := 0

/-- The length of `events_`. -/
def eventsLength : Nat := 1024

/-- The filter of a returned `struct kevent`. -/
inductive Filter where
  | EVFILT_READ
  | EVFILT_WRITE
  | other
  deriving DecidableEq, Repr

/-- A `struct kevent` the kernel returns: the socket pointer in `udata`, the filter, and
whether `flags & EV_ERROR` is set. -/
structure KEvent where
  udata : Nat
  filter : Filter
  error : Bool
  deriving DecidableEq, Repr

/-- A read event on the listener: it only sets `have_new_connection`. -/
def KEvent.onListener (e : KEvent) : Prop :=
  e.filter = .EVFILT_READ ∧ e.udata = listenerSocket

instance (e : KEvent) : Decidable e.onListener := inferInstanceAs (Decidable (_ ∧ _))

/-- A non-listener event that adds its socket to `receive_sockets_`: a read event or an error. -/
def KEvent.addsReceive (e : KEvent) : Prop :=
  ¬e.onListener ∧ (e.filter = .EVFILT_READ ∨ e.error = true)

instance (e : KEvent) : Decidable e.addsReceive := inferInstanceAs (Decidable (_ ∧ _))

/-- What the kernel answers for one connection of the accept loop: the descriptor `accept()`
returns, whether `setNonBlocking(fd) && disableNagle(fd)` holds, what the registering `kevent`
returns, and `strerror(errno)`. -/
structure Accepted where
  fd : Int
  configured : Bool
  keventResult : Int
  errno : String
  deriving DecidableEq, Repr

/-- `Common::TCPServer`: the kqueue, the listener's descriptor, the kqueue's `EVFILT_READ`
registrations (descriptor and `udata`), the interest lists, and the next address `new`
returns. -/
structure TCPServer where
  kqueueFd : Int
  listenerFd : Int
  registered : List (Int × Nat)
  receiveSockets : List Nat
  sendSockets : List Nat
  heap : Nat
  deriving DecidableEq, Repr

/-- `if (find(v.begin(), v.end(), x) == v.end()) v.push_back(x);` -/
def pushUnique (v : List Nat) (x : Nat) : List Nat :=
  if x ∈ v then v else v ++ [x]

@[simp] theorem mem_pushUnique {v : List Nat} {x y : Nat} :
    y ∈ pushUnique v x ↔ y ∈ v ∨ y = x := by
  unfold pushUnique
  split <;> simp_all [or_iff_left_of_imp]

theorem nodup_pushUnique {v : List Nat} (h : v.Nodup) (x : Nat) : (pushUnique v x).Nodup := by
  unfold pushUnique
  split
  · exact h
  · exact List.nodup_append.mpr ⟨h, List.nodup_singleton x, by simpa⟩

theorem prefix_pushUnique (v : List Nat) (x : Nat) : v <+: pushUnique v x := by
  unfold pushUnique
  split
  · exact List.prefix_refl v
  · exact List.prefix_append v [x]

@[simp] theorem pushUnique_pushUnique (v : List Nat) (x : Nat) :
    pushUnique (pushUnique v x) x = pushUnique v x := by
  exact if_pos (mem_pushUnique.mpr (.inr rfl))

theorem pushUnique_of_not_mem {v : List Nat} {x : Nat} (h : x ∉ v) : pushUnique v x = v ++ [x] :=
  if_neg h

/-- `w` is `v` with elements appended, and is duplicate-free if `v` is: what every insertion
site of the server does to an interest list. -/
def Grows (v w : List Nat) : Prop :=
  v <+: w ∧ (v.Nodup → w.Nodup)

theorem Grows.refl (v : List Nat) : Grows v v :=
  ⟨List.prefix_refl v, id⟩

theorem Grows.trans {u v w : List Nat} (h₁ : Grows u v) (h₂ : Grows v w) : Grows u w :=
  ⟨h₁.1.trans h₂.1, h₂.2 ∘ h₁.2⟩

theorem grows_pushUnique (v : List Nat) (x : Nat) : Grows v (pushUnique v x) :=
  ⟨prefix_pushUnique v x, (nodup_pushUnique · x)⟩

theorem grows_ite (c : Prop) [Decidable c] (v : List Nat) (x : Nat) :
    Grows v (if c then pushUnique v x else v) := by
  split
  · exact grows_pushUnique v x
  · exact Grows.refl v

theorem mem_ite_pushUnique {c : Prop} [Decidable c] {v : List Nat} {x y : Nat} :
    y ∈ (if c then pushUnique v x else v) ↔ y ∈ v ∨ (y = x ∧ c) := by
  split <;> simp [*]

namespace TCPServer

/-- `addToEpollList(socket)`: the registration `kevent` makes unless it returns -1, and the
result `kevent(...) != 1`. -/
def addToEpollList (s : TCPServer) (fd : Int) (socket : Nat) (keventResult : Int) :
    TCPServer × Bool :=
  ({ s with registered := if keventResult = -1 then s.registered else s.registered ++ [(fd, socket)] },
    keventResult ≠ 1)

/-- `TCPServer(logger)` then `listen(iface, port)`, given what `kqueue()`, the listener's
`connect` and the registering `kevent` return, and `strerror(errno)`. -/
def listen (iface : String) (port : Int) (kq connectResult keventResult : Int) (errno : String) :
    Except String TCPServer := do
  ASSERT (kq ≥ 0) ("epoll_create() failed error:" ++ errno)
  ASSERT (connectResult ≥ 0) ("Listener socket failed to connect. iface:" ++ iface ++ " port:" ++
    toString port ++ " error:" ++ errno)
  let r := addToEpollList
    ⟨kq, connectResult, [], [], [], listenerSocket + 1⟩ connectResult listenerSocket keventResult
  ASSERT r.2 ("epoll_ctl() failed. error:" ++ errno)
  .ok r.1

/-- `max_events`, the event count `poll()` passes to `kevent`. -/
def maxEvents (s : TCPServer) : Nat :=
  1 + s.sendSockets.length + s.receiveSockets.length

/-- One pass of the event loop's body, with `have_new_connection`. -/
def pollEvent (s : TCPServer) (haveNewConnection : Bool) (e : KEvent) : TCPServer × Bool :=
  if e.filter = .EVFILT_READ ∧ e.udata = listenerSocket then (s, true)
  else
    let s := if e.filter = .EVFILT_READ then
      { s with receiveSockets := pushUnique s.receiveSockets e.udata } else s
    let s := if e.filter = .EVFILT_WRITE then
      { s with sendSockets := pushUnique s.sendSockets e.udata } else s
    let s := if e.error then { s with receiveSockets := pushUnique s.receiveSockets e.udata } else s
    (s, haveNewConnection)

/-- `for (int i = 0; i < n; ++i)` over the events `kevent` returned. -/
def pollEvents (s : TCPServer) (haveNewConnection : Bool) : List KEvent → TCPServer × Bool
  | [] => (s, haveNewConnection)
  | e :: rest =>
    let r := s.pollEvent haveNewConnection e
    pollEvents r.1 r.2 rest

/-- `while (have_new_connection)`: accept until `accept()` returns -1. -/
def acceptLoop (s : TCPServer) : List Accepted → Except String TCPServer
  | [] => .ok s
  | a :: rest =>
    if a.fd = -1 then .ok s
    else do
      ASSERT a.configured ("Failed to set non-blocking or no-delay on socket:" ++ toString a.fd)
      ASSERT (a.keventResult ≠ -1) ("Unable to add socket. error:" ++ a.errno)
      acceptLoop
        { s with registered := s.registered ++ [(a.fd, s.heap)],
                 receiveSockets := pushUnique s.receiveSockets s.heap,
                 heap := s.heap + 1 } rest

/-- `poll()`, given the events `kevent` returns and the accept results. -/
def poll (s : TCPServer) (events : List KEvent) (accepts : List Accepted) :
    Except String TCPServer :=
  let r := s.pollEvents false events
  if r.2 then r.1.acceptLoop accepts else .ok r.1

/-! ## The event loop -/

section EventLoop

variable (s : TCPServer) (b : Bool) (e : KEvent)

theorem pollEvent_receiveSockets :
    (s.pollEvent b e).1.receiveSockets =
      if e.addsReceive then pushUnique s.receiveSockets e.udata else s.receiveSockets := by
  unfold pollEvent KEvent.addsReceive KEvent.onListener
  by_cases hl : e.filter = .EVFILT_READ ∧ e.udata = listenerSocket
  · simp [hl]
  · by_cases hr : e.filter = .EVFILT_READ <;> by_cases he : e.error = true <;>
      by_cases hw : e.filter = .EVFILT_WRITE <;> simp_all

theorem pollEvent_sendSockets :
    (s.pollEvent b e).1.sendSockets =
      if e.filter = .EVFILT_WRITE then pushUnique s.sendSockets e.udata else s.sendSockets := by
  unfold pollEvent
  by_cases hl : e.filter = .EVFILT_READ ∧ e.udata = listenerSocket
  · simp [hl, hl.1]
  · by_cases hr : e.filter = .EVFILT_READ <;> by_cases he : e.error = true <;>
      by_cases hw : e.filter = .EVFILT_WRITE <;> simp_all

theorem pollEvent_heap : (s.pollEvent b e).1.heap = s.heap := by
  unfold pollEvent; split_ifs <;> rfl

theorem pollEvent_registered : (s.pollEvent b e).1.registered = s.registered := by
  unfold pollEvent; split_ifs <;> rfl

end EventLoop

variable {s s' : TCPServer}

/-- The event loop leaves the kqueue and the allocator alone. -/
theorem pollEvents_frame (b : Bool) (es : List KEvent) :
    (s.pollEvents b es).1.heap = s.heap ∧ (s.pollEvents b es).1.registered = s.registered := by
  induction es generalizing s b with
  | nil => exact ⟨rfl, rfl⟩
  | cons e es ih =>
    obtain ⟨h1, h2⟩ := ih (s := (s.pollEvent b e).1) (s.pollEvent b e).2
    exact ⟨h1.trans (pollEvent_heap s b e), h2.trans (pollEvent_registered s b e)⟩

/-- The event loop's effect on an interest list `L`, from the effect of one event on it:
the list grows by the sockets of the events that satisfy `P`. -/
theorem pollEvents_interestList (L : TCPServer → List Nat) (P : KEvent → Prop)
    [DecidablePred P]
    (hstep : ∀ s b e, L (s.pollEvent b e).1 = if P e then pushUnique (L s) e.udata else L s)
    (b : Bool) (es : List KEvent) :
    Grows (L s) (L (s.pollEvents b es).1) ∧
    ∀ x, x ∈ L (s.pollEvents b es).1 ↔ x ∈ L s ∨ ∃ e ∈ es, e.udata = x ∧ P e := by
  induction es generalizing s b with
  | nil => simp [pollEvents, Grows.refl]
  | cons e es ih =>
    obtain ⟨hg, hm⟩ := ih (s := (s.pollEvent b e).1) (s.pollEvent b e).2
    rw [hstep] at hg hm
    refine ⟨(grows_ite _ _ _).trans hg, fun x => ?_⟩
    simp only [pollEvents, hm, mem_ite_pushUnique, List.exists_mem_cons_iff, or_assoc,
      @eq_comm _ x]

/-! ## The accept loop -/

/-- One accepted connection: a new socket at the next address, registered for
`EVFILT_READ` and added to `receive_sockets_`. -/
theorem acceptLoop_cons {a : Accepted} {as : List Accepted} (hfd : a.fd ≠ -1)
    (h : s.acceptLoop (a :: as) = .ok s') :
    a.configured = true ∧ a.keventResult ≠ -1 ∧
      { s with registered := s.registered ++ [(a.fd, s.heap)],
               receiveSockets := pushUnique s.receiveSockets s.heap,
               heap := s.heap + 1 }.acceptLoop as = .ok s' := by
  simp only [acceptLoop, hfd, if_false, bind_eq_ok_iff] at h
  obtain ⟨⟨⟩, hc, ⟨⟩, hk, h⟩ := h
  rw [ASSERT_eq_ok_iff] at hc hk
  exact ⟨hc, of_decide_eq_true hk, h⟩

/-- The accept loop only allocates sockets and adds each to `receive_sockets_`. -/
theorem acceptLoop_spec {as : List Accepted} (h : s.acceptLoop as = .ok s') :
    s'.sendSockets = s.sendSockets ∧ s.heap ≤ s'.heap ∧
    Grows s.receiveSockets s'.receiveSockets ∧
    ∀ x, x ∈ s'.receiveSockets ↔ x ∈ s.receiveSockets ∨ (s.heap ≤ x ∧ x < s'.heap) := by
  induction as generalizing s with
  | nil =>
    cases h
    exact ⟨rfl, le_rfl, Grows.refl _, fun x => by simp⟩
  | cons a as ih =>
    by_cases hfd : a.fd = -1
    · simp only [acceptLoop, hfd, if_true, Except.ok.injEq] at h
      subst h
      exact ⟨rfl, le_rfl, Grows.refl _, fun x => by simp⟩
    · obtain ⟨hsend, hheap, hg, hm⟩ := ih (acceptLoop_cons hfd h).2.2
      simp only at hheap hm
      refine ⟨hsend, by omega, (grows_pushUnique _ _).trans hg, fun x => ?_⟩
      rw [hm, mem_pushUnique]
      by_cases hx : x ∈ s.receiveSockets
      · simp [hx]
      · simp [hx]; omega

/-- When every connection is configured and registered, and no pending socket lies at or
past the allocator, the loop appends one new socket per connection. -/
theorem acceptLoop_of_good (as : List Accepted)
    (hgood : ∀ a ∈ as, a.fd ≠ -1 ∧ a.configured = true ∧ a.keventResult ≠ -1)
    (hlt : ∀ x ∈ s.receiveSockets, x < s.heap) :
    ∃ s', s.acceptLoop as = .ok s' ∧
      s'.receiveSockets = s.receiveSockets ++ List.range' s.heap as.length ∧
      s'.sendSockets = s.sendSockets := by
  induction as generalizing s with
  | nil => exact ⟨s, rfl, by simp, rfl⟩
  | cons a as ih =>
    obtain ⟨hfd, hc, hk⟩ := hgood a (List.mem_cons_self a as)
    have hnew : s.heap ∉ s.receiveSockets := fun h => Nat.lt_irrefl _ (hlt _ h)
    obtain ⟨s', hs', hrecv, hsend⟩ := ih
      (s := { s with registered := s.registered ++ [(a.fd, s.heap)],
                     receiveSockets := pushUnique s.receiveSockets s.heap,
                     heap := s.heap + 1 })
      (fun b hb => hgood b (List.mem_cons_of_mem a hb))
      (fun x hx => by
        rcases mem_pushUnique.mp hx with hx | rfl
        · exact Nat.lt_succ_of_lt (hlt x hx)
        · exact Nat.lt_succ_self _)
    refine ⟨s', ?_, ?_, hsend⟩
    · simp only [acceptLoop, hfd, if_false, hc, hk, ASSERT_true, ok_bind, ne_eq,
        not_false_eq_true, decide_True]
      exact hs'
    · rw [hrecv, pushUnique_of_not_mem hnew, List.length_cons, List.range'_succ]
      simp

/-! ## Runs of the reactor -/

/-- The listener is registered for `EVFILT_READ` only, so every event on it is a read event. -/
def ListenerReadOnly (events : List KEvent) : Prop :=
  ∀ e ∈ events, e.udata = listenerSocket → e.filter = .EVFILT_READ

/-- The servers `listen()` and any sequence of `poll()` calls reach.  `sendAndRecv()` writes
none of the server's fields, so it adds no state. -/
inductive Reachable : TCPServer → Prop
  | listen {s : TCPServer} (iface : String) (port kq connectResult keventResult : Int)
      (errno : String) : listen iface port kq connectResult keventResult errno = .ok s →
      Reachable s
  | poll {s s' : TCPServer} (events : List KEvent) (accepts : List Accepted) : Reachable s →
      ListenerReadOnly events → s.poll events accepts = .ok s' → Reachable s'

/-- What every reachable server satisfies. -/
structure Inv (s : TCPServer) : Prop where
  receive_nodup : s.receiveSockets.Nodup
  send_nodup : s.sendSockets.Nodup
  listener_not_receive : listenerSocket ∉ s.receiveSockets
  listener_lt_heap : listenerSocket < s.heap
  accepted_mem : ∀ x, listenerSocket < x → x < s.heap → x ∈ s.receiveSockets

theorem listen_eq_ok {iface : String} {port kq connectResult keventResult : Int}
    {errno : String} (h : listen iface port kq connectResult keventResult errno = .ok s) :
    s.receiveSockets = [] ∧ s.sendSockets = [] ∧ s.heap = listenerSocket + 1 := by
  simp only [listen, bind_eq_ok_iff, ASSERT_eq_ok_iff] at h
  obtain ⟨_, _, _, _, _, _, h⟩ := h
  cases h
  exact ⟨rfl, rfl, rfl⟩

theorem inv_listen {iface : String} {port kq connectResult keventResult : Int} {errno : String}
    (h : listen iface port kq connectResult keventResult errno = .ok s) : Inv s := by
  obtain ⟨hr, hs, hh⟩ := listen_eq_ok h
  exact ⟨hr ▸ List.nodup_nil, hs ▸ List.nodup_nil, by simp [hr], by omega,
    fun x h1 h2 => absurd h2 (by omega)⟩

/-- What one `poll()` does to the interest lists: `receive_sockets_` gains the sockets of the
non-listener read and error events and the sockets accepted during the call (the addresses
`new` returned), `send_sockets_` gains the sockets of the write events, and both only grow. -/
theorem poll_spec {events : List KEvent} {accepts : List Accepted}
    (h : s.poll events accepts = .ok s') :
    Grows s.receiveSockets s'.receiveSockets ∧ Grows s.sendSockets s'.sendSockets ∧
    s.heap ≤ s'.heap ∧
    (∀ x, x ∈ s'.receiveSockets ↔ x ∈ s.receiveSockets ∨
      (∃ e ∈ events, e.udata = x ∧ e.addsReceive) ∨ (s.heap ≤ x ∧ x < s'.heap)) ∧
    (∀ x, x ∈ s'.sendSockets ↔ x ∈ s.sendSockets ∨
      ∃ e ∈ events, e.udata = x ∧ e.filter = .EVFILT_WRITE) := by
  obtain ⟨hheap, -⟩ := pollEvents_frame (s := s) false events
  obtain ⟨hgr, hmr⟩ := pollEvents_interestList (s := s) receiveSockets KEvent.addsReceive
    pollEvent_receiveSockets false events
  obtain ⟨hgs, hms⟩ := pollEvents_interestList (s := s) sendSockets (·.filter = .EVFILT_WRITE)
    pollEvent_sendSockets false events
  simp only [poll] at h
  split at h
  · obtain ⟨hsend, hle, hg, hm⟩ := acceptLoop_spec h
    refine ⟨hgr.trans hg, hsend ▸ hgs, hheap ▸ hle, fun x => ?_, fun x => ?_⟩
    · rw [hm, hmr, hheap, or_assoc]
    · rw [hsend, hms]
  · cases h
    refine ⟨hgr, hgs, hheap.ge, fun x => ?_, hms⟩
    rw [hmr, hheap]
    exact ⟨fun hx => hx.elim .inl (.inr ∘ .inl),
      fun hx => hx.elim .inl (·.elim .inr fun h => absurd h (by omega))⟩

theorem inv_poll {events : List KEvent} {accepts : List Accepted} (hs : Inv s)
    (hl : ListenerReadOnly events) (h : s.poll events accepts = .ok s') : Inv s' := by
  obtain ⟨hgr, hgs, hle, hmr, -⟩ := poll_spec h
  refine ⟨hgr.2 hs.receive_nodup, hgs.2 hs.send_nodup, fun hmem => ?_,
    Nat.lt_of_lt_of_le hs.listener_lt_heap hle, fun x h1 h2 => ?_⟩
  · rcases (hmr _).mp hmem with hmem | ⟨e, he, hu, hn, -⟩ | ⟨h1, -⟩
    · exact hs.listener_not_receive hmem
    · exact hn ⟨hl e he hu, hu⟩
    · exact absurd hs.listener_lt_heap (Nat.not_lt.mpr h1)
  · by_cases hx : x < s.heap
    · exact hgr.1.subset (hs.accepted_mem x h1 hx)
    · exact (hmr x).mpr (.inr (.inr ⟨Nat.le_of_not_lt hx, h2⟩))

theorem reachable_inv (h : Reachable s) : Inv s := by
  induction h with
  | listen _ _ _ _ _ _ h => exact inv_listen h
  | poll _ _ _ hl hpoll ih => exact inv_poll ih hl hpoll

/-- `listen()`, then one `poll()` whose batch is the listener's read event, accepting two
connections (sockets 1 and 2) before `accept()` returns -1. -/
theorem reachable_two_accepted : Reachable ⟨3, 4, [(4, 0), (5, 1), (6, 2)], [1, 2], [], 3⟩ :=
  have hl : Reachable ⟨3, 4, [(4, 0)], [], [], 1⟩ := .listen "" 8080 3 4 0 "" rfl
  have hp : TCPServer.poll ⟨3, 4, [(4, 0)], [], [], 1⟩ [⟨listenerSocket, .EVFILT_READ, false⟩]
      [⟨5, true, 0, ""⟩, ⟨6, true, 0, ""⟩, ⟨-1, false, 0, ""⟩] =
      .ok ⟨3, 4, [(4, 0), (5, 1), (6, 2)], [1, 2], [], 3⟩ := rfl
  .poll _ _ hl (by simp [ListenerReadOnly]) hp

/-- The listener is registered for reads only, so no write event puts it in `send_sockets_`. -/
theorem listener_not_send (h : Reachable s) : listenerSocket ∉ s.sendSockets := by
  induction h with
  | listen _ _ _ _ _ _ h => simp [(listen_eq_ok h).2.1]
  | poll _ _ _ hl hpoll ih =>
    rw [(poll_spec hpoll).2.2.2.2]
    rintro (hmem | ⟨e, he, hu, hw⟩)
    · exact ih hmem
    · simpa [hw] using hl e he hu

/-- Under `ListenerReadOnly`, an event adds its socket to `receive_sockets_` exactly when it is
not the listener's and is a read event or carries `EV_ERROR`. -/
theorem addsReceive_iff {e : KEvent} (hl : e.udata = listenerSocket → e.filter = .EVFILT_READ) :
    e.addsReceive ↔ e.udata ≠ listenerSocket ∧ (e.filter = .EVFILT_READ ∨ e.error = true) :=
  ⟨fun ⟨hn, hr⟩ => ⟨fun hu => hn ⟨hl hu, hu⟩, hr⟩, fun ⟨hu, hr⟩ => ⟨fun h => hu h.2, hr⟩⟩

/-- For every run of the reactor and every `poll()` over a batch in which the listener only
has read events: `receive_sockets_` becomes, as a set, its old members, the non-listener
sockets with a read event or `EV_ERROR`, and the connections accepted in the call (the
addresses `new` returned); `send_sockets_` becomes its old members and the sockets with a
write event; both stay duplicate-free, the listener never enters `receive_sockets_`, and
both lists keep their old members in place. -/
theorem poll_grows_interest_lists {events : List KEvent} {accepts : List Accepted}
    (h : Reachable s) (hl : ListenerReadOnly events) (hpoll : s.poll events accepts = .ok s') :
    (∀ x, x ∈ s'.receiveSockets ↔ x ∈ s.receiveSockets ∨
      (x ≠ listenerSocket ∧
        ∃ e ∈ events, e.udata = x ∧ (e.filter = .EVFILT_READ ∨ e.error = true)) ∨
      (s.heap ≤ x ∧ x < s'.heap)) ∧
    (∀ x, x ∈ s'.sendSockets ↔ x ∈ s.sendSockets ∨
      ∃ e ∈ events, e.udata = x ∧ e.filter = .EVFILT_WRITE) ∧
    s'.receiveSockets.Nodup ∧ s'.sendSockets.Nodup ∧ listenerSocket ∉ s'.receiveSockets ∧
    s.receiveSockets <+: s'.receiveSockets ∧ s.sendSockets <+: s'.sendSockets := by
  obtain ⟨hgr, hgs, -, hmr, hms⟩ := poll_spec hpoll
  have hinv := inv_poll (reachable_inv h) hl hpoll
  have hevents : ∀ x, (∃ e ∈ events, e.udata = x ∧ e.addsReceive) ↔ (x ≠ listenerSocket ∧
      ∃ e ∈ events, e.udata = x ∧ (e.filter = .EVFILT_READ ∨ e.error = true)) := fun x =>
    ⟨fun ⟨e, he, hu, ha⟩ => hu ▸ ⟨((addsReceive_iff (hl e he)).mp ha).1, e, he, rfl,
        ((addsReceive_iff (hl e he)).mp ha).2⟩,
      fun ⟨hx, e, he, hu, hr⟩ => ⟨e, he, hu, (addsReceive_iff (hl e he)).mpr ⟨hu ▸ hx, hr⟩⟩⟩
  exact ⟨fun x => (hmr x).trans (by rw [hevents]), hms, hinv.receive_nodup, hinv.send_nodup,
    hinv.listener_not_receive, hgr.1, hgs.1⟩

/-- A second `poll()` on that server, with a batch of two events (`max_events` is 3): a read
with `EV_ERROR` on socket 1 and a pending connection on the listener; socket 3 is accepted.
Socket 1, added by both branches, stays in `receive_sockets_` once. -/
theorem poll_grows_interest_lists_second_poll :
    Reachable ⟨3, 4, [(4, 0), (5, 1), (6, 2)], [1, 2], [], 3⟩ ∧
    ListenerReadOnly [⟨1, .EVFILT_READ, true⟩, ⟨listenerSocket, .EVFILT_READ, false⟩] ∧
    TCPServer.poll ⟨3, 4, [(4, 0), (5, 1), (6, 2)], [1, 2], [], 3⟩
      [⟨1, .EVFILT_READ, true⟩, ⟨listenerSocket, .EVFILT_READ, false⟩]
      [⟨7, true, 0, ""⟩, ⟨-1, false, 0, ""⟩] =
      .ok ⟨3, 4, [(4, 0), (5, 1), (6, 2), (7, 3)], [1, 2, 3], [], 4⟩ ∧
    ((∀ x, x ∈ [1, 2, 3] ↔ x ∈ [1, 2] ∨
      (x ≠ listenerSocket ∧ ∃ e ∈ [(⟨1, .EVFILT_READ, true⟩ : KEvent),
        ⟨listenerSocket, .EVFILT_READ, false⟩], e.udata = x ∧
          (e.filter = .EVFILT_READ ∨ e.error = true)) ∨ (3 ≤ x ∧ x < 4)) ∧
    (∀ x, x ∈ ([] : List Nat) ↔ x ∈ ([] : List Nat) ∨
      ∃ e ∈ [(⟨1, .EVFILT_READ, true⟩ : KEvent), ⟨listenerSocket, .EVFILT_READ, false⟩],
        e.udata = x ∧ e.filter = .EVFILT_WRITE) ∧
    [1, 2, 3].Nodup ∧ ([] : List Nat).Nodup ∧ listenerSocket ∉ [1, 2, 3] ∧
    [1, 2] <+: [1, 2, 3] ∧ ([] : List Nat) <+: []) := by
  have hl : ListenerReadOnly [⟨1, .EVFILT_READ, true⟩, ⟨listenerSocket, .EVFILT_READ, false⟩] := by
    simp [ListenerReadOnly]
  have hp : TCPServer.poll ⟨3, 4, [(4, 0), (5, 1), (6, 2)], [1, 2], [], 3⟩
      [⟨1, .EVFILT_READ, true⟩, ⟨listenerSocket, .EVFILT_READ, false⟩]
      [⟨7, true, 0, ""⟩, ⟨-1, false, 0, ""⟩] =
      .ok ⟨3, 4, [(4, 0), (5, 1), (6, 2), (7, 3)], [1, 2, 3], [], 4⟩ := rfl
  exact ⟨reachable_two_accepted, hl, hp, poll_grows_interest_lists reachable_two_accepted hl hp⟩

/-! ## `max_events` outgrows `events_` -/

/-- Every socket the server has accepted (the addresses `new` returned, after the listener's)
is still in `receive_sockets_`, so `max_events` is at least one more than the number of
connections accepted so far. -/
theorem accepted_stay_in_receive (h : Reachable s) :
    (∀ x, listenerSocket < x → x < s.heap → x ∈ s.receiveSockets) ∧
    s.heap - listenerSocket ≤ s.maxEvents := by
  have hinv := reachable_inv h
  have hsub : List.range' (listenerSocket + 1) (s.heap - listenerSocket - 1) ⊆ s.receiveSockets :=
    fun x hx => by
      rw [List.mem_range'_1] at hx
      exact hinv.accepted_mem x (by omega) (by omega)
  have hlen := ((List.nodup_range' _ _).subperm hsub).length_le
  rw [List.length_range'] at hlen
  exact ⟨hinv.accepted_mem, by unfold maxEvents; omega⟩

/-- Two connections accepted: both in `receive_sockets_`, and `max_events` is 3. -/
theorem accepted_stay_in_receive_two :
    Reachable ⟨3, 4, [(4, 0), (5, 1), (6, 2)], [1, 2], [], 3⟩ ∧
    (∀ x, listenerSocket < x → x < 3 → x ∈ [1, 2]) ∧
    3 - listenerSocket ≤ TCPServer.maxEvents ⟨3, 4, [(4, 0), (5, 1), (6, 2)], [1, 2], [], 3⟩ :=
  ⟨reachable_two_accepted, accepted_stay_in_receive reachable_two_accepted⟩

/-- `listen()`, then one `poll()` whose batch is a read event on the listener and whose
accept loop accepts `eventsLength` connections: the server is reachable and the next
`poll()` passes `kevent` an event count one above the length of `events_`. -/
theorem poll_max_events_exceeds_events :
    ∃ s s', listen "" 8080 3 4 0 "" = .ok s ∧
      s.poll [⟨listenerSocket, .EVFILT_READ, false⟩]
        ((List.range eventsLength).map fun i : Nat => ⟨i + 5, true, 0, ""⟩) = .ok s' ∧
      Reachable s' ∧ s'.maxEvents = eventsLength + 1 := by
  have hlisten : listen "" 8080 3 4 0 "" = .ok ⟨3, 4, [(4, 0)], [], [], 1⟩ := rfl
  obtain ⟨s', hs', hrecv, hsend⟩ := acceptLoop_of_good (s := ⟨3, 4, [(4, 0)], [], [], 1⟩)
    ((List.range eventsLength).map fun i : Nat => ⟨i + 5, true, 0, ""⟩)
    (by simp only [List.mem_map]; rintro _ ⟨i, -, rfl⟩; exact ⟨by simp; omega, rfl, by simp⟩)
    (by simp)
  have hevents : TCPServer.pollEvents ⟨3, 4, [(4, 0)], [], [], 1⟩ false
      [⟨listenerSocket, .EVFILT_READ, false⟩] = (⟨3, 4, [(4, 0)], [], [], 1⟩, true) := rfl
  have hpoll : TCPServer.poll ⟨3, 4, [(4, 0)], [], [], 1⟩ [⟨listenerSocket, .EVFILT_READ, false⟩]
      ((List.range eventsLength).map fun i : Nat => ⟨i + 5, true, 0, ""⟩) = .ok s' := by
    simp only [poll, hevents, if_true]
    exact hs'
  refine ⟨_, s', hlisten, hpoll, .poll _ _ (.listen _ _ _ _ _ _ hlisten)
    (by simp [ListenerReadOnly]) hpoll, ?_⟩
  rw [maxEvents, hrecv, hsend, List.length_append, List.length_range', List.length_map,
    List.length_range]
  rfl

/-! ## `listen()` and a failed registration -/

/-- `addToEpollList` returns `kevent(...) != 1`, and a `kevent` that only registers returns 0
or -1, never 1: a failed registration passes the `ASSERT`, and `listen()` returns with the
listener unregistered. -/
example : listen "" 8080 3 4 (-1) "" = .ok ⟨3, 4, [], [], [], 1⟩ := rfl

end TCPServer

end LowLatency
