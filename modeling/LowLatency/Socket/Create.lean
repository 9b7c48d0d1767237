import LowLatency.Basic
set_option autoImplicit false

/-!
# `createSocket` and the socket helpers of `macros.h`

`createSocket(logger, cfg)` resolves the configured address with `getaddrinfo` (the
interface's IPv4 address when `cfg.ip_` is empty), creates a socket for the first result and
makes it non-blocking.  Then, by the configuration, it disables Nagle's algorithm for TCP,
connects when not listening, sets `SO_REUSEADDR` and calls `listen()` when listening (a
second time for a TCP socket), and enables `SO_TIMESTAMP` if asked.  Every step is checked
with `ASSERT`, and the loop over the results returns the descriptor of the first one (a
successful `getaddrinfo` returns at least one).

The kernel is an argument: what each system call returns, what `getifaddrs` lists, and the
texts `gai_strerror(rc)` and `strerror(errno)` give.  The `logger.log` call only reports and
is not modelled.
-/

namespace LowLatency

/-- `Common::SocketCfg`. -/
structure SocketCfg where
  ip : String
  iface : String
  port : Int
  isUdp : Bool
  isListening : Bool
  needsSoTimestamp : Bool
  deriving DecidableEq, Repr

/-- One entry of the `getifaddrs` list: the interface name, whether it has an `AF_INET`
address, and the numeric host `getnameinfo` writes for it. -/
structure Ifaddr where
  name : String
  inet : Bool
  host : String
  deriving DecidableEq, Repr

/-- A socket option `createSocket` sets. -/
inductive SockOpt where
  | TCP_NODELAY
  | SO_REUSEADDR
  | SO_TIMESTAMP
  deriving DecidableEq, Repr

/-- A system call `createSocket` makes, with its arguments. -/
inductive Syscall where
  | getaddrinfo (node service : String) (passive udp : Bool)
  | socket (udp : Bool)
  | fcntlGetfl (fd : Int)
  | fcntlSetfl (fd : Int) (flags : BitVec 32)
  | setsockopt (fd : Int) (opt : SockOpt)
  | connect (fd : Int)
  | listen (fd : Int) (backlog : Nat)
  deriving DecidableEq, Repr

/-- What the kernel answers: `getifaddrs` (`none` when it fails), the result of each call,
`gai_strerror`, and `strerror(errno)` when a check fails. -/
structure Kernel where
  ifaddrs : Option (List Ifaddr)
  call : Syscall → Int
  gaiStrerror : Int → String
  strerror : String

/-- `MaxTCPServerBacklog`. -/
def MaxTCPServerBacklog : Nat := 1024

/-- `O_NONBLOCK` (`fcntl.h` on the BSDs the kqueue code targets). -/
def O_NONBLOCK : BitVec 32 := 0x4

/-- `getIfaceIP(iface)`: the numeric host of the first `AF_INET` address of the interface,
or the empty string. -/
def getIfaceIP (ifaddrs : Option (List Ifaddr)) (iface : String) : String :=
  match ifaddrs with
  | none => ""
  | some l => match l.find? (fun a => a.inet && a.name == iface) with
    | some a => a.host
    | none => ""

/-- `setNonBlocking(fd)`: done if `F_GETFL` already shows `O_NONBLOCK`, else `F_SETFL`. -/
def setNonBlocking (k : Kernel) (fd : Int) : Bool :=
  let flags := BitVec.ofInt 32 (k.call (.fcntlGetfl fd))
  if flags &&& O_NONBLOCK ≠ 0 then true
  else k.call (.fcntlSetfl fd (flags ||| O_NONBLOCK)) ≠ -1

/-- `disableNagle(fd)`. -/
def disableNagle (k : Kernel) (fd : Int) : Bool :=
  k.call (.setsockopt fd .TCP_NODELAY) ≠ -1

/-- `setSOTimestamp(fd)`. -/
def setSOTimestamp (k : Kernel) (fd : Int) : Bool :=
  k.call (.setsockopt fd .SO_TIMESTAMP) ≠ -1

/-- `if (cond) { ASSERT(check, msg); }` -/
def assertIf (cond check : Bool) (msg : String) : Except String Unit :=
  if cond then ASSERT check msg else .ok ()

@[simp] theorem assertIf_eq_ok_iff (cond check : Bool) (msg : String) :
    assertIf cond check msg = .ok () ↔ (cond = true → check = true) := by
  cases cond <;> simp [assertIf]

/-- The address `createSocket` resolves. -/
def SocketCfg.address (cfg : SocketCfg) (k : Kernel) : String :=
  if cfg.ip.isEmpty then getIfaceIP k.ifaddrs cfg.iface else cfg.ip

/-- `createSocket(logger, cfg)`. -/
def createSocket (k : Kernel) (cfg : SocketCfg) : Except String Int := do
  let rc := k.call (.getaddrinfo (cfg.address k) (toString cfg.port) cfg.isListening cfg.isUdp)
  ASSERT (rc == 0) ("getaddrinfo() failed. error:" ++ k.gaiStrerror rc ++ "errno:" ++ k.strerror)
  let fd := k.call (.socket cfg.isUdp)
  ASSERT (fd != -1) ("socket() failed. errno:" ++ k.strerror)
  ASSERT (setNonBlocking k fd) ("setNonBlocking() failed. errno:" ++ k.strerror)
  assertIf (!cfg.isUdp) (disableNagle k fd) ("disableNagle() failed. errno:" ++ k.strerror)
  assertIf (!cfg.isListening) (k.call (.connect fd) != 1) ("connect() failed. errno:" ++ k.strerror)
  assertIf cfg.isListening (k.call (.setsockopt fd .SO_REUSEADDR) == 0)
    ("setsockopt() SO_REUSEADDR failed. errno:" ++ k.strerror)
  assertIf cfg.isListening (k.call (.listen fd MaxTCPServerBacklog) == 0)
    ("listen() failed. errno:" ++ k.strerror)
  assertIf (!cfg.isUdp && cfg.isListening) (k.call (.listen fd MaxTCPServerBacklog) == 0)
    ("listen() failed. errno:" ++ k.strerror)
  assertIf cfg.needsSoTimestamp (setSOTimestamp k fd) ("setSOTimestamp() failed. errno:" ++ k.strerror)
  return fd

/-- `McastSocket::init(ip, iface, port, is_listening)`: the descriptor `createSocket` returns
for a UDP socket without timestamps. -/
def McastSocket.init (k : Kernel) (ip iface : String) (port : Int) (isListening : Bool) :
    Except String Int :=
  createSocket k ⟨ip, iface, port, true, isListening, false⟩

/-! ## When `createSocket` returns -/

/-- `createSocket` returns a descriptor exactly when `getaddrinfo` succeeds, `socket()` gives
the descriptor, it is made non-blocking, a TCP socket gets `TCP_NODELAY`, a client socket's
`connect()` does not return 1, a listening socket (UDP or TCP) gets `SO_REUSEADDR` and its
`listen()` returns 0, and `SO_TIMESTAMP` is set when asked for. -/
theorem createSocket_eq_ok_iff (k : Kernel) (cfg : SocketCfg) (fd : Int) :
    createSocket k cfg = .ok fd ↔
      k.call (.getaddrinfo (cfg.address k) (toString cfg.port) cfg.isListening cfg.isUdp) = 0 ∧
      fd = k.call (.socket cfg.isUdp) ∧ fd ≠ -1 ∧ setNonBlocking k fd = true ∧
      (cfg.isUdp = false → disableNagle k fd = true) ∧
      (cfg.isListening = false → k.call (.connect fd) ≠ 1) ∧
      (cfg.isListening = true → k.call (.setsockopt fd .SO_REUSEADDR) = 0 ∧
        k.call (.listen fd MaxTCPServerBacklog) = 0) ∧
      (cfg.needsSoTimestamp = true → setSOTimestamp k fd = true) := by
  simp only [createSocket, bind_unit_eq_ok_iff, ASSERT_eq_ok_iff, assertIf_eq_ok_iff, beq_iff_eq,
    bne_iff_ne, ne_eq, pure, Except.pure, Except.ok.injEq, Bool.not_eq_true', Bool.and_eq_true]
  constructor
  · rintro ⟨hgai, hfd, hnb, hnagle, hconn, hreuse, hlisten, -, hts, rfl⟩
    exact ⟨hgai, rfl, hfd, hnb, hnagle, hconn, fun h => ⟨hreuse h, hlisten h⟩, hts⟩
  · rintro ⟨hgai, rfl, hfd, hnb, hnagle, hconn, hl, hts⟩
    exact ⟨hgai, hfd, hnb, hnagle, hconn, fun h => (hl h).1, fun h => (hl h).2,
      fun h => (hl h.2).2, hts, rfl⟩

/-- The kernel `k` with every `connect()` returning `r`. -/
def Kernel.withConnect (k : Kernel) (r : Int) : Kernel :=
  { k with call := fun c => match c with
    | .connect _ => r
    | c => k.call c }

/-- `ASSERT(connect(...) != 1, ...)` never fires, since `connect()` returns 0 or -1: a
client socket whose `connect()` failed is returned exactly as one that connected. -/
theorem createSocket_ignores_failed_connect (k : Kernel) (cfg : SocketCfg) :
    createSocket (k.withConnect (-1)) cfg = createSocket (k.withConnect 0) cfg := by
  simp [createSocket, Kernel.withConnect, setNonBlocking, disableNagle, setSOTimestamp,
    SocketCfg.address]

/-- `McastSocket::init(ip, iface, port, true)` calls `listen()` on its UDP socket, which a
datagram socket does not support (`EOPNOTSUPP`): the call returns only if that `listen()`
returned 0. -/
theorem McastSocket.init_listening_needs_listen (k : Kernel) (ip iface : String) (port fd : Int)
    (h : McastSocket.init k ip iface port true = .ok fd) :
    k.call (.listen fd MaxTCPServerBacklog) = 0 :=
  (((createSocket_eq_ok_iff k _ fd).mp h).2.2.2.2.2.2.1 rfl).2

end LowLatency
