import PhpWebSocket.Values

/-! # The world outside the extension

Everything the server asks the kernel, the clock and the I/O driver for. Each kind
of call reads its answers from a script of its own, so a theorem for every `Env`
is a theorem for every sequence of answers: partial writes, errors and silence in
any order. A script that has run out answers quietly: the socket takes everything,
nothing is there to read, the driver agrees, the clock fails.
-/

namespace PhpWebSocket

inductive Errno where
  | eintr | eagain | ewouldblock | enobufs | epipe | econnreset | ebadf
  | other (number : Nat)
  deriving Repr, DecidableEq

/-- One answer of `send`. -/
inductive SendResult where
  /-- `more + 1` octets are taken, or all there are. -/
  | wrote (more : Nat)
  /-- The return value 0. -/
  | zero
  | failed (errno : Errno)
  deriving Repr, DecidableEq

/-- What one `recv` into a buffer of `readChunkSize` octets can deliver. -/
structure Chunk where
  octets : Bytes
  nonempty : octets ≠ []
  fits : octets.length ≤ readChunkSize
  deriving Repr, DecidableEq

/-- One answer of `recv`. -/
inductive RecvResult where
  | data (chunk : Chunk)
  | eof
  | failed (errno : Errno)
  deriving Repr, DecidableEq

/-- The octets that answers of `recv` deliver. -/
def octetsOf : List RecvResult → Bytes
  | [] => []
  | .data chunk :: rest => chunk.octets ++ octetsOf rest
  | _ :: rest => octetsOf rest

/-- One answer of `accept`, with the outcome of making the descriptor
    non-blocking. -/
inductive AcceptResult where
  | client (fd : Nat) (nonblocking : Option Errno)
  | failed (errno : Errno)
  deriving Repr, DecidableEq

/-- The functions of PHP and of the C library whose source is not part of the
    extension. -/
structure PhpLib where
  base64Encode : Bytes → Bytes
  /-- `php_base64_decode_ex` in strict mode. -/
  base64DecodeStrict : Bytes → Option Bytes
  sha1 : Bytes → Bytes
  strerror : Errno → String

inductive DriverCall where
  | watchRead (fd : Nat)
  | watchWrite (fd : Nat)
  | unwatchWrite (fd : Nat)
  | unwatch (fd : Nat)
  deriving Repr, DecidableEq

/-- `websocket_driver`: its name, the descriptors it watches, and the calls that have been made
    of it and succeeded. -/
structure Driver where
  name : String := "poll"
  reads : Nat → Bool := fun _ => false
  writes : Nat → Bool := fun _ => false
  calls : List DriverCall := []

/-- What a call does to the descriptors that are waited for, as the server counts on it. -/
def Driver.call (d : Driver) : DriverCall → Driver
  | .watchRead fd => { d with reads := fun n => d.reads n || n = fd }
  | .watchWrite fd => { d with writes := fun n => d.writes n || n = fd }
  | .unwatchWrite fd => { d with writes := fun n => d.writes n && n ≠ fd }
  | .unwatch fd =>
      { d with reads := fun n => d.reads n && n ≠ fd, writes := fun n => d.writes n && n ≠ fd }

/-- The call is made. -/
def Driver.called (d : Driver) (c : DriverCall) : Driver := { d.call c with calls := d.calls ++ [c] }

structure Env where
  sends : List SendResult := []
  recvs : List RecvResult := []
  accepts : List AcceptResult := []
  /-- Answers of `watch_read`: `none` is `SUCCESS`. -/
  watchReads : List (Option Errno) := []
  /-- Answers of `watch_write`. -/
  watchWrites : List (Option Errno) := []
  /-- Values of `websocket_server_now_usec`. -/
  clock : List Nat := []
  /-- What `websocket_server_create_listener` comes to: resolving, binding and
      listening are not modelled. -/
  listener : Except PhpError Nat := .ok 3
  errno : Option Errno := none
  /-- `WEBSOCKET_G(driver)`. -/
  driver : Option Driver := some {}
  /-- `EG(exception)`. -/
  exception : Option PhpError := none

namespace Env

/-- `websocket_server_now_usec`, which returns 0 when no clock answers. -/
def now (env : Env) : Nat × Env :=
  match env.clock with
  | [] => (0, env)
  | t :: rest => (t, { env with clock := rest })

/-- A call of the driver, if there is a descriptor to call it for. -/
def rewatch (env : Env) (call : Option DriverCall) : Env :=
  { env with driver := env.driver.map fun d => call.elim d d.called }

/-- `driver->watch_write`, true for `SUCCESS`. -/
def watchWrite (env : Env) (fd : Option Nat) : Bool × Env :=
  let watched := env.rewatch (fd.map .watchWrite)
  match env.watchWrites with
  | [] => (true, watched)
  | none :: rest => (true, { watched with watchWrites := rest })
  | some e :: rest => (false, { env with watchWrites := rest, errno := some e })

/-- `driver->watch_read`. -/
def watchRead (env : Env) (fd : Nat) : Bool × Env :=
  let watched := env.rewatch (some (.watchRead fd))
  match env.watchReads with
  | [] => (true, watched)
  | none :: rest => (true, { watched with watchReads := rest })
  | some e :: rest => (false, { env with watchReads := rest, errno := some e })

/-- `driver->unwatch_write`. -/
def unwatchWrite (env : Env) (fd : Option Nat) : Env :=
  env.rewatch (fd.map .unwatchWrite)

/-- `driver->unwatch`. -/
def unwatch (env : Env) (fd : Option Nat) : Env :=
  env.rewatch (fd.map .unwatch)

theorem rewatch_isSome (env : Env) (call : Option DriverCall) :
    (env.rewatch call).driver.isSome = env.driver.isSome := Option.isSome_map

theorem watchWrite_driver (env : Env) (fd : Option Nat) :
    (env.watchWrite fd).2.driver =
      if (env.watchWrite fd).1 then (env.rewatch (fd.map .watchWrite)).driver else env.driver := by
  unfold watchWrite
  split <;> rfl

theorem watchRead_driver (env : Env) (fd : Nat) :
    (env.watchRead fd).2.driver =
      if (env.watchRead fd).1 then (env.rewatch (some (.watchRead fd))).driver else env.driver := by
  unfold watchRead
  split <;> rfl

/-- `zend_throw_error` and its kind. -/
def raise (env : Env) (e : PhpError) : Env := { env with exception := some e }

end Env

/-- What a writing loop came to: its result, the octets the socket took, and the
    answers that are left. -/
structure Written where
  ok : Bool
  count : Nat
  sends : List SendResult
  errno : Option Errno
  deriving Repr, DecidableEq

def Written.after (n : Nat) (w : Written) : Written := { w with count := n + w.count }

theorem Written.after_ok (n : Nat) (w : Written) : (w.after n).ok = w.ok := rfl

theorem Written.after_count (n : Nat) (w : Written) : (w.after n).count = n + w.count := rfl

theorem Written.after_errno (n : Nat) (w : Written) : (w.after n).errno = w.errno := rfl

/-- `websocket_connection_write_some` on `len` remaining octets. -/
def writeSome : List SendResult → Option Errno → Nat → Written
  | sends, errno, 0 => ⟨true, 0, sends, errno⟩
  | [], errno, len => ⟨true, len, [], errno⟩
  | .wrote more :: rest, errno, len + 1 =>
      let written := min (more + 1) (len + 1)
      (writeSome rest errno (len + 1 - written)).after written
  | .zero :: rest, errno, _ + 1 => ⟨false, 0, rest, errno⟩
  | .failed .eintr :: rest, _, len + 1 => writeSome rest (some .eintr) (len + 1)
  | .failed .eagain :: rest, _, _ + 1 => ⟨true, 0, rest, some .eagain⟩
  | .failed .ewouldblock :: rest, _, _ + 1 => ⟨true, 0, rest, some .ewouldblock⟩
  | .failed e :: rest, _, _ + 1 => ⟨false, 0, rest, some e⟩

/-- The loop of `websocket_server_send_bytes`, to which a full socket is a failure. -/
def sendAll : List SendResult → Option Errno → Nat → Written
  | sends, errno, 0 => ⟨true, 0, sends, errno⟩
  | [], errno, len => ⟨true, len, [], errno⟩
  | .wrote more :: rest, errno, len + 1 =>
      let written := min (more + 1) (len + 1)
      (sendAll rest errno (len + 1 - written)).after written
  | .zero :: rest, errno, _ + 1 => ⟨false, 0, rest, errno⟩
  | .failed .eintr :: rest, _, len + 1 => sendAll rest (some .eintr) (len + 1)
  | .failed e :: rest, _, _ + 1 => ⟨false, 0, rest, some e⟩

/-- `websocket_server_send_bytes`; the descriptor -1 is refused with `EBADF`. -/
def Env.sendBytes (env : Env) (fd : Option Nat) (buffer : Bytes) : Bool × Env :=
  match fd with
  | none => if buffer = [] then (true, env) else (false, { env with errno := some .ebadf })
  | some _ =>
      let w := sendAll env.sends env.errno buffer.length
      (w.ok, { env with sends := w.sends, errno := w.errno })

end PhpWebSocket
