import PhpWebSocket.Values
import Mathlib.Data.Int.Order.Basic

/-! # Server options

`WebSocket\ServerOptions` with the checks of its constructor, and the lookups of
`websocket_server_runtime.c`, which also take a plain array and replace what they
cannot use by a default. A PHP integer is an `Int64`.
-/

namespace PhpWebSocket

/-- A `WebSocket\ServerOptions` object; its constructor lets no other values through. -/
structure ServerOptions where
  maxMessageSize : Int64
  maxQueuedBytes : Int64
  maxConnections : Int64
  handshakeTimeoutMs : Int64
  idleTimeoutMs : Int64
  pingIntervalMs : Int64
  pongTimeoutMs : Int64
  maxMessageSize_pos : 1 ≤ maxMessageSize.toInt
  maxQueuedBytes_pos : 1 ≤ maxQueuedBytes.toInt
  maxConnections_pos : 1 ≤ maxConnections.toInt
  handshakeTimeoutMs_pos : 1 ≤ handshakeTimeoutMs.toInt
  idleTimeoutMs_pos : 1 ≤ idleTimeoutMs.toInt
  pingIntervalMs_nonneg : 0 ≤ pingIntervalMs.toInt
  pongTimeoutMs_pos : 1 ≤ pongTimeoutMs.toInt

/-- `ServerOptions::__construct`. -/
def ServerOptions.construct (maxMessageSize maxQueuedBytes maxConnections handshakeTimeoutMs
    idleTimeoutMs pingIntervalMs pongTimeoutMs : Int64) : Except PhpError ServerOptions :=
  if h1 : maxMessageSize.toInt < 1 then .error (.argumentValueError 1 "must be at least 1")
  else if h2 : maxQueuedBytes.toInt < 1 then .error (.argumentValueError 2 "must be at least 1")
  else if h3 : maxConnections.toInt < 1 then .error (.argumentValueError 3 "must be at least 1")
  else if h4 : handshakeTimeoutMs.toInt < 1 then .error (.argumentValueError 4 "must be at least 1")
  else if h5 : idleTimeoutMs.toInt < 1 then .error (.argumentValueError 5 "must be at least 1")
  else if h6 : pingIntervalMs.toInt < 0 then .error (.argumentValueError 6 "must be at least 0")
  else if h7 : pongTimeoutMs.toInt < 1 then .error (.argumentValueError 7 "must be at least 1")
  else .ok
    { maxMessageSize, maxQueuedBytes, maxConnections, handshakeTimeoutMs, idleTimeoutMs,
      pingIntervalMs, pongTimeoutMs
      maxMessageSize_pos := Int.not_lt.mp h1
      maxQueuedBytes_pos := Int.not_lt.mp h2
      maxConnections_pos := Int.not_lt.mp h3
      handshakeTimeoutMs_pos := Int.not_lt.mp h4
      idleTimeoutMs_pos := Int.not_lt.mp h5
      pingIntervalMs_nonneg := Int.not_lt.mp h6
      pongTimeoutMs_pos := Int.not_lt.mp h7 }

/-- What `Server::__construct` stores: an array, with each value as `zval_get_long`
    reads it, or an options object. -/
inductive Options where
  | array (value : String → Option Int64)
  | object (options : ServerOptions)

namespace Options

/-- The value the two lookups find under a name, if any. -/
def find (options : Options) (name : String) (property : ServerOptions → Int64) : Option Int64 :=
  match options with
  | .array value => value name
  | .object o => some (property o)

/-- `websocket_server_positive_option`. -/
def positiveOption (options : Options) (name : String) (property : ServerOptions → Int64)
    (fallback : Nat) : Nat :=
  match options.find name property with
  | none => fallback
  | some value => if value.toInt ≤ 0 then fallback else value.toInt.toNat

/-- `websocket_server_nonnegative_option`. -/
def nonnegativeOption (options : Options) (name : String) (property : ServerOptions → Int64)
    (fallback : Nat) : Nat :=
  match options.find name property with
  | none => fallback
  | some value => if value.toInt < 0 then fallback else value.toInt.toNat

def maxMessageSize (options : Options) : Nat :=
  options.positiveOption "maxMessageSize" ServerOptions.maxMessageSize defaultMaxMessageSize

def maxQueuedBytes (options : Options) : Nat :=
  options.positiveOption "maxQueuedBytes" ServerOptions.maxQueuedBytes defaultMaxQueuedBytes

def maxConnections (options : Options) : Nat :=
  options.positiveOption "maxConnections" ServerOptions.maxConnections defaultMaxConnections

/-- Milliseconds to microseconds in a `uint64_t`. -/
def toUsec (ms : Nat) : Nat := ms * 1000 % 2 ^ 64

def handshakeTimeoutUsec (options : Options) : Nat :=
  toUsec (options.positiveOption "handshakeTimeoutMs" ServerOptions.handshakeTimeoutMs
    defaultHandshakeTimeoutMs)

def idleTimeoutUsec (options : Options) : Nat :=
  toUsec (options.positiveOption "idleTimeoutMs" ServerOptions.idleTimeoutMs defaultIdleTimeoutMs)

def pingIntervalUsec (options : Options) : Nat :=
  toUsec (options.nonnegativeOption "pingIntervalMs" ServerOptions.pingIntervalMs
    defaultPingIntervalMs)

def pongTimeoutUsec (options : Options) : Nat :=
  toUsec (options.positiveOption "pongTimeoutMs" ServerOptions.pongTimeoutMs defaultPongTimeoutMs)

/-! ## What the lookups return -/

/-- Whatever is stored, a positive option is positive and fits a PHP integer, as long
    as its default does. -/
theorem positiveOption_bounds (options : Options) (name : String)
    (property : ServerOptions → Int64) {fallback : Nat} (pos : 1 ≤ fallback)
    (small : fallback < 2 ^ 63) :
    1 ≤ options.positiveOption name property fallback ∧
      options.positiveOption name property fallback < 2 ^ 63 := by
  unfold positiveOption
  split
  · exact ⟨pos, small⟩
  · rename_i value _
    have upper := value.toInt_lt
    split
    · exact ⟨pos, small⟩
    · omega

theorem positiveOption_object (o : ServerOptions) (name : String) (property : ServerOptions → Int64)
    (fallback : Nat) (pos : 1 ≤ (property o).toInt) :
    (((Options.object o).positiveOption name property fallback : Nat) : Int) =
      (property o).toInt := by
  simp only [positiveOption, find]
  rw [if_neg (by omega)]
  omega

theorem maxMessageSize_bounds (options : Options) :
    1 ≤ options.maxMessageSize ∧ options.maxMessageSize < 2 ^ 63 :=
  options.positiveOption_bounds _ _ (by decide) (by decide)

theorem maxQueuedBytes_bounds (options : Options) :
    1 ≤ options.maxQueuedBytes ∧ options.maxQueuedBytes < 2 ^ 63 :=
  options.positiveOption_bounds _ _ (by decide) (by decide)

end Options

end PhpWebSocket
