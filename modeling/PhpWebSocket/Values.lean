import PhpWebSocket.Constants

/-! # PHP values the extension reads and throws

The enumeration of message types, the response a handshake callback may reject
with, and the throwables the code raises, each with the text the source gives it.
-/

namespace PhpWebSocket

/-- The cases of the PHP enumeration `WebSocket\MessageType`. -/
inductive MessageType where
  | continuation | text | binary | close | ping | pong
  deriving Repr, DecidableEq

/-- `websocket_protocol_message_type_opcode`. -/
def MessageType.opcode : MessageType → UInt8
  | .continuation => opcodeContinuation
  | .text => opcodeText
  | .binary => opcodeBinary
  | .close => opcodeClose
  | .ping => opcodePing
  | .pong => opcodePong

/-- `websocket_protocol_message_type_from_opcode`. -/
def MessageType.fromOpcode (opcode : UInt8) : Option MessageType :=
  if opcode = opcodeContinuation then some .continuation
  else if opcode = opcodeText then some .text
  else if opcode = opcodeBinary then some .binary
  else if opcode = opcodeClose then some .close
  else if opcode = opcodePing then some .ping
  else if opcode = opcodePong then some .pong
  else none

/-- `WebSocket\HandshakeResponse`, with the status check of its constructor; the header
    array keeps its order. -/
structure HandshakeResponse where
  status : Int
  headers : List (Bytes × Bytes)
  body : Bytes
  status_valid : 100 ≤ status ∧ status ≤ 599 ∧ status ≠ 101
  deriving Repr, DecidableEq

/-- What `EG(exception)` may hold. An argument error names the argument by its
    position, as `zend_argument_value_error` does. -/
inductive PhpError where
  | error (message : String)
  | typeError (message : String)
  | argumentValueError (argument : Nat) (message : String)
  /-- `WebSocket\HandshakeException`, thrown by user code only; a subclass may have left
      the response unset. -/
  | handshakeException (response : Option HandshakeResponse)
  /-- Any other throwable of user code. -/
  | other
  deriving Repr, DecidableEq

end PhpWebSocket
