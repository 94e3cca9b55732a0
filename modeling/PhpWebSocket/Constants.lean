import Mathlib.Data.UInt

/-! # Constants of the extension

The numeric constants of `php_websocket.h` and of `websocket_server_runtime.c`,
under the header's own words, and the two facts about a 64-bit `size_t` that the
parsers rely on. A byte string is a list of octets; a `size_t` is a natural
number, and `sizeAdd` is its addition where the source adds without a check.
-/

namespace PhpWebSocket

/-- A `zend_string` or a read buffer, as its octets. -/
abbrev Bytes := List UInt8

/-- `SIZE_MAX` of a 64-bit `size_t`. -/
def sizeMax : Nat := 2 ^ 64 - 1

/-- Addition of two `size_t` values. -/
def sizeAdd (a b : Nat) : Nat := (a + b) % 2 ^ 64

theorem sizeAdd_of_le {a b : Nat} (h : a + b ≤ sizeMax) : sizeAdd a b = a + b := by
  apply Nat.mod_eq_of_lt
  unfold sizeMax at h
  omega

def httpMaxRequestSize : Nat := 8192
def readChunkSize : Nat := 4096
def acceptBatchLimit : Nat := 1024
def closeReasonMaxLen : Nat := 123

def defaultMaxMessageSize : Nat := 16 * 1024 * 1024
def defaultMaxQueuedBytes : Nat := 16 * 1024 * 1024
def defaultMaxConnections : Nat := 10000
def defaultHandshakeTimeoutMs : Nat := 10000
def defaultIdleTimeoutMs : Nat := 120000
def defaultPingIntervalMs : Nat := 0
def defaultPongTimeoutMs : Nat := 10000

def opcodeContinuation : UInt8 := 0x0
def opcodeText : UInt8 := 0x1
def opcodeBinary : UInt8 := 0x2
def opcodeClose : UInt8 := 0x8
def opcodePing : UInt8 := 0x9
def opcodePong : UInt8 := 0xA

def flagFin : UInt8 := 0x01
def flagCompress : UInt8 := 0x02
def flagRsv1 : UInt8 := 0x04
def flagRsv2 : UInt8 := 0x08
def flagRsv3 : UInt8 := 0x10
def flagMask : UInt8 := 0x20
def flagsAll : UInt8 := flagFin ||| flagCompress ||| flagRsv1 ||| flagRsv2 ||| flagRsv3 ||| flagMask

def closeNormal : Int := 1000
def closeProtocolError : Int := 1002
def closeInvalidPayload : Int := 1007
def closeMessageTooBig : Int := 1009

end PhpWebSocket
