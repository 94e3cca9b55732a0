import PhpWebSocket.Values
import PhpWebSocket.Lib.Octets

/-! # Frames and payloads

The parts of `websocket_protocol.c` that the server uses: which opcodes and close
codes exist, the UTF-8 check, masking, and the encoder `packPayload`. Masking is
kept in the source's three strides, on words of either byte order; the first
theorem about it is that the strides are invisible.
-/

namespace PhpWebSocket

open Lib

def opcodeIsValid (opcode : UInt8) : Bool :=
  opcode = opcodeContinuation || opcode = opcodeText || opcode = opcodeBinary ||
    opcode = opcodeClose || opcode = opcodePing || opcode = opcodePong

def opcodeIsControl (opcode : UInt8) : Bool := 0x8 ≤ opcode && opcode ≤ 0xf

def closeCodeIsValid (code : Int) : Bool :=
  if code < 1000 || code > 4999 then false
  else !(code = 1004 || code = 1005 || code = 1006 || code = 1015)

/-- `(byte & 0xc0) == 0x80`, the shape of a continuation octet. -/
def isTail (b : UInt8) : Bool := b &&& 0xc0 = 0x80

/-- `websocket_protocol_is_valid_utf8`: one lead class after the other, each with
    its own bounds on the second octet and its own end-of-buffer test. -/
def isValidUtf8 : Bytes → Bool
  | [] => true
  | c :: rest =>
      if c ≤ 0x7f then isValidUtf8 rest
      else if 0xc2 ≤ c && c ≤ 0xdf then
        match rest with
        | b1 :: rest => isTail b1 && isValidUtf8 rest
        | _ => false
      else if c = 0xe0 then
        match rest with
        | b1 :: b2 :: rest => !(b1 < 0xa0 || b1 > 0xbf) && isTail b2 && isValidUtf8 rest
        | _ => false
      else if (0xe1 ≤ c && c ≤ 0xec) || (0xee ≤ c && c ≤ 0xef) then
        match rest with
        | b1 :: b2 :: rest => isTail b1 && isTail b2 && isValidUtf8 rest
        | _ => false
      else if c = 0xed then
        match rest with
        | b1 :: b2 :: rest => !(b1 < 0x80 || b1 > 0x9f) && isTail b2 && isValidUtf8 rest
        | _ => false
      else if c = 0xf0 then
        match rest with
        | b1 :: b2 :: b3 :: rest =>
            !(b1 < 0x90 || b1 > 0xbf) && isTail b2 && isTail b3 && isValidUtf8 rest
        | _ => false
      else if 0xf1 ≤ c && c ≤ 0xf3 then
        match rest with
        | b1 :: b2 :: b3 :: rest => isTail b1 && isTail b2 && isTail b3 && isValidUtf8 rest
        | _ => false
      else if c = 0xf4 then
        match rest with
        | b1 :: b2 :: b3 :: rest =>
            !(b1 < 0x80 || b1 > 0x8f) && isTail b2 && isTail b3 && isValidUtf8 rest
        | _ => false
      else false

/-- The four octets of a mask key. -/
structure MaskKey where
  k0 : UInt8
  k1 : UInt8
  k2 : UInt8
  k3 : UInt8
  deriving Repr, DecidableEq

namespace MaskKey

def octets (mask : MaskKey) : Bytes := [mask.k0, mask.k1, mask.k2, mask.k3]

/-- `mask[i & 3]`. -/
def octetAt (mask : MaskKey) (i : Nat) : UInt8 :=
  match i &&& 3 with
  | 0 => mask.k0
  | 1 => mask.k1
  | 2 => mask.k2
  | _ => mask.k3

theorem octetAt_period (mask : MaskKey) (i : Nat) : mask.octetAt (i + 4) = mask.octetAt i := by
  have low : (i + 4) &&& 3 = i &&& 3 := by
    rw [Nat.and_two_pow_sub_one_eq_mod _ 2, Nat.and_two_pow_sub_one_eq_mod _ 2]
    omega
  simp only [octetAt, low]

end MaskKey

/-- The order in which a machine word keeps its octets. -/
inductive Endian where
  | little | big
  deriving Repr, DecidableEq

namespace Endian

/-- `memcpy` of octets into a word. -/
def load : Endian → Bytes → Nat
  | .big, octets => bigEndian octets
  | .little, octets => bigEndian octets.reverse

/-- `memcpy` of a `k`-octet word back into a buffer. -/
def store : Endian → Nat → Nat → Bytes
  | .big, k, n => toOctets k n
  | .little, k, n => (toOctets k n).reverse

end Endian

/-- The 8-byte stride of `websocket_mask_payload_copy`: the octets it writes and
    the input it leaves. -/
def maskWords (endian : Endian) (mask64 : Nat) : Bytes → Bytes × Bytes
  | a :: b :: c :: d :: e :: f :: g :: h :: rest =>
      let tail := maskWords endian mask64 rest
      (endian.store 8 (endian.load [a, b, c, d, e, f, g, h] ^^^ mask64) ++ tail.1, tail.2)
  | rest => ([], rest)

/-- The single 4-byte step that may follow. -/
def maskHalfWord (endian : Endian) (mask32 : Nat) : Bytes → Bytes × Bytes
  | a :: b :: c :: d :: rest => (endian.store 4 (endian.load [a, b, c, d] ^^^ mask32), rest)
  | rest => ([], rest)

/-- The closing byte loop, from index `i` on. -/
def maskBytes (mask : MaskKey) : Nat → Bytes → Bytes
  | _, [] => []
  | i, b :: rest => (b ^^^ mask.octetAt i) :: maskBytes mask (i + 1) rest

/-- `websocket_mask_payload_copy`. -/
def maskPayloadCopy (endian : Endian) (src : Bytes) (mask : MaskKey) : Bytes :=
  let mask32 := endian.load mask.octets
  let mask64 := mask32 <<< 32 ||| mask32
  let (words, rest) := maskWords endian mask64 src
  let (half, rest) := maskHalfWord endian mask32 rest
  words ++ half ++ maskBytes mask (words.length + half.length) rest

/-- `websocket_server_mask_payload`, the plain loop of the server. -/
def maskPayload (src : Bytes) (mask : MaskKey) : Bytes := maskBytes mask 0 src

def flagSet (flags flag : UInt8) : Bool := flags &&& flag ≠ 0

/-- The length field of a frame, with the mask bit in its first octet. -/
def lengthField (masked : Bool) (payloadLen : Nat) : Bytes :=
  let maskBit : UInt8 := if masked then 0x80 else 0
  if payloadLen < 126 then [maskBit ||| UInt8.ofNat payloadLen]
  else if payloadLen ≤ 0xffff then
    [maskBit ||| 126, UInt8.ofNat ((payloadLen >>> 8) &&& 0xff), UInt8.ofNat (payloadLen &&& 0xff)]
  else (maskBit ||| 127) :: toOctets 8 payloadLen

/-- The first octet of a frame. -/
def firstOctet (opcode flags : UInt8) : UInt8 :=
  (opcode &&& 0x0f) |||
    (if flagSet flags flagFin then 0x80 else 0) |||
    (if flagSet flags (flagCompress ||| flagRsv1) then 0x40 else 0) |||
    (if flagSet flags flagRsv2 then 0x20 else 0) |||
    (if flagSet flags flagRsv3 then 0x10 else 0)

/-- `websocket_protocol_pack_payload`. The key is what
    `websocket_protocol_random_bytes` delivers, and `none` is its failure; it is
    drawn only for a masked frame. -/
def packPayload (endian : Endian) (random : Option MaskKey) (payload : Bytes)
    (opcode flags : UInt8) : Option Bytes :=
  let header := firstOctet opcode flags :: lengthField (flagSet flags flagMask) payload.length
  if flagSet flags flagMask then
    match random with
    | none => none
    | some mask => some (header ++ mask.octets ++ maskPayloadCopy endian payload mask)
  else some (header ++ payload)

/-- The checks that `websocket_protocol_close_payload` and `Connection::close` make
    of a code and a reason, in their order. -/
def closeArgumentError (code : Int) (reason : Bytes) : Option PhpError :=
  if !closeCodeIsValid code then
    some (.argumentValueError 1 "must be a valid WebSocket close code")
  else if reason.length > closeReasonMaxLen then
    some (.argumentValueError 2 "must be at most 123 bytes")
  else if !isValidUtf8 reason then some (.argumentValueError 2 "must be valid UTF-8")
  else none

/-- `websocket_protocol_close_payload`. -/
def closePayload (code : Int) (reason : Bytes) : Except PhpError Bytes :=
  match closeArgumentError code reason with
  | some e => .error e
  | none =>
      .ok (UInt8.ofNat ((code.toNat >>> 8) &&& 0xff) :: UInt8.ofNat (code.toNat &&& 0xff) :: reason)

/-- The close code a payload starts with. -/
def closeCodeOf (payload : Bytes) : Int := (bigEndian (payload.take 2) : Int)

/-- What a Close frame may carry: nothing, or a code the protocol knows and a UTF-8
    reason behind it. -/
def ClosePayload (payload : Bytes) : Prop :=
  payload = [] ∨
    (2 ≤ payload.length ∧ closeCodeIsValid (closeCodeOf payload) ∧ isValidUtf8 (payload.drop 2))

instance (payload : Bytes) : Decidable (ClosePayload payload) :=
  inferInstanceAs (Decidable (_ ∨ _))

/-! ## Close payloads -/

/-- What `websocket_protocol_close_payload` builds is a Close payload with the code and
    the reason it was given, short enough for a control frame. -/
theorem closePayload_ok {code : Int} {reason payload : Bytes}
    (h : closePayload code reason = .ok payload) :
    ClosePayload payload ∧ payload.length ≤ 125 ∧ closeCodeOf payload = code ∧
      payload.drop 2 = reason := by
  simp only [closePayload, closeArgumentError] at h
  cases valid : closeCodeIsValid code with
  | false => simp [valid] at h
  | true =>
      by_cases long : reason.length > closeReasonMaxLen
      · simp [valid, long] at h
      · cases utf8 : isValidUtf8 reason with
        | false => simp [valid, long, utf8] at h
        | true =>
            simp only [valid, long, utf8, Bool.not_true, Bool.false_eq_true, if_false,
              Except.ok.injEq] at h
            subst h
            have range : 1000 ≤ code ∧ code ≤ 4999 := by
              unfold closeCodeIsValid at valid
              split at valid
              · cases valid
              · rename_i inside
                simp only [Bool.or_eq_true, decide_eq_true_eq, not_or] at inside
                omega
            have octets : bigEndian (toOctets 2 code.toNat) = code.toNat :=
              bigEndian_toOctets_of_lt (by omega)
            have read : closeCodeOf (UInt8.ofNat ((code.toNat >>> 8) &&& 0xff) ::
                UInt8.ofNat (code.toNat &&& 0xff) :: reason) = code := by
              change ((bigEndian (toOctets 2 code.toNat) : Nat) : Int) = code
              rw [octets]
              omega
            unfold closeReasonMaxLen at long
            refine ⟨Or.inr ⟨by simp, by rw [read]; exact valid, utf8⟩, ?_, read, rfl⟩
            simp only [List.length_cons]
            omega

theorem length_closePayload {code : Int} {reason payload : Bytes}
    (h : closePayload code reason = .ok payload) : payload.length = 2 + reason.length := by
  unfold closePayload at h
  split at h
  · cases h
  · cases h
    rw [List.length_cons, List.length_cons]
    omega

/-! ## Masking -/

theorem maskBytes_append (mask : MaskKey) (i : Nat) (a b : Bytes) :
    maskBytes mask i (a ++ b) = maskBytes mask i a ++ maskBytes mask (i + a.length) b := by
  induction a generalizing i with
  | nil => rfl
  | cons x xs ih =>
      have shifted : i + (xs.length + 1) = i + 1 + xs.length := by omega
      simp only [List.cons_append, maskBytes, ih, List.length_cons, shifted]

@[simp] theorem length_maskBytes (mask : MaskKey) (i : Nat) (src : Bytes) :
    (maskBytes mask i src).length = src.length := by
  induction src generalizing i with
  | nil => rfl
  | cons x xs ih => simp only [maskBytes, List.length_cons, ih]

@[simp] theorem length_maskPayload (src : Bytes) (mask : MaskKey) :
    (maskPayload src mask).length = src.length := length_maskBytes mask 0 src

theorem maskBytes_period (mask : MaskKey) (i : Nat) (src : Bytes) :
    maskBytes mask (i + 4) src = maskBytes mask i src := by
  induction src generalizing i with
  | nil => rfl
  | cons x xs ih =>
      have shifted : i + 4 + 1 = i + 1 + 4 := by omega
      simp only [maskBytes, mask.octetAt_period, shifted, ih]

theorem maskBytes_involutive (mask : MaskKey) (i : Nat) (src : Bytes) :
    maskBytes mask i (maskBytes mask i src) = src := by
  induction src generalizing i with
  | nil => rfl
  | cons x xs ih => simp only [maskBytes, UInt8.xor_assoc, UInt8.xor_self, UInt8.xor_zero, ih]

theorem maskPayload_involutive (src : Bytes) (mask : MaskKey) :
    maskPayload (maskPayload src mask) mask = src := maskBytes_involutive mask 0 src

namespace Endian

theorem store_xor (endian : Endian) {a b : Bytes} (same : a.length = b.length) :
    endian.store b.length (endian.load a ^^^ endian.load b) = xorOctets a b := by
  cases endian with
  | big => exact toOctets_xor same
  | little =>
      have reversed : a.reverse.length = b.reverse.length := by simpa using same
      have written := toOctets_xor reversed
      rw [List.length_reverse] at written
      simp only [store, load, written, xorOctets]
      rw [List.reverse_zipWith reversed, List.reverse_reverse, List.reverse_reverse]

theorem load_twice (endian : Endian) (mask : MaskKey) :
    endian.load mask.octets <<< 32 ||| endian.load mask.octets =
      endian.load (mask.octets ++ mask.octets) := by
  cases endian with
  | big => simp only [load, bigEndian_append, MaskKey.octets, List.length_cons, List.length_nil]
  | little =>
      simp only [load, List.reverse_append, bigEndian_append, List.length_reverse, MaskKey.octets,
        List.length_cons, List.length_nil]

end Endian

private theorem maskWords_plain (endian : Endian) (mask : MaskKey) (src : Bytes) :
    let step := maskWords endian (endian.load (mask.octets ++ mask.octets)) src
    step.1 ++ maskBytes mask step.1.length step.2 = maskBytes mask 0 src := by
  fun_induction maskWords with
  | case1 a b c d e f g h rest tail ih =>
      have word := endian.store_xor (a := [a, b, c, d, e, f, g, h])
        (b := mask.octets ++ mask.octets) rfl
      rw [show (mask.octets ++ mask.octets).length = 8 from rfl] at word
      have chunk : xorOctets [a, b, c, d, e, f, g, h] (mask.octets ++ mask.octets) =
          maskBytes mask 0 [a, b, c, d, e, f, g, h] := rfl
      have split : maskBytes mask 0 (a :: b :: c :: d :: e :: f :: g :: h :: rest) =
          maskBytes mask 0 [a, b, c, d, e, f, g, h] ++ maskBytes mask 8 rest :=
        maskBytes_append mask 0 [a, b, c, d, e, f, g, h] rest
      have shifted : ∀ n l, maskBytes mask (8 + n) l = maskBytes mask n l := fun n l => by
        rw [show 8 + n = n + 4 + 4 by omega, maskBytes_period, maskBytes_period]
      simp only [word, chunk, split, List.length_append, length_maskBytes, List.length_cons,
        List.length_nil, List.append_assoc]
      rw [shifted, ih, ← shifted 0 rest]
  | case2 rest => rfl

private theorem maskHalfWord_plain (endian : Endian) (mask : MaskKey) (i : Nat) (src : Bytes)
    (aligned : i % 4 = 0) :
    let step := maskHalfWord endian (endian.load mask.octets) src
    step.1 ++ maskBytes mask (i + step.1.length) step.2 = maskBytes mask i src := by
  have start : ∀ l, maskBytes mask i l = maskBytes mask 0 l := fun l => by
    obtain ⟨q, rfl⟩ := Nat.dvd_of_mod_eq_zero aligned
    induction q with
    | zero => rfl
    | succ q ih => rw [Nat.mul_succ, maskBytes_period, ih (by omega)]
  fun_cases maskHalfWord with
  | case1 a b c d rest =>
      have word := endian.store_xor (a := [a, b, c, d]) (b := mask.octets) rfl
      rw [show mask.octets.length = 4 from rfl] at word
      have chunk : xorOctets [a, b, c, d] mask.octets = maskBytes mask 0 [a, b, c, d] := rfl
      have split : maskBytes mask i (a :: b :: c :: d :: rest) =
          maskBytes mask i [a, b, c, d] ++ maskBytes mask (i + 4) rest :=
        maskBytes_append mask i [a, b, c, d] rest
      simp only [word, chunk, split, start, length_maskBytes, List.length_cons, List.length_nil]
  | case2 rest => rfl

private theorem length_maskWords (endian : Endian) (mask64 : Nat) (src : Bytes) :
    (maskWords endian mask64 src).1.length % 4 = 0 := by
  fun_induction maskWords with
  | case1 a b c d e f g h rest tail ih =>
      have word : ∀ n, (endian.store 8 n).length = 8 := fun n => by
        cases endian <;> simp [Endian.store]
      simp only [List.length_append, word]
      change (8 + (maskWords endian mask64 rest).1.length) % 4 = 0
      omega
  | case2 rest => rfl

/-- The strides of the copying loop are invisible: on either byte order it writes
    what the plain loop writes. -/
theorem maskPayloadCopy_eq (endian : Endian) (src : Bytes) (mask : MaskKey) :
    maskPayloadCopy endian src mask = maskPayload src mask := by
  simp only [maskPayloadCopy, endian.load_twice, maskPayload]
  have words := maskWords_plain endian mask src
  have half := maskHalfWord_plain endian mask _
    (maskWords endian (endian.load (mask.octets ++ mask.octets)) src).2
    (length_maskWords endian (endian.load (mask.octets ++ mask.octets)) src)
  rw [← words, ← half, List.append_assoc]

end PhpWebSocket
