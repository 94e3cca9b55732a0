import PhpWebSocket.HeaderBlock
import PhpWebSocket.Lib.Checked

/-! # The upgrade request in memory

`websocket_http_parse_upgrade` and its helpers on checked memory: pointers are indices into the
buffer, each octet is read at the index the source computes, and pointer differences and
lengths are subtractions that must not go below zero. A range handed to the C library
(`memchr`, `strncasecmp`, `zend_string_init`, the base64 decoder) must lie in the buffer as a
whole.
-/

namespace PhpWebSocket

open Lib Checked

/-- A pointer into the buffer and a length. -/
structure Slice where
  start : Nat
  len : Nat
  deriving Repr, DecidableEq

namespace Slice

/-- The index behind it. -/
def stop (s : Slice) : Nat := s.start + s.len

def octets (s : Slice) (buffer : Bytes) : Bytes := (buffer.drop s.start).take s.len

variable {buffer : Bytes} {start n k : Nat}

theorem length_octets {s : Slice} (inside : s.stop ≤ buffer.length) :
    (s.octets buffer).length = s.len := by
  unfold stop at inside
  rw [octets, List.length_take, List.length_drop]
  omega

theorem octets_cons (inside : start < buffer.length) :
    octets ⟨start, n + 1⟩ buffer = buffer.getD start 0 :: octets ⟨start + 1, n⟩ buffer := by
  rw [octets, octets, List.drop_eq_getElem_cons inside, List.take_succ_cons,
    List.getD_eq_getElem?_getD, List.getElem?_eq_getElem inside, Option.getD_some]

theorem octets_concat (inside : start + n < buffer.length) :
    octets ⟨start, n + 1⟩ buffer = octets ⟨start, n⟩ buffer ++ [buffer.getD (start + n) 0] := by
  rw [octets, octets, List.take_add_one, List.getElem?_drop, List.getD_eq_getElem?_getD,
    List.getElem?_eq_getElem inside]
  rfl

theorem octets_take (le : k ≤ n) :
    (octets ⟨start, n⟩ buffer).take k = octets ⟨start, k⟩ buffer := by
  rw [octets, octets, List.take_take, Nat.min_eq_left le]

theorem octets_drop (buffer : Bytes) (start n k : Nat) :
    (octets ⟨start, n⟩ buffer).drop k = octets ⟨start + k, n - k⟩ buffer := by
  rw [octets, octets, List.drop_take, List.drop_drop]

end Slice

/-- `memchr`: the index of the first `c`. -/
def memchrAt (buffer : Bytes) (start : Nat) (c : UInt8) (n : Nat) : Checked (Option Nat) := do
  let octets ← copy buffer start n
  .ok ((memchr c octets).map (start + ·))

/-- The comparison in the loop of `websocket_http_find_header_end`. -/
def emptyLineAt (buffer : Bytes) (i : Nat) : Checked Bool := do
  let first ← read buffer i
  if first ≠ 0x0d then .ok false
  else do
    let second ← read buffer (i + 1)
    if second ≠ 0x0a then .ok false
    else do
      let third ← read buffer (i + 2)
      if third ≠ 0x0d then .ok false
      else do
        let fourth ← read buffer (i + 3)
        .ok (fourth = 0x0a)

def findHeaderEndFrom (buffer : Bytes) : Nat → Nat → Checked (Option Nat)
  | 0, _ => .error .endless
  | fuel + 1, i =>
      if i + 3 < buffer.length then do
        let here ← emptyLineAt buffer i
        if here then .ok (some i) else findHeaderEndFrom buffer fuel (i + 1)
      else .ok none

/-- `websocket_http_find_header_end`. -/
def findHeaderEndAt (buffer : Bytes) : Checked (Option Nat) :=
  if buffer.length < 4 then .ok none else findHeaderEndFrom buffer (buffer.length + 1) 0

/-- The first loop of `websocket_http_trim`. -/
def trimStartAt (buffer : Bytes) : Nat → Slice → Checked Slice
  | 0, _ => .error .endless
  | fuel + 1, value =>
      if value.len > 0 then do
        let octet ← read buffer value.start
        if isBlank octet then do
          let len ← sub value.len 1
          trimStartAt buffer fuel ⟨value.start + 1, len⟩
        else .ok value
      else .ok value

/-- The second loop. -/
def trimEndAt (buffer : Bytes) : Nat → Slice → Checked Slice
  | 0, _ => .error .endless
  | fuel + 1, value =>
      if value.len > 0 then do
        let last ← sub value.len 1
        let octet ← read buffer (value.start + last)
        if isBlank octet then trimEndAt buffer fuel ⟨value.start, last⟩ else .ok value
      else .ok value

/-- `websocket_http_trim`. -/
def trimAt (buffer : Bytes) (value : Slice) : Checked Slice := do
  let value ← trimStartAt buffer (value.len + 1) value
  trimEndAt buffer (value.len + 1) value

/-- `websocket_http_equals_ci`. -/
def equalsCiAt (buffer : Bytes) (value : Slice) (expected : Bytes) : Checked Bool :=
  if value.len = expected.length then do
    let octets ← copy buffer value.start value.len
    .ok (equalsCi octets expected)
  else .ok false

/-- The part of a value that begins at `part`, trimmed, and the index of the comma behind it. -/
def commaPartAt (buffer : Bytes) (part valueLen offset : Nat) : Checked (Option Nat × Slice) := do
  let left ← sub valueLen offset
  let comma ← memchrAt buffer part 0x2c left
  match comma with
  | some comma => do
      let tokenLen ← sub comma part
      let token ← trimAt buffer ⟨part, tokenLen⟩
      .ok (some comma, token)
  | none => do
      let token ← trimAt buffer ⟨part, left⟩
      .ok (none, token)

/-- The loop of `websocket_http_header_contains_token`. What it adds to `offset` at its end it
    overwrites at once. -/
def headerContainsTokenFrom (buffer : Bytes) (value : Slice) (token : Bytes) :
    Nat → Nat → Nat → Checked Bool
  | 0, _, _ => .error .endless
  | fuel + 1, part, offset =>
      if offset ≤ value.len then do
        let found ← commaPartAt buffer part value.len offset
        let same ← equalsCiAt buffer found.2 token
        if same then .ok true
        else
          match found.1 with
          | none => .ok false
          | some comma => do
              let offset ← sub (comma + 1) value.start
              headerContainsTokenFrom buffer value token fuel (comma + 1) offset
      else .ok false

/-- `websocket_http_header_contains_token`. -/
def headerContainsTokenAt (buffer : Bytes) (value : Slice) (token : Bytes) : Checked Bool :=
  headerContainsTokenFrom buffer value token (value.len + 2) value.start 0

def validateSubprotocolTokenFrom (buffer : Bytes) (value : Slice) : Nat → Nat → Checked Bool
  | 0, _ => .error .endless
  | fuel + 1, i =>
      if i < value.len then do
        let ch ← read buffer (value.start + i)
        if ch ≤ 32 || ch ≥ 127 then .ok false
        else if isSeparator ch then .ok false
        else validateSubprotocolTokenFrom buffer value fuel (i + 1)
      else .ok true

/-- `websocket_http_validate_subprotocol_token`. -/
def validateSubprotocolTokenAt (buffer : Bytes) (value : Slice) : Checked Bool :=
  if value.len = 0 then .ok false
  else validateSubprotocolTokenFrom buffer value (value.len + 1) 0

/-- An offered token against the supported ones, if none has been selected. -/
def offerAt (buffer : Bytes) (supported : List Bytes) (token : Slice) (selected : Option Bytes) :
    Checked (Option Bytes) :=
  if selected.isNone && supported ≠ [] then do
    let offered ← copy buffer token.start token.len
    .ok (if supported.contains offered then some offered else selected)
  else .ok selected

/-- The loop of `websocket_http_select_subprotocol`: its result and the selection it leaves. -/
def selectSubprotocolFrom (buffer : Bytes) (supported : List Bytes) (value : Slice) :
    Nat → Nat → Nat → Option Bytes → Checked (Bool × Option Bytes)
  | 0, _, _, _ => .error .endless
  | fuel + 1, part, offset, selected =>
      if offset ≤ value.len then do
        let found ← commaPartAt buffer part value.len offset
        let valid ← validateSubprotocolTokenAt buffer found.2
        if !valid then .ok (false, selected)
        else do
          let selected ← offerAt buffer supported found.2 selected
          match found.1 with
          | none => .ok (true, selected)
          | some comma => do
              let offset ← sub (comma + 1) value.start
              selectSubprotocolFrom buffer supported value fuel (comma + 1) offset selected
      else .ok (true, selected)

/-- `websocket_http_select_subprotocol`. -/
def selectSubprotocolAt (buffer : Bytes) (supported : List Bytes) (value : Slice)
    (selected : Option Bytes) : Checked (Bool × Option Bytes) :=
  selectSubprotocolFrom buffer supported value (value.len + 2) value.start 0 selected

/-- `websocket_http_parse_request_line`: the method and the target. -/
def parseRequestLineAt (buffer : Bytes) (line : Slice) : Checked (Option (Slice × Slice)) := do
  let methodEnd ← memchrAt buffer line.start 0x20 line.len
  match methodEnd with
  | none => .ok none
  | some methodEnd => do
      let methodLen ← sub methodEnd line.start
      let get ← equalsCiAt buffer ⟨line.start, methodLen⟩ (ascii "GET")
      if !get then .ok none
      else do
        let left ← sub line.len methodLen
        let left ← sub left 1
        let targetEnd ← memchrAt buffer (methodEnd + 1) 0x20 left
        match targetEnd with
        | none => .ok none
        | some targetEnd => do
            let targetLen ← sub targetEnd (methodEnd + 1)
            if targetLen = 0 then .ok none
            else do
              let versionLen ← sub line.stop (targetEnd + 1)
              let version ← equalsCiAt buffer ⟨targetEnd + 1, versionLen⟩ (ascii "HTTP/1.1")
              if !version then .ok none
              else .ok (some (⟨line.start, methodLen⟩, ⟨methodEnd + 1, targetLen⟩))

/-- `websocket_http_validate_key`. -/
def validateKeyAt (lib : PhpLib) (buffer : Bytes) (value : Slice) : Checked (Option Bytes) := do
  let key ← copy buffer value.start value.len
  .ok (validateKey lib key)

/-- `websocket_http_header`. -/
structure HeaderAt where
  name : Slice
  value : Slice
  deriving Repr, DecidableEq

/-- `websocket_http_upgrade`, zeroed by `websocket_http_upgrade_init`. -/
structure UpgradeAt where
  method : Slice := ⟨0, 0⟩
  target : Slice := ⟨0, 0⟩
  headers : List HeaderAt := []
  headerCapacity : Nat := 0
  acceptKey : Option Bytes := none
  selectedSubprotocol : Option Bytes := none
  bytesConsumed : Nat := 0
  deriving Repr, DecidableEq

/-- `websocket_http_append_header`: the entry that is written must be below the capacity. -/
def appendHeaderAt (upgrade : UpgradeAt) (header : HeaderAt) : Checked UpgradeAt :=
  let capacity :=
    if upgrade.headers.length = upgrade.headerCapacity then
      if upgrade.headerCapacity ≠ 0 then upgrade.headerCapacity * 2 else 8
    else upgrade.headerCapacity
  if upgrade.headers.length < capacity then
    .ok { upgrade with headers := upgrade.headers ++ [header], headerCapacity := capacity }
  else .error .outside

structure ScanAt where
  upgrade : UpgradeAt
  hasUpgrade : Bool := false
  hasConnection : Bool := false
  hasVersion : Bool := false
  deriving Repr, DecidableEq

/-- The body of the loop for one header line, from the trimmed name and value on; `false` where
    the source returns `WEBSOCKET_HTTP_UPGRADE_INVALID`. -/
def scanHeaderAt (lib : PhpLib) (supported : List Bytes) (buffer : Bytes) (name value : Slice)
    (scan : ScanAt) : Checked (Bool × ScanAt) := do
  let upgrade ← appendHeaderAt scan.upgrade ⟨name, value⟩
  let scan := { scan with upgrade }
  let isUpgrade ← equalsCiAt buffer name (ascii "Upgrade")
  if isUpgrade then do
    let hasUpgrade ← headerContainsTokenAt buffer value (ascii "websocket")
    .ok (true, { scan with hasUpgrade })
  else do
    let isConnection ← equalsCiAt buffer name (ascii "Connection")
    if isConnection then do
      let hasConnection ← headerContainsTokenAt buffer value (ascii "upgrade")
      .ok (true, { scan with hasConnection })
    else do
      let isVersion ← equalsCiAt buffer name (ascii "Sec-WebSocket-Version")
      if isVersion then do
        let hasVersion ← equalsCiAt buffer value (ascii "13")
        .ok (true, { scan with hasVersion })
      else do
        let isKey ← equalsCiAt buffer name (ascii "Sec-WebSocket-Key")
        if isKey then
          if upgrade.acceptKey.isSome then .ok (false, scan)
          else do
            let key ← validateKeyAt lib buffer value
            match key with
            | none => .ok (false, scan)
            | some key => .ok (true, { scan with upgrade := { upgrade with acceptKey := some key } })
        else do
          let isProtocol ← equalsCiAt buffer name (ascii "Sec-WebSocket-Protocol")
          if isProtocol then do
            let selection ← selectSubprotocolAt buffer supported value upgrade.selectedSubprotocol
            .ok (selection.1,
              { scan with upgrade := { upgrade with selectedSubprotocol := selection.2 } })
          else .ok (true, scan)

/-- The loop over the header lines. -/
def scanHeadersAt (lib : PhpLib) (supported : List Bytes) (buffer : Bytes) (headerEnd : Nat) :
    Nat → Nat → ScanAt → Checked (Bool × ScanAt)
  | 0, _, _ => .error .endless
  | fuel + 1, line, scan =>
      if line < headerEnd then do
        let left ← sub headerEnd line
        let lineEnd ← memchrAt buffer line 0x0d (left + 1)
        match lineEnd with
        | none => .ok (false, scan)
        | some lineEnd =>
            if lineEnd + 1 ≥ buffer.length then .ok (false, scan)
            else do
              let lf ← read buffer (lineEnd + 1)
              if lf ≠ 0x0a then .ok (false, scan)
              else do
                let lineLen ← sub lineEnd line
                if lineLen = 0 then .ok (true, scan)
                else do
                  let colon ← memchrAt buffer line 0x3a lineLen
                  match colon with
                  | none => .ok (false, scan)
                  | some colon => do
                      let nameLen ← sub colon line
                      let valueLen ← sub lineLen nameLen
                      let valueLen ← sub valueLen 1
                      let name ← trimAt buffer ⟨line, nameLen⟩
                      let value ← trimAt buffer ⟨colon + 1, valueLen⟩
                      let scanned ← scanHeaderAt lib supported buffer name value scan
                      if scanned.1 then
                        scanHeadersAt lib supported buffer headerEnd fuel (lineEnd + 2) scanned.2
                      else .ok scanned
      else .ok (true, scan)

/-- `websocket_http_upgrade_result`. -/
inductive UpgradeStatus where
  | incomplete | ok | invalid
  deriving Repr, DecidableEq

/-- `websocket_http_parse_upgrade`: its result, and what it leaves in `upgrade`. -/
def parseUpgradeAt (lib : PhpLib) (supported : List Bytes) (buffer : Bytes) :
    Checked (UpgradeStatus × UpgradeAt) :=
  if buffer.length > httpMaxRequestSize then .ok (.invalid, {})
  else do
    let headerEnd ← findHeaderEndAt buffer
    match headerEnd with
    | none => .ok (.incomplete, {})
    | some headerEnd => do
        let upgrade : UpgradeAt := { bytesConsumed := headerEnd + 4 }
        let requestLineEnd ← memchrAt buffer 0 0x0d headerEnd
        match requestLineEnd with
        | none => .ok (.invalid, upgrade)
        | some requestLineEnd =>
            if requestLineEnd + 1 ≥ buffer.length then .ok (.invalid, upgrade)
            else do
              let lf ← read buffer (requestLineEnd + 1)
              if lf ≠ 0x0a then .ok (.invalid, upgrade)
              else do
                let requestLine ← parseRequestLineAt buffer ⟨0, requestLineEnd⟩
                match requestLine with
                | none => .ok (.invalid, upgrade)
                | some (method, target) => do
                    let upgrade := { upgrade with method, target }
                    let scanned ← scanHeadersAt lib supported buffer headerEnd (headerEnd + 1)
                      (requestLineEnd + 2) { upgrade }
                    if !scanned.1 then .ok (.invalid, scanned.2.upgrade)
                    else if !scanned.2.hasUpgrade || !scanned.2.hasConnection ||
                        !scanned.2.hasVersion || scanned.2.upgrade.acceptKey.isNone then
                      .ok (.invalid, scanned.2.upgrade)
                    else .ok (.ok, scanned.2.upgrade)

/-! ## No fault -/

section

variable {buffer : Bytes} {value : Slice}

theorem memchrAt_ok {start n : Nat} (c : UInt8) (inside : start + n ≤ buffer.length) :
    memchrAt buffer start c n =
      .ok ((memchr c (Slice.octets ⟨start, n⟩ buffer)).map (start + ·)) := by
  rw [memchrAt, copy_ok inside, ok_bind]
  rfl

theorem memchr_octets {start n k : Nat} {c : UInt8}
    (found : memchr c (Slice.octets ⟨start, n⟩ buffer) = some k) : k < n := by
  have before := memchr_lt found
  rw [Slice.octets, List.length_take] at before
  exact Nat.lt_of_lt_of_le before (Nat.min_le_left _ _)

theorem emptyLineAt_ok {i : Nat} (inside : i + 3 < buffer.length) :
    emptyLineAt buffer i = .ok ((buffer.drop i).take 4 = crlf ++ crlf) := by
  have four : (buffer.drop i).take 4 = [buffer.getD i 0, buffer.getD (i + 1) 0,
      buffer.getD (i + 2) 0, buffer.getD (i + 3) 0] := by
    have cons (j n : Nat) (before : j < buffer.length) :
        (buffer.drop j).take (n + 1) = buffer.getD j 0 :: (buffer.drop (j + 1)).take n :=
      Slice.octets_cons before
    rw [cons i 3 (by omega), cons (i + 1) 2 (by omega), cons (i + 2) 1 (by omega),
      cons (i + 3) 0 inside, List.take_zero]
  rw [emptyLineAt, read_ok (by omega) 0, ok_bind, read_ok (by omega) 0, read_ok (by omega) 0,
    read_ok inside 0, four]
  generalize buffer.getD i 0 = a, buffer.getD (i + 1) 0 = b, buffer.getD (i + 2) 0 = c,
    buffer.getD (i + 3) 0 = d
  by_cases first : a = 0x0d <;> by_cases second : b = 0x0a <;> by_cases third : c = 0x0d <;>
    simp [first, second, third, crlf]

theorem findHeaderEnd_short {b : Bytes} (short : b.length < 4) : findHeaderEnd b = none := by
  cases found : findHeaderEnd b with
  | none => rfl
  | some k =>
      have room := findHeaderEnd_le found
      omega

theorem findHeaderEndFrom_ok {fuel i : Nat} (enough : buffer.length < i + fuel)
    (inside : i ≤ buffer.length) :
    findHeaderEndFrom buffer fuel i = .ok ((findHeaderEnd (buffer.drop i)).map (i + ·)) := by
  induction fuel generalizing i with
  | zero => omega
  | succ fuel ih =>
      unfold findHeaderEndFrom
      split
      · rename_i room
        have here : buffer.drop i = buffer.getD i 0 :: buffer.drop (i + 1) := by
          rw [List.drop_eq_getElem_cons (by omega), List.getD_eq_getElem?_getD,
            List.getElem?_eq_getElem (by omega), Option.getD_some]
        rw [emptyLineAt_ok room, ok_bind, ih (by omega) (by omega), here, findHeaderEnd]
        simp only [decide_eq_true_eq]
        split
        · rfl
        · rw [Option.map_map]
          congr 2
          funext k
          exact (Nat.add_right_comm i k 1).symm
      · rw [findHeaderEnd_short (by rw [List.length_drop]; omega)]
        rfl

theorem findHeaderEndAt_ok (buffer : Bytes) :
    findHeaderEndAt buffer = .ok (findHeaderEnd buffer) := by
  unfold findHeaderEndAt
  split
  · rename_i short
    rw [findHeaderEnd_short short]
  · rw [findHeaderEndFrom_ok (by omega) (Nat.zero_le _), List.drop_zero]
    simp

/-! ### Trimming -/

/-- `value` with some octets at its ends left out. -/
def Slice.Within (part value : Slice) : Prop := value.start ≤ part.start ∧ part.stop ≤ value.stop

theorem trimStartAt_ok {fuel : Nat} (enough : value.len < fuel) (inside : value.stop ≤ buffer.length) :
    ∃ part : Slice, trimStartAt buffer fuel value = .ok part ∧ part.Within value ∧
      part.octets buffer = (value.octets buffer).dropWhile isBlank := by
  induction fuel generalizing value with
  | zero => omega
  | succ fuel ih =>
      obtain ⟨start, len⟩ := value
      unfold Slice.stop at inside
      unfold trimStartAt
      cases len with
      | zero => exact ⟨⟨start, 0⟩, rfl, ⟨Nat.le_refl _, Nat.le_refl _⟩, rfl⟩
      | succ len =>
          have front : start < buffer.length := by
            dsimp only at inside
            omega
          rw [if_pos (Nat.succ_pos len), read_ok front 0, ok_bind, Slice.octets_cons front]
          split
          · rename_i blank
            rw [sub_ok (show 1 ≤ len + 1 by omega), ok_bind, Nat.add_sub_cancel,
              List.dropWhile_cons_of_pos blank]
            obtain ⟨part, trimmed, within, octets⟩ := @ih ⟨start + 1, len⟩
              (Nat.lt_of_succ_lt_succ enough) (by simp only [Slice.stop] at inside ⊢; omega)
            refine ⟨part, trimmed, ?_, octets⟩
            simp only [Slice.Within, Slice.stop] at within ⊢
            omega
          · rename_i other
            rw [List.dropWhile_cons_of_neg other, ← Slice.octets_cons front]
            exact ⟨_, rfl, ⟨Nat.le_refl _, Nat.le_refl _⟩, rfl⟩

theorem trimEndAt_ok {fuel : Nat} (enough : value.len < fuel) (inside : value.stop ≤ buffer.length) :
    ∃ part : Slice, trimEndAt buffer fuel value = .ok part ∧ part.Within value ∧
      part.octets buffer = ((value.octets buffer).reverse.dropWhile isBlank).reverse := by
  induction fuel generalizing value with
  | zero => omega
  | succ fuel ih =>
      obtain ⟨start, len⟩ := value
      unfold Slice.stop at inside
      unfold trimEndAt
      cases len with
      | zero => exact ⟨⟨start, 0⟩, rfl, ⟨Nat.le_refl _, Nat.le_refl _⟩, rfl⟩
      | succ len =>
          have last : start + len < buffer.length := by
            dsimp only at inside
            omega
          rw [if_pos (Nat.succ_pos len), sub_ok (show 1 ≤ len + 1 by omega), ok_bind, Nat.add_sub_cancel,
            read_ok last 0, ok_bind, Slice.octets_concat last, List.reverse_append]
          simp only [List.reverse_cons, List.reverse_nil, List.nil_append, List.cons_append]
          split
          · rename_i blank
            rw [List.dropWhile_cons_of_pos blank]
            obtain ⟨part, trimmed, within, octets⟩ := @ih ⟨start, len⟩
              (Nat.lt_of_succ_lt_succ enough) (by simp only [Slice.stop] at inside ⊢; omega)
            refine ⟨part, trimmed, ?_, octets⟩
            simp only [Slice.Within, Slice.stop] at within ⊢
            omega
          · rename_i other
            rw [List.dropWhile_cons_of_neg other, List.reverse_cons, List.reverse_reverse,
              ← Slice.octets_concat last]
            exact ⟨_, rfl, ⟨Nat.le_refl _, Nat.le_refl _⟩, rfl⟩

theorem trimAt_ok (inside : value.stop ≤ buffer.length) :
    ∃ part : Slice, trimAt buffer value = .ok part ∧ part.Within value ∧
      part.octets buffer = trim (value.octets buffer) := by
  obtain ⟨front, first, withinFront, octetsFront⟩ := trimStartAt_ok (Nat.lt_succ_self _) inside
  obtain ⟨part, second, within, octets⟩ := trimEndAt_ok (Nat.lt_succ_self front.len)
    (withinFront.2.trans inside)
  refine ⟨part, ?_, ⟨withinFront.1.trans within.1, within.2.trans withinFront.2⟩, ?_⟩
  · rw [trimAt, first, ok_bind, second]
  · rw [octets, octetsFront, trim]

theorem equalsCiAt_ok (inside : value.stop ≤ buffer.length) (expected : Bytes) :
    equalsCiAt buffer value expected = .ok (equalsCi (value.octets buffer) expected) := by
  unfold equalsCiAt
  split
  · rw [copy_ok inside, ok_bind]
    rfl
  · rename_i other
    have differ : equalsCi (value.octets buffer) expected = false := by
      rw [equalsCi, decide_eq_false_iff_not]
      intro same
      have lengths := congrArg List.length same
      rw [List.length_map, List.length_map, Slice.length_octets inside] at lengths
      exact other lengths
    rw [differ]

/-! ### Values in parts -/

theorem commaParts_memchr (b : Bytes) :
    commaParts b =
      match memchr 0x2c b with
      | none => [b]
      | some k => b.take k :: commaParts (b.drop (k + 1)) := by
  induction b with
  | nil => rfl
  | cons x rest ih =>
      rw [commaParts, memchr]
      by_cases comma : x = 0x2c
      · rw [if_pos comma, if_pos comma]
        rfl
      · rw [if_neg comma, if_neg comma, ih]
        cases memchr 0x2c rest <;> rfl

theorem commaPartAt_ok {part valueLen offset : Nat} (le : offset ≤ valueLen)
    (inside : part + (valueLen - offset) ≤ buffer.length) :
    ∃ found octets, commaPartAt buffer part valueLen offset = .ok found ∧
      found.2.stop ≤ buffer.length ∧ found.2.octets buffer = trim octets ∧
      ((found.1 = none ∧
          commaParts (Slice.octets ⟨part, valueLen - offset⟩ buffer) = [octets]) ∨
        ∃ k, k < valueLen - offset ∧ found.1 = some (part + k) ∧
          commaParts (Slice.octets ⟨part, valueLen - offset⟩ buffer) =
            octets :: commaParts
              (Slice.octets ⟨part + (k + 1), valueLen - offset - (k + 1)⟩ buffer)) := by
  rw [commaPartAt, sub_ok le, ok_bind, memchrAt_ok _ inside, ok_bind, commaParts_memchr]
  cases comma : memchr 0x2c (Slice.octets ⟨part, valueLen - offset⟩ buffer) with
  | none =>
      obtain ⟨token, trimmed, within, octets⟩ :=
        trimAt_ok (show Slice.stop ⟨part, valueLen - offset⟩ ≤ buffer.length from inside)
      refine ⟨(none, token), _, ?_, within.2.trans inside, octets, Or.inl ⟨rfl, rfl⟩⟩
      rw [Option.map_none]
      dsimp only
      rw [trimmed, ok_bind]
  | some k =>
      have before := memchr_octets comma
      obtain ⟨token, trimmed, within, octets⟩ :=
        trimAt_ok (show Slice.stop ⟨part, k⟩ ≤ buffer.length by rw [Slice.stop]; dsimp only; omega)
      rw [← Slice.octets_take (Nat.le_of_lt before)] at octets
      refine ⟨(some (part + k), token), _, ?_, ?_, octets, Or.inr ⟨k, before, rfl, ?_⟩⟩
      · rw [Option.map_some]
        dsimp only
        rw [sub_ok (by omega), ok_bind, Nat.add_sub_cancel_left, trimmed, ok_bind]
      · have stop := within.2
        simp only [Slice.stop] at stop ⊢
        omega
      · dsimp only
        rw [Slice.octets_drop]

theorem headerContainsTokenFrom_ok (inside : value.stop ≤ buffer.length) (token : Bytes)
    {fuel offset : Nat} (enough : value.len < offset + fuel) (le : offset ≤ value.len) :
    headerContainsTokenFrom buffer value token fuel (value.start + offset) offset =
      .ok (headerContainsToken
        (Slice.octets ⟨value.start + offset, value.len - offset⟩ buffer) token) := by
  unfold Slice.stop at inside
  induction fuel generalizing offset with
  | zero => omega
  | succ fuel ih =>
      obtain ⟨found, octets, part, within, trimmed, more⟩ :=
        commaPartAt_ok le (show value.start + offset + (value.len - offset) ≤ buffer.length by omega)
      rw [headerContainsTokenFrom, if_pos le, part, ok_bind, equalsCiAt_ok within, ok_bind, trimmed,
        headerContainsToken]
      rcases more with ⟨last, parts⟩ | ⟨k, before, comma, parts⟩
      · rw [parts, last, List.any_cons, List.any_nil, Bool.or_false]
        cases equalsCi (trim octets) token <;> rfl
      · rw [parts, comma, List.any_cons]
        cases equalsCi (trim octets) token with
        | true => rfl
        | false =>
            have next := @ih (offset + (k + 1)) (by omega) (by omega)
            rw [headerContainsToken, ← Nat.add_assoc, Nat.sub_add_eq] at next
            have pointer : value.start + offset + k + 1 = value.start + offset + (k + 1) := rfl
            have behind : value.start + offset + (k + 1) - value.start = offset + (k + 1) := by omega
            simp only [Bool.false_eq_true, if_false, Bool.false_or]
            rw [sub_ok (by omega), ok_bind, pointer, behind, next]

theorem headerContainsTokenAt_ok (inside : value.stop ≤ buffer.length) (token : Bytes) :
    headerContainsTokenAt buffer value token =
      .ok (headerContainsToken (value.octets buffer) token) :=
  headerContainsTokenFrom_ok inside token (by omega) (Nat.zero_le _)

theorem validateSubprotocolTokenFrom_ok (inside : value.stop ≤ buffer.length) {fuel i : Nat}
    (enough : value.len < i + fuel) (le : i ≤ value.len) :
    validateSubprotocolTokenFrom buffer value fuel i =
      .ok ((Slice.octets ⟨value.start + i, value.len - i⟩ buffer).all
        fun ch => !(ch ≤ 32 || ch ≥ 127) && !isSeparator ch) := by
  unfold Slice.stop at inside
  induction fuel generalizing i with
  | zero => omega
  | succ fuel ih =>
      unfold validateSubprotocolTokenFrom
      split
      · rename_i before
        obtain ⟨n, left⟩ : ∃ n, value.len - i = n + 1 := ⟨value.len - i - 1, by omega⟩
        have next := ih (i := i + 1) (by omega) (by omega)
        have left' : value.len - (i + 1) = n := by omega
        rw [left', ← Nat.add_assoc] at next
        rw [read_ok (by omega) 0, ok_bind, left, Slice.octets_cons (by omega), List.all_cons, next]
        generalize buffer.getD (value.start + i) 0 = ch
        cases ch ≤ 32 || ch ≥ 127 with
        | true => rfl
        | false => cases isSeparator ch <;> rfl
      · have ended : value.len - i = 0 := by omega
        rw [ended]
        rfl

theorem validateSubprotocolTokenAt_ok (inside : value.stop ≤ buffer.length) :
    validateSubprotocolTokenAt buffer value =
      .ok (validateSubprotocolToken (value.octets buffer)) := by
  have length := Slice.length_octets inside
  rw [validateSubprotocolTokenAt, validateSubprotocolToken]
  split
  · rename_i empty
    rw [empty, List.length_eq_zero_iff] at length
    simp [length]
  · rename_i some_octet
    have nonempty : value.octets buffer ≠ [] := by
      intro none
      rw [none] at length
      exact some_octet length.symm
    rw [validateSubprotocolTokenFrom_ok inside (by omega) (Nat.zero_le _), decide_eq_true nonempty,
      Bool.true_and]
    rfl

theorem offerAt_ok (supported : List Bytes) (inside : value.stop ≤ buffer.length)
    (selected : Option Bytes) :
    offerAt buffer supported value selected =
      .ok (if selected.isNone && supported ≠ [] && value.octets buffer ∈ supported
        then some (value.octets buffer) else selected) := by
  unfold offerAt
  split
  · rename_i asks
    rw [copy_ok inside, ok_bind, asks, Bool.true_and]
    simp only [decide_eq_true_eq, List.contains_iff_mem]
    rfl
  · rename_i settled
    simp only [Bool.not_eq_true] at settled
    rw [settled, Bool.false_and]
    rfl

theorem selectSubprotocolFrom_ok (supported : List Bytes) (inside : value.stop ≤ buffer.length)
    {fuel offset : Nat} (enough : value.len < offset + fuel) (le : offset ≤ value.len)
    (selected : Option Bytes) :
    ∃ selection, selectSubprotocolFrom buffer supported value fuel (value.start + offset) offset
        selected = .ok selection ∧
      selectSubprotocol supported
        (commaParts (Slice.octets ⟨value.start + offset, value.len - offset⟩ buffer)) selected =
          if selection.1 then some selection.2 else none := by
  unfold Slice.stop at inside
  induction fuel generalizing offset selected with
  | zero => omega
  | succ fuel ih =>
      obtain ⟨found, octets, part, within, trimmed, more⟩ :=
        commaPartAt_ok le (show value.start + offset + (value.len - offset) ≤ buffer.length by omega)
      rw [selectSubprotocolFrom, if_pos le, part, ok_bind, validateSubprotocolTokenAt_ok within,
        ok_bind, trimmed]
      cases valid : validateSubprotocolToken (trim octets) with
      | false =>
          refine ⟨(false, selected), rfl, ?_⟩
          rcases more with ⟨-, parts⟩ | ⟨k, -, -, parts⟩ <;>
            rw [parts, selectSubprotocol, valid] <;> rfl
      | true =>
          simp only [Bool.not_true, Bool.false_eq_true, if_false]
          rw [offerAt_ok supported within, ok_bind, trimmed]
          rcases more with ⟨last, parts⟩ | ⟨k, before, comma, parts⟩
          · refine ⟨(true, _), by rw [last], ?_⟩
            rw [parts, selectSubprotocol, valid, selectSubprotocol]
            rfl
          · obtain ⟨selection, next, same⟩ := @ih (offset + (k + 1)) (by omega) (by omega)
              (if selected.isNone && supported ≠ [] && trim octets ∈ supported
                then some (trim octets) else selected)
            rw [← Nat.add_assoc, Nat.sub_add_eq] at same
            rw [← Nat.add_assoc] at next
            have behind : value.start + offset + (k + 1) - value.start = offset + (k + 1) := by omega
            refine ⟨selection, ?_, ?_⟩
            · rw [comma]
              dsimp only
              rw [sub_ok (by omega), ok_bind, Nat.add_assoc _ k 1, behind, next]
            · rw [parts, selectSubprotocol, valid]
              exact same

theorem selectSubprotocolAt_ok (supported : List Bytes) (inside : value.stop ≤ buffer.length)
    (selected : Option Bytes) :
    ∃ selection, selectSubprotocolAt buffer supported value selected = .ok selection ∧
      selectSubprotocol supported (commaParts (value.octets buffer)) selected =
        if selection.1 then some selection.2 else none :=
  selectSubprotocolFrom_ok supported inside (by omega) (Nat.zero_le _) selected

theorem validateKeyAt_ok (lib : PhpLib) (inside : value.stop ≤ buffer.length) :
    validateKeyAt lib buffer value = .ok (validateKey lib (value.octets buffer)) := by
  rw [validateKeyAt, copy_ok inside, ok_bind]
  rfl

/-! ### The request line -/

theorem parseRequestLineAt_ok {line : Slice} (inside : line.stop ≤ buffer.length) :
    ∃ found, parseRequestLineAt buffer line = .ok found ∧
      parseRequestLine (line.octets buffer) =
        found.map (fun part => (part.1.octets buffer, part.2.octets buffer)) ∧
      ∀ part ∈ found, part.1.stop ≤ line.stop ∧ part.2.stop ≤ line.stop := by
  obtain ⟨start, len⟩ := line
  simp only [Slice.stop] at inside ⊢
  rw [parseRequestLineAt, memchrAt_ok _ inside, ok_bind, parseRequestLine]
  cases space : memchr 0x20 (Slice.octets ⟨start, len⟩ buffer) with
  | none => exact ⟨none, rfl, rfl, nofun⟩
  | some methodLen =>
      have method := memchr_octets space
      dsimp only [Option.map_some]
      rw [sub_ok (by omega), ok_bind, Nat.add_sub_cancel_left,
        equalsCiAt_ok (by rw [Slice.stop]; dsimp only; omega), ok_bind,
        Slice.octets_take (Nat.le_of_lt method)]
      split
      · exact ⟨none, rfl, rfl, nofun⟩
      · have pointer : start + methodLen + 1 = start + (methodLen + 1) := rfl
        rw [sub_ok (Nat.le_of_lt method), ok_bind, sub_ok (by omega), ok_bind, pointer,
          memchrAt_ok _ (by omega), ok_bind, Slice.octets_drop, Nat.sub_sub]
        cases second : memchr 0x20
            (Slice.octets ⟨start + (methodLen + 1), len - (methodLen + 1)⟩ buffer) with
        | none => exact ⟨none, rfl, rfl, nofun⟩
        | some targetLen =>
            have target := memchr_octets second
            dsimp only [Option.map_some]
            rw [sub_ok (by omega), ok_bind, Nat.add_sub_cancel_left]
            split
            · exact ⟨none, rfl, rfl, nofun⟩
            · have rest : len - (methodLen + 1) - (targetLen + 1) =
                  start + len - (start + (methodLen + 1) + targetLen + 1) := by omega
              rw [sub_ok (by simp only [Slice.stop]; omega), ok_bind,
                equalsCiAt_ok (by simp only [Slice.stop]; omega), ok_bind,
                Slice.octets_drop, rest, Slice.octets_take (Nat.le_of_lt target)]
              rw [← Nat.add_assoc (start + (methodLen + 1)) targetLen 1]
              split
              · rename_i other
                exact ⟨none, rfl, if_pos other, nofun⟩
              · rename_i version
                refine ⟨some (⟨start, methodLen⟩, ⟨start + (methodLen + 1), targetLen⟩), rfl,
                  if_neg version, ?_⟩
                rintro part same
                cases same
                dsimp only
                omega

/-! ### The header lines -/

end

namespace UpgradeAt

/-- The record with its octets in place of the pointers. -/
def octets (upgrade : UpgradeAt) (buffer : Bytes) : HttpUpgrade where
  method := upgrade.method.octets buffer
  target := upgrade.target.octets buffer
  headers := upgrade.headers.map fun header =>
    ⟨header.name.octets buffer, header.value.octets buffer⟩
  acceptKey := upgrade.acceptKey
  selectedSubprotocol := upgrade.selectedSubprotocol
  bytesConsumed := upgrade.bytesConsumed

/-- All that is recorded lies below `bytesConsumed`, and the list has room for its entries. -/
structure Inside (upgrade : UpgradeAt) : Prop where
  method : upgrade.method.stop ≤ upgrade.bytesConsumed
  target : upgrade.target.stop ≤ upgrade.bytesConsumed
  headers : ∀ header ∈ upgrade.headers,
    header.name.stop ≤ upgrade.bytesConsumed ∧ header.value.stop ≤ upgrade.bytesConsumed
  room : upgrade.headers.length ≤ upgrade.headerCapacity

end UpgradeAt

def ScanAt.octets (scan : ScanAt) (buffer : Bytes) : HeaderScan :=
  { upgrade := scan.upgrade.octets buffer, hasUpgrade := scan.hasUpgrade,
    hasConnection := scan.hasConnection, hasVersion := scan.hasVersion }

/-- What one part of the parser leaves: no fault, the result of the parser on octets, and
    everything recorded inside the header. -/
structure Scans (buffer : Bytes) (consumed : Nat) (run : Checked (Bool × ScanAt))
    (result : Option HeaderScan) : Prop where
  ends : ∃ scanned, run = .ok scanned ∧
    result = (if scanned.1 then some (scanned.2.octets buffer) else none) ∧
    scanned.2.upgrade.Inside ∧ scanned.2.upgrade.bytesConsumed = consumed

section

variable {buffer : Bytes}

theorem appendHeaderAt_ok {upgrade : UpgradeAt} (inside : upgrade.Inside) (header : HeaderAt)
    (name : header.name.stop ≤ upgrade.bytesConsumed)
    (value : header.value.stop ≤ upgrade.bytesConsumed) :
    ∃ capacity, appendHeaderAt upgrade header =
        .ok { upgrade with headers := upgrade.headers ++ [header], headerCapacity := capacity } ∧
      ({ upgrade with headers := upgrade.headers ++ [header], headerCapacity := capacity } :
        UpgradeAt).Inside := by
  have room := inside.room
  unfold appendHeaderAt
  have grown : upgrade.headers.length <
      if upgrade.headers.length = upgrade.headerCapacity then
        if upgrade.headerCapacity ≠ 0 then upgrade.headerCapacity * 2 else 8
      else upgrade.headerCapacity := by
    split
    · split <;> omega
    · omega
  rw [if_pos grown]
  refine ⟨_, rfl, inside.method, inside.target, ?_, ?_⟩
  · intro other member
    rcases List.mem_append.mp member with old | new
    · exact inside.headers other old
    · rw [List.mem_singleton.mp new]
      exact ⟨name, value⟩
  · rw [List.length_append]
    exact grown

theorem scanHeaderAt_ok (lib : PhpLib) (supported : List Bytes) {name value : Slice} {scan : ScanAt}
    (inside : scan.upgrade.Inside) (present : scan.upgrade.bytesConsumed ≤ buffer.length)
    (nameInside : name.stop ≤ scan.upgrade.bytesConsumed)
    (valueInside : value.stop ≤ scan.upgrade.bytesConsumed) :
    Scans buffer scan.upgrade.bytesConsumed (scanHeaderAt lib supported buffer name value scan)
      (scanHeader lib supported (name.octets buffer) (value.octets buffer) (scan.octets buffer)) := by
  obtain ⟨capacity, appended, within⟩ := appendHeaderAt_ok inside ⟨name, value⟩ nameInside valueInside
  have named (expected : Bytes) := equalsCiAt_ok (nameInside.trans present) expected
  have valued := valueInside.trans present
  rw [scanHeaderAt, appended, ok_bind, scanHeader]
  simp only [named, headerContainsTokenAt_ok valued, equalsCiAt_ok valued, validateKeyAt_ok lib valued,
    ok_bind]
  by_cases isUpgrade : equalsCi (name.octets buffer) (ascii "Upgrade") = true
  · rw [if_pos isUpgrade, if_pos isUpgrade]
    exact ⟨⟨_, rfl, by simp [ScanAt.octets, UpgradeAt.octets], within, rfl⟩⟩
  rw [if_neg isUpgrade, if_neg isUpgrade]
  by_cases isConnection : equalsCi (name.octets buffer) (ascii "Connection") = true
  · rw [if_pos isConnection, if_pos isConnection]
    exact ⟨⟨_, rfl, by simp [ScanAt.octets, UpgradeAt.octets], within, rfl⟩⟩
  rw [if_neg isConnection, if_neg isConnection]
  by_cases isVersion : equalsCi (name.octets buffer) (ascii "Sec-WebSocket-Version") = true
  · rw [if_pos isVersion, if_pos isVersion]
    exact ⟨⟨_, rfl, by simp [ScanAt.octets, UpgradeAt.octets], within, rfl⟩⟩
  rw [if_neg isVersion, if_neg isVersion]
  by_cases isKey : equalsCi (name.octets buffer) (ascii "Sec-WebSocket-Key") = true
  · rw [if_pos isKey, if_pos isKey]
    by_cases second : scan.upgrade.acceptKey.isSome = true
    · rw [if_pos second]
      exact ⟨⟨_, rfl, if_pos second, within, rfl⟩⟩
    · rw [if_neg second]
      cases key : validateKey lib (value.octets buffer) with
      | none => exact ⟨⟨_, rfl, by simp [ScanAt.octets, UpgradeAt.octets, second], within, rfl⟩⟩
      | some key =>
          exact ⟨⟨_, rfl, by simp [ScanAt.octets, UpgradeAt.octets, second],
            ⟨within.method, within.target, within.headers, within.room⟩, rfl⟩⟩
  rw [if_neg isKey, if_neg isKey]
  by_cases isProtocol : equalsCi (name.octets buffer) (ascii "Sec-WebSocket-Protocol") = true
  · rw [if_pos isProtocol, if_pos isProtocol]
    obtain ⟨selection, selected, same⟩ := selectSubprotocolAt_ok supported valued
      scan.upgrade.selectedSubprotocol
    rw [selected, ok_bind]
    refine ⟨⟨_, rfl, ?_, ⟨within.method, within.target, within.headers, within.room⟩, rfl⟩⟩
    simp only [ScanAt.octets, UpgradeAt.octets, same]
    cases selection.1 <;> simp
  rw [if_neg isProtocol, if_neg isProtocol]
  exact ⟨⟨_, rfl, by simp [ScanAt.octets, UpgradeAt.octets], within, rfl⟩⟩

theorem Scans.unchanged (buffer : Bytes) {scan : ScanAt} (inside : scan.upgrade.Inside) (valid : Bool) :
    Scans buffer scan.upgrade.bytesConsumed (.ok (valid, scan))
      (if valid then some (scan.octets buffer) else none) :=
  ⟨⟨_, rfl, rfl, inside, rfl⟩⟩

/-- Every round begins behind the CRLF of the round before, so the distance to the end of the
    header bounds the rounds; a line's CR is looked for up to the CR that ends the header. -/
theorem scanHeadersAt_ok (lib : PhpLib) (supported : List Bytes) {headerEnd : Nat}
    (present : headerEnd + 4 ≤ buffer.length) {fuel fuel' line : Nat} (scan : ScanAt)
    (enough : headerEnd < line + fuel) (positive : 0 < fuel) (enough' : headerEnd ≤ line + fuel')
    (inside : scan.upgrade.Inside) (consumed : scan.upgrade.bytesConsumed = headerEnd + 4) :
    Scans buffer (headerEnd + 4) (scanHeadersAt lib supported buffer headerEnd fuel line scan)
      (scanHeaders lib supported fuel' (buffer.drop line) (headerEnd - line) (scan.octets buffer)) := by
  induction fuel generalizing fuel' line scan with
  | zero => omega
  | succ fuel ih =>
      have unchanged := Scans.unchanged buffer inside
      rw [consumed] at unchanged
      unfold scanHeadersAt
      by_cases before : line < headerEnd
      case neg =>
        rw [if_neg before, show headerEnd - line = 0 by omega]
        cases fuel' with
        | zero => exact unchanged true
        | succ fuel' => exact unchanged true
      obtain ⟨fuel', rfl⟩ : ∃ n, fuel' = n + 1 := ⟨fuel' - 1, by omega⟩
      have slice (n : Nat) : (buffer.drop line).take n = Slice.octets ⟨line, n⟩ buffer := rfl
      rw [if_pos before, sub_ok (Nat.le_of_lt before), ok_bind, memchrAt_ok _ (by omega), ok_bind,
        scanHeaders, if_neg (by omega), slice]
      cases cr : memchr 0x0d (Slice.octets ⟨line, headerEnd - line + 1⟩ buffer) with
      | none => exact unchanged false
      | some lineLen =>
          have lineEnd := memchr_octets cr
          have behind : (buffer.drop line).getD (lineLen + 1) 0 = buffer.getD (line + lineLen + 1) 0 := by
            simp [List.getElem?_drop, Nat.add_assoc]
          dsimp only [Option.map_some]
          rw [if_neg (by omega), read_ok (by omega) 0, ok_bind, behind]
          by_cases lf : buffer.getD (line + lineLen + 1) 0 ≠ 0x0a
          · rw [if_pos lf, if_pos lf]
            exact unchanged false
          rw [if_neg lf, if_neg lf, sub_ok (by omega), ok_bind, Nat.add_sub_cancel_left]
          by_cases empty : lineLen = 0
          · rw [if_pos empty, if_pos empty]
            exact unchanged true
          rw [if_neg empty, if_neg empty, memchrAt_ok _ (by omega), ok_bind, slice]
          cases colon : memchr 0x3a (Slice.octets ⟨line, lineLen⟩ buffer) with
          | none => exact unchanged false
          | some nameLen =>
              have nameEnd := memchr_octets colon
              obtain ⟨name, nameTrimmed, nameWithin, nameOctets⟩ :=
                trimAt_ok (show Slice.stop ⟨line, nameLen⟩ ≤ buffer.length by
                  simp only [Slice.stop]; omega)
              obtain ⟨value, valueTrimmed, valueWithin, valueOctets⟩ :=
                trimAt_ok (show Slice.stop ⟨line + (nameLen + 1), lineLen - (nameLen + 1)⟩ ≤
                  buffer.length by simp only [Slice.stop]; omega)
              have nameInside : name.stop ≤ scan.upgrade.bytesConsumed := by
                have within := nameWithin.2
                simp only [Slice.stop] at within ⊢
                omega
              have valueInside : value.stop ≤ scan.upgrade.bytesConsumed := by
                have within := valueWithin.2
                simp only [Slice.stop] at within ⊢
                omega
              have scanned := scanHeaderAt_ok lib supported inside
                (show scan.upgrade.bytesConsumed ≤ buffer.length by omega) nameInside valueInside
              obtain ⟨after, run, result, afterInside, afterConsumed⟩ := scanned.ends
              dsimp only [Option.map_some]
              rw [sub_ok (by omega), ok_bind, Nat.add_sub_cancel_left, sub_ok (by omega), ok_bind,
                sub_ok (by omega), ok_bind, nameTrimmed, ok_bind, Nat.sub_sub,
                Nat.add_assoc line nameLen 1, valueTrimmed, ok_bind, run, ok_bind, slice,
                Slice.octets_drop, ← nameOctets, ← valueOctets, result]
              cases valid : after.1 with
              | false =>
                  exact ⟨⟨after, rfl, by rw [valid]; rfl, afterInside, by omega⟩⟩
              | true =>
                  have next := @ih fuel' (line + lineLen + 2) _
                    (by omega) (by omega) (by omega) afterInside (by omega)
                  rw [List.drop_drop, ← Nat.add_assoc, show headerEnd - line - (lineLen + 2) =
                    headerEnd - (line + lineLen + 2) by omega]
                  exact next

theorem fresh_inside (consumed : Nat) : UpgradeAt.Inside { bytesConsumed := consumed } :=
  ⟨Nat.zero_le _, Nat.zero_le _, nofun, Nat.le_refl _⟩

end

/-- The answer on octets that a status and a record stand for. -/
def UpgradeStatus.result (status : UpgradeStatus) (upgrade : UpgradeAt) (buffer : Bytes) :
    UpgradeResult :=
  match status with
  | .incomplete => .incomplete
  | .ok => .ok (upgrade.octets buffer)
  | .invalid => .invalid

/-- On checked memory the parser of the opening request ends without a fault on every buffer, with
    the answer of the parser on octets; it has consumed no more than there is, and all that it
    has recorded, whatever the answer, lies in the octets consumed. -/
theorem upgradeParser_inside (lib : PhpLib) (supported : List Bytes) (buffer : Bytes) :
    ∃ status upgrade, parseUpgradeAt lib supported buffer = .ok (status, upgrade) ∧
      parseUpgrade lib supported buffer = status.result upgrade buffer ∧
      upgrade.bytesConsumed ≤ buffer.length ∧ upgrade.Inside := by
  rw [parseUpgradeAt, parseUpgrade]
  by_cases long : buffer.length > httpMaxRequestSize
  · rw [if_pos long, if_pos long]
    exact ⟨.invalid, {}, rfl, rfl, Nat.zero_le _, fresh_inside 0⟩
  rw [if_neg long, if_neg long, findHeaderEndAt_ok, ok_bind]
  cases found : findHeaderEnd buffer with
  | none => exact ⟨.incomplete, {}, rfl, rfl, Nat.zero_le _, fresh_inside 0⟩
  | some headerEnd =>
      have present := findHeaderEnd_le found
      have refused : ∃ status upgrade, Except.ok (UpgradeStatus.invalid,
            { bytesConsumed := headerEnd + 4 }) = (.ok (status, upgrade) : Checked _) ∧
          UpgradeResult.invalid = status.result upgrade buffer ∧
          upgrade.bytesConsumed ≤ buffer.length ∧ upgrade.Inside :=
        ⟨.invalid, _, rfl, rfl, present, fresh_inside _⟩
      have slice (n : Nat) : buffer.take n = Slice.octets ⟨0, n⟩ buffer := rfl
      dsimp only
      rw [memchrAt_ok _ (by omega), ok_bind, slice]
      cases cr : memchr 0x0d (Slice.octets ⟨0, headerEnd⟩ buffer) with
      | none => exact refused
      | some requestLineEnd =>
          have before := memchr_octets cr
          dsimp only [Option.map_some]
          rw [Nat.zero_add, if_neg (by omega), read_ok (by omega) 0, ok_bind]
          by_cases lf : buffer.getD (requestLineEnd + 1) 0 ≠ 0x0a
          · rw [if_pos lf, if_pos lf]
            exact refused
          obtain ⟨line, parsed, octets, inside⟩ := parseRequestLineAt_ok
            (show Slice.stop ⟨0, requestLineEnd⟩ ≤ buffer.length by simp only [Slice.stop]; omega)
          rw [if_neg lf, if_neg lf, parsed, ok_bind, slice, octets]
          cases line with
          | none => exact refused
          | some line =>
              obtain ⟨method, target⟩ := inside line rfl
              simp only [Slice.stop, Nat.zero_add] at method target
              have scanned := scanHeadersAt_ok lib supported present
                { upgrade := { method := line.1, target := line.2, bytesConsumed := headerEnd + 4 } }
                (show headerEnd < requestLineEnd + 2 + (headerEnd + 1) by omega) (by omega)
                (show headerEnd ≤ requestLineEnd + 2 + headerEnd by omega)
                ⟨by simp only [Slice.stop]; omega, by simp only [Slice.stop]; omega,
                  fun _ member => absurd member List.not_mem_nil, Nat.le_refl _⟩ rfl
              obtain ⟨after, run, result, afterInside, afterConsumed⟩ := scanned.ends
              have within : after.2.upgrade.bytesConsumed ≤ buffer.length := by omega
              have fields : ScanAt.octets
                  { upgrade := { method := line.1, target := line.2, bytesConsumed := headerEnd + 4 } }
                  buffer =
                  { upgrade := { method := line.1.octets buffer, target := line.2.octets buffer,
                                 bytesConsumed := headerEnd + 4 } } := rfl
              rw [fields] at result
              dsimp only [Option.map_some]
              rw [run, ok_bind, result]
              by_cases valid : after.1 = true
              case neg =>
                rw [if_neg valid, if_pos (by simp [valid])]
                exact ⟨.invalid, _, rfl, rfl, within, afterInside⟩
              rw [if_pos valid, if_neg (by simp [valid])]
              dsimp only [ScanAt.octets, UpgradeAt.octets]
              split
              · exact ⟨.invalid, _, rfl, rfl, within, afterInside⟩
              · exact ⟨.ok, _, rfl, rfl, within, afterInside⟩

end PhpWebSocket
