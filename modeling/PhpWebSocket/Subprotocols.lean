import PhpWebSocket.RequestHeaders

/-! # Subprotocols

A request offers tokens in any number of headers. The selection is made at the first token
that the server supports and is carried through the headers, while the check of the tokens
goes on; the selected token is sent back in the response, between lines that are fixed.
-/

namespace PhpWebSocket

open Lib

/-- The tokens offered by a request, top to bottom and left to right. -/
def offeredTokens (headers : List HttpHeader) : List Bytes :=
  (valuesOf "Sec-WebSocket-Protocol" headers).flatMap fun value =>
    (value.splitOn 0x2c).map (strip isBlank)

/-! ## The selection -/

theorem selectSubprotocol_selected {supported parts : List Bytes} {selected after : Option Bytes}
    (read : selectSubprotocol supported parts selected = some after) :
    after = selected.or ((parts.map trim).find? (· ∈ supported)) := by
  induction parts generalizing selected with
  | nil =>
      cases read
      rw [List.map_nil, List.find?_nil, Option.or_none]
  | cons part parts ih =>
      unfold selectSubprotocol at read
      dsimp only at read
      split at read
      · cases read
      rw [ih read, List.map_cons, List.find?_cons]
      cases selected with
      | some token => rfl
      | none =>
          by_cases member : trim part ∈ supported
          · have some_supported : supported ≠ [] := List.ne_nil_of_mem member
            simp [member, some_supported]
          · simp [member]

theorem scanHeader_selected {lib : PhpLib} {supported : List Bytes} {header : HttpHeader}
    {scan after : HeaderScan}
    (read : scanHeader lib supported header.name header.value scan = some after) :
    if equalsCi header.name (ascii "Sec-WebSocket-Protocol") then
      selectSubprotocol supported (commaParts header.value) scan.upgrade.selectedSubprotocol =
        some after.upgrade.selectedSubprotocol
    else after.upgrade.selectedSubprotocol = scan.upgrade.selectedSubprotocol := by
  have other {known : String} (named : equalsCi header.name (ascii known) = true)
      (differ : equalsCi (ascii known) (ascii "Sec-WebSocket-Protocol") = false) :
      equalsCi header.name (ascii "Sec-WebSocket-Protocol") ≠ true :=
    Bool.eq_false_iff.mp (equalsCi_other named differ)
  unfold scanHeader at read
  dsimp only at read
  split at read
  · rename_i upgrade
    cases read
    rw [if_neg (other upgrade (by decide +kernel))]
  split at read
  · rename_i connection
    cases read
    rw [if_neg (other connection (by decide +kernel))]
  split at read
  · rename_i version
    cases read
    rw [if_neg (other version (by decide +kernel))]
  split at read
  · rename_i key
    rw [if_neg (other key (by decide +kernel))]
    repeat' split at read
    all_goals cases read
    rfl
  split at read
  · rename_i protocol
    rw [if_pos protocol]
    split at read
    · cases read
    · rename_i selected
      cases read
      exact selected
  · rename_i unknown
    cases read
    rw [if_neg unknown]

theorem offeredTokens_append (headers : List HttpHeader) (header : HttpHeader) :
    offeredTokens (headers ++ [header]) =
      if equalsCi header.name (ascii "Sec-WebSocket-Protocol") then
        offeredTokens headers ++ (commaParts header.value).map trim
      else offeredTokens headers := by
  rw [offeredTokens]
  cases named : equalsCi header.name (ascii "Sec-WebSocket-Protocol") with
  | true =>
      rw [valuesOf_append_eq named, List.flatMap_append, if_pos rfl, commaParts_eq]
      congr 1
      exact List.flatMap_singleton ..
  | false => rw [valuesOf_append_ne named, if_neg Bool.false_ne_true, offeredTokens]

theorem scanFields_selected {lib : PhpLib} {supported : List Bytes} {headers : List HttpHeader}
    {scan after : HeaderScan} (read : scanFields lib supported headers scan = some after) :
    after.upgrade.selectedSubprotocol =
      scan.upgrade.selectedSubprotocol.or ((offeredTokens headers).find? (· ∈ supported)) := by
  induction headers using List.reverseRecOn generalizing after with
  | nil =>
      cases read
      exact Option.or_none.symm
  | append_singleton headers header ih =>
      rw [scanFields_append] at read
      obtain ⟨before, earlier, last⟩ := Option.bind_eq_some_iff.mp read
      have step := scanHeader_selected last
      rw [offeredTokens_append]
      split at step
      · rename_i named
        rw [if_pos named, List.find?_append, ← Option.or_assoc, ← ih earlier,
          selectSubprotocol_selected step]
      · rename_i other
        rw [if_neg other, step, ih earlier]

/-! ## The checks -/

theorem HeadLines.unique {buffer requestLine requestLine' : Bytes} {lines lines' : List Bytes}
    (head : HeadLines buffer requestLine lines) (head' : HeadLines buffer requestLine' lines') :
    lines = lines' := by
  obtain ⟨h, empty, text, free⟩ := head
  obtain ⟨h', empty', text', free'⟩ := head'
  have same := findHeaderEnd_eq_some.mpr empty
  rw [findHeaderEnd_eq_some.mpr empty'] at same
  cases same
  have split := splitLines_eq_some.mpr ⟨List.cons_ne_nil _ _, free, text⟩
  rw [splitLines_eq_some.mpr ⟨List.cons_ne_nil _ _, free', text'⟩] at split
  cases split
  rfl

theorem HeadLines.not_incomplete {buffer requestLine : Bytes} {lines : List Bytes}
    (head : HeadLines buffer requestLine lines) (lib : PhpLib) (supported : List Bytes) :
    parseUpgrade lib supported buffer ≠ .incomplete := by
  obtain ⟨h, empty, -, -⟩ := head
  by_cases long : buffer.length > httpMaxRequestSize
  · rw [parseUpgrade, if_pos long]
    exact UpgradeResult.noConfusion
  · rw [parseUpgrade_eq_parseHead lib supported (Nat.le_of_not_lt long) empty]
    exact parseHead_not_incomplete _

theorem forall₂_header {lines : List Bytes} {headers : List HttpHeader}
    (atHeaders : List.Forall₂ HeaderLine lines headers) {line : Bytes} (among : line ∈ lines)
    {header : HttpHeader} (atLine : HeaderLine line header) : header ∈ headers := by
  induction atHeaders with
  | nil => cases among
  | @cons first other lines headers atFirst _ ih =>
      rcases List.mem_cons.mp among with rfl | later
      · have same := headerLine_eq_some.mpr atFirst
        rw [headerLine_eq_some.mpr atLine] at same
        cases same
        exact List.mem_cons_self
      · exact List.mem_cons_of_mem other (ih later)

/-- One invalid token in a header line, wherever it stands, and the request is refused. -/
theorem invalid_token {lib : PhpLib} {supported : List Bytes} {buffer requestLine : Bytes}
    {lines : List Bytes} (head : HeadLines buffer requestLine lines) {line : Bytes}
    (among : line ∈ lines) {header : HttpHeader} (atLine : HeaderLine line header)
    (named : equalsCi header.name (ascii "Sec-WebSocket-Protocol") = true) {element : Bytes}
    (inside : Element header.value element) (invalid : ¬ IsToken element) :
    parseUpgrade lib supported buffer = .invalid := by
  cases result : parseUpgrade lib supported buffer with
  | invalid => rfl
  | incomplete => exact absurd result (head.not_incomplete lib supported)
  | ok upgrade =>
      obtain ⟨_, _, headers, method, target, consumed, scan, head', atHeaders, scanned, -⟩ :=
        accepted_scan result
      cases head.unique head'
      have fresh : Scanned lib [] { upgrade := { method, target, bytesConsumed := consumed } } :=
        ⟨rfl, rfl, rfl, rfl⟩
      obtain ⟨after, -, -, permitted⟩ | ⟨refused, -⟩ := scanFields_cases supported fresh headers
      · have listed : header.value ∈ valuesOf "Sec-WebSocket-Protocol" headers :=
          List.mem_map_of_mem (List.mem_filter.mpr ⟨forall₂_header atHeaders among atLine, named⟩)
        exact absurd (permitted.protocols _ listed _ inside) invalid
      · rw [scanned] at refused
        cases refused

/-! ## The response -/

theorem strips_front {left core : Bytes} (blanks : ∀ c ∈ left, isBlank c = true)
    (free : ∀ c ∈ core, isBlank c = false) : Strips isBlank (left ++ core) core where
  ends := ⟨left, [], (List.append_nil _).symm, blanks, nofun⟩
  front _ first := free _ (List.mem_of_mem_head? first)
  back _ last := free _ (List.mem_of_mem_getLast? last)

/-- A field as it is written reads back as it was. -/
theorem headerLine_field {name value : Bytes} (plain : 0x3a ∉ name)
    (nameFree : ∀ c ∈ name, isBlank c = false) (valueFree : ∀ c ∈ value, isBlank c = false) :
    HeaderLine (name ++ ascii ": " ++ value) ⟨name, value⟩ :=
  ⟨name, 0x20 :: value, List.append_assoc .., plain, strips_front (List.forall_mem_nil _) nameFree,
    strips_front (List.forall_mem_singleton.mpr rfl) valueFree⟩

/-- `base64_encode` writes letters, digits, `+`, `/` and `=`. -/
def PhpLib.WritesBase64 (lib : PhpLib) : Prop :=
  ∀ input, ∀ c ∈ lib.base64Encode input,
    c ∈ ascii "ABCDEFGHIJKLMNOPQRSTUVWXYZabcdefghijklmnopqrstuvwxyz0123456789+/="

/-- An octet that stands for itself in a response. -/
def Printable (c : UInt8) : Prop := c ≠ 0 ∧ c ≠ 0x0d ∧ isBlank c = false

instance : DecidablePred Printable := fun c =>
  inferInstanceAs (Decidable (c ≠ 0 ∧ c ≠ 0x0d ∧ isBlank c = false))

theorem PhpLib.WritesBase64.printable {lib : PhpLib} (writes : lib.WritesBase64) (key : Bytes) :
    ∀ c ∈ acceptKeyOf lib key, Printable c := by
  intro c member
  have letter := writes _ c member
  revert letter
  generalize c = d
  revert d
  decide +kernel

theorem IsToken.printable {token : Bytes} (valid : IsToken token) : ∀ c ∈ token, Printable c := by
  intro c member
  obtain ⟨low, -, -⟩ := valid.2 c member
  rw [UInt8.lt_iff_toNat_lt] at low
  refine ⟨?_, ?_, ?_⟩
  · rintro rfl
    exact absurd low (by decide)
  · rintro rfl
    exact absurd low (by decide)
  · rw [isBlank, Bool.or_eq_false_iff, decide_eq_false_iff_not, decide_eq_false_iff_not]
    constructor
    · rintro rfl
      exact absurd low (by decide)
    · rintro rfl
      exact absurd low (by decide)

/-- The header lines of the response. -/
def responseFields (acceptKey : Bytes) (selected : Option Bytes) : List HttpHeader :=
  [⟨ascii "Upgrade", ascii "websocket"⟩, ⟨ascii "Connection", ascii "Upgrade"⟩,
    ⟨ascii "Sec-WebSocket-Accept", acceptKey⟩] ++
    selected.toList.map fun token => ⟨ascii "Sec-WebSocket-Protocol", token⟩

/-- A header line as it is written. -/
def fieldLine (header : HttpHeader) : Bytes := header.name ++ ascii ": " ++ header.value

theorem upgradeResponse_eq {acceptKey : Bytes} {selected : Option Bytes} (key : 0 ∉ acceptKey)
    (token : ∀ t ∈ selected, 0 ∉ t) :
    upgradeResponse acceptKey selected =
      endLines 0x0d 0x0a (ascii "HTTP/1.1 101 Switching Protocols" ::
        (responseFields acceptKey selected).map fieldLine) ++ crlf := by
  have fixed : ascii "HTTP/1.1 101 Switching Protocols\r\nUpgrade: websocket\r\nConnection: Upgrade\r\n" =
      endLines 0x0d 0x0a [ascii "HTTP/1.1 101 Switching Protocols",
        fieldLine ⟨ascii "Upgrade", ascii "websocket"⟩,
        fieldLine ⟨ascii "Connection", ascii "Upgrade"⟩] := by decide +kernel
  have accept : ascii "Sec-WebSocket-Accept: " = ascii "Sec-WebSocket-Accept" ++ ascii ": " := by
    decide +kernel
  have protocol : ascii "Sec-WebSocket-Protocol: " = ascii "Sec-WebSocket-Protocol" ++ ascii ": " := by
    decide +kernel
  rw [upgradeResponse.eq_def, fixed, accept, protocol, cString_eq key]
  cases selected with
  | none => simp [responseFields, endLines, fieldLine, crlf]
  | some t => simp [responseFields, endLines, fieldLine, crlf, cString_eq (token t rfl)]

theorem upgradeResponse_lines {acceptKey : Bytes} {selected : Option Bytes}
    (key : ∀ c ∈ acceptKey, Printable c) (token : ∀ t ∈ selected, ∀ c ∈ t, Printable c) :
    splitLines 0x0d 0x0a (upgradeResponse acceptKey selected) =
        some (ascii "HTTP/1.1 101 Switching Protocols" ::
          (responseFields acceptKey selected).map fieldLine ++ [[], []]) ∧
      List.Forall₂ HeaderLine ((responseFields acceptKey selected).map fieldLine)
        (responseFields acceptKey selected) := by
  have free : ∀ header ∈ responseFields acceptKey selected,
      (0x3a ∉ header.name ∧ ∀ c ∈ header.name, Printable c) ∧ ∀ c ∈ header.value, Printable c := by
    rw [responseFields, List.forall_mem_append, List.forall_mem_map]
    constructor
    · have accept : 0x3a ∉ ascii "Sec-WebSocket-Accept" ∧
          ∀ c ∈ ascii "Sec-WebSocket-Accept", Printable c := by decide +kernel
      rw [List.forall_mem_cons, List.forall_mem_cons, List.forall_mem_singleton]
      exact ⟨by decide +kernel, by decide +kernel, accept, key⟩
    · have protocol : 0x3a ∉ ascii "Sec-WebSocket-Protocol" ∧
          ∀ c ∈ ascii "Sec-WebSocket-Protocol", Printable c := by decide +kernel
      intro t member
      exact ⟨protocol, token t (Option.mem_toList.mp member)⟩
  constructor
  · have lines : ∀ line ∈ ascii "HTTP/1.1 101 Switching Protocols" ::
        (responseFields acceptKey selected).map fieldLine, 0x0d ∉ line := by
      rw [List.forall_mem_cons, List.forall_mem_map]
      refine ⟨by decide +kernel, ?_⟩
      intro header member inside
      obtain ⟨⟨-, name⟩, value⟩ := free header member
      rw [fieldLine, List.mem_append, List.mem_append] at inside
      rcases inside with (inName | between) | inValue
      · exact (name _ inName).2.1 rfl
      · exact absurd between (by decide +kernel)
      · exact (value _ inValue).2.1 rfl
    rw [upgradeResponse_eq (fun zero => (key _ zero).1 rfl) fun t member zero =>
      (token t member _ zero).1 rfl, splitLines_endLines lines]
    rfl
  · rw [List.forall₂_map_left_iff, List.forall₂_same]
    intro header member
    obtain ⟨⟨plain, name⟩, value⟩ := free header member
    exact headerLine_field plain (fun c inside => (name c inside).2.2)
      fun c inside => (value c inside).2.2

/-- The selected subprotocol of an accepted request is the first offered token that the server
    supports; the response, line by line, says it and the accept key; one invalid token refuses
    the request. -/
theorem subprotocol_negotiated {lib : PhpLib} (writes : lib.WritesBase64) (supported : List Bytes)
    (buffer : Bytes) :
    (∀ upgrade, parseUpgrade lib supported buffer = .ok upgrade →
      (∃ requestLine lines, HeadLines buffer requestLine lines ∧
        List.Forall₂ HeaderLine lines upgrade.headers) ∧
      upgrade.selectedSubprotocol = (offeredTokens upgrade.headers).find? (· ∈ supported) ∧
      (upgrade.selectedSubprotocol = none ↔
        ∀ token ∈ offeredTokens upgrade.headers, token ∉ supported) ∧
      ∃ key fields, valuesOf "Sec-WebSocket-Key" upgrade.headers = [key] ∧
        upgrade.acceptKey = some (acceptKeyOf lib key) ∧
        splitLines 0x0d 0x0a
            (upgradeResponse (acceptKeyOf lib key) upgrade.selectedSubprotocol) =
          some (ascii "HTTP/1.1 101 Switching Protocols" :: fields ++ [[], []]) ∧
        List.Forall₂ HeaderLine fields
          (responseFields (acceptKeyOf lib key) upgrade.selectedSubprotocol)) ∧
      ∀ requestLine lines, HeadLines buffer requestLine lines →
        ∀ line ∈ lines, ∀ header, HeaderLine line header →
          equalsCi header.name (ascii "Sec-WebSocket-Protocol") = true →
          ∀ element, Element header.value element → ¬ IsToken element →
            parseUpgrade lib supported buffer = .invalid := by
  refine ⟨fun upgrade accepted => ⟨accepted_headers accepted, ?_⟩,
    fun _ _ head _ among _ atLine named _ inside invalid =>
      invalid_token head among atLine named inside invalid⟩
  obtain ⟨_, _, headers, method, target, consumed, scan, -, -, scanned, flags, rfl⟩ :=
    accepted_scan accepted
  have fresh : Scanned lib [] { upgrade := { method, target, bytesConsumed := consumed } } :=
    ⟨rfl, rfl, rfl, rfl⟩
  have recorded : scan.upgrade.headers = headers := scanFields_headers scanned
  have selected : scan.upgrade.selectedSubprotocol =
      (offeredTokens headers).find? (· ∈ supported) := scanFields_selected scanned
  have asks : AsksUpgrade lib headers := (asksUpgrade_iff fresh).mpr ⟨scan, scanned, flags⟩
  obtain ⟨key, decoded, single, -, -⟩ := asks.key
  obtain ⟨after, again, summary, -⟩ | ⟨refused, -⟩ := scanFields_cases supported fresh headers
  swap
  · rw [scanned] at refused
    cases refused
  cases scanned.symm.trans again
  have acceptKey : scan.upgrade.acceptKey = some (acceptKeyOf lib key) := by
    rw [summary.acceptKey, single]
    rfl
  have token : ∀ t ∈ scan.upgrade.selectedSubprotocol, ∀ c ∈ t, Printable c := by
    intro t chosen
    rw [selected] at chosen
    obtain ⟨value, listed, inside⟩ := List.mem_flatMap.mp (List.mem_of_find?_eq_some chosen)
    obtain ⟨part, member, rfl⟩ := List.mem_map.mp inside
    exact (asks.protocols value listed _ ⟨part, member, strip_strips isBlank part⟩).printable
  obtain ⟨lines, fields⟩ := upgradeResponse_lines (writes.printable key) token
  rw [recorded]
  refine ⟨selected, ?_, key, _, single, acceptKey, lines, fields⟩
  rw [selected, List.find?_eq_none]
  simp only [decide_eq_true_eq]

theorem sampleLib_writesBase64 : sampleLib.WritesBase64 := by
  intro input c member
  unfold sampleLib at member
  dsimp only at member
  split at member
  · revert member
    generalize c = d
    revert d
    decide +kernel
  · cases member

/-- The sample request with three offers in two headers. -/
def offeringRequest : Bytes :=
  ascii "GET /chat HTTP/1.1\r\nSec-WebSocket-Protocol: video,\tchat\r\n" ++
    ascii "sec-websocket-protocol: superchat\r\n" ++ sampleRequest.drop 20

theorem subprotocol_negotiated_second :
    ∃ upgrade, parseUpgrade sampleLib [ascii "superchat", ascii "chat"] offeringRequest = .ok upgrade ∧
      upgrade.selectedSubprotocol = some (ascii "chat") := by
  cases accepted : parseUpgrade sampleLib [ascii "superchat", ascii "chat"] offeringRequest with
  | incomplete => exact absurd accepted (by decide +kernel)
  | invalid => exact absurd accepted (by decide +kernel)
  | ok upgrade =>
      have offered : (match parseUpgrade sampleLib [ascii "superchat", ascii "chat"] offeringRequest with
          | .ok upgrade => offeredTokens upgrade.headers
          | _ => []) = [ascii "video", ascii "chat", ascii "superchat"] := by decide +kernel
      rw [accepted] at offered
      dsimp only at offered
      obtain ⟨-, selected, -⟩ := (subprotocol_negotiated sampleLib_writesBase64
        [ascii "superchat", ascii "chat"] offeringRequest).1 upgrade accepted
      rw [offered] at selected
      exact ⟨upgrade, rfl, selected.trans (by decide +kernel)⟩

end PhpWebSocket
