import PhpWebSocket.Subprotocols

/-! # The text of a rejection

`HandshakeResponse::__construct` checks what `websocket_server_send_handshake_response` writes
out later: the status, the names as tokens, and that no value has a CR or an LF. The lines of
the text are then the ones that were asked for, and only the body stands behind the first empty
line, whatever is in it.
-/

namespace PhpWebSocket

open Lib

/-! ## The constructor -/

/-- A key of a PHP array. -/
inductive HeaderKey where
  | int (key : Int64)
  | string (name : Bytes)
  deriving DecidableEq

/-- A value of the header array; `other` is one that is not a string. -/
inductive HeaderValue where
  | string (value : Bytes)
  | other (typeName : String)
  deriving DecidableEq

/-- `websocket_header_value_is_valid`. -/
def headerValueIsValid (value : Bytes) : Bool :=
  (memchr 0x0d value).isNone && (memchr 0x0a value).isNone

/-- The loop over the header array. -/
def normalizeHeaders : List (HeaderKey × HeaderValue) → Except PhpError (List (Bytes × Bytes))
  | [] => .ok []
  | (.int _, _) :: _ => .error (.argumentValueError 2 "must contain valid HTTP header names")
  | (.string name, value) :: headers =>
      if !validateSubprotocolToken name then
        .error (.argumentValueError 2 "must contain valid HTTP header names")
      else
        match value with
        | .other typeName =>
            .error (.typeError ("must contain string header values, " ++ typeName ++ " given"))
        | .string value =>
            if !headerValueIsValid value then
              .error (.argumentValueError 2 "must contain HTTP header values without CR or LF")
            else
              match normalizeHeaders headers with
              | .error e => .error e
              | .ok normalized => .ok ((name, value) :: normalized)

/-- `HandshakeResponse::__construct`. -/
def HandshakeResponse.construct (status : Int64) (headers : List (HeaderKey × HeaderValue))
    (body : Bytes) : Except PhpError HandshakeResponse :=
  if valid : status.toInt < 100 ∨ status.toInt > 599 ∨ status.toInt = 101 then
    .error (.argumentValueError 1 "must be a valid non-101 HTTP status code")
  else
    match normalizeHeaders headers with
    | .error e => .error e
    | .ok normalized =>
        .ok { status := status.toInt, headers := normalized, body, status_valid := by omega }

/-- A header that the constructor lets through. -/
structure SafeHeader (header : Bytes × Bytes) : Prop where
  name : IsToken header.1
  value : 0x0d ∉ header.2 ∧ 0x0a ∉ header.2

theorem memchr_isNone {c : UInt8} {b : Bytes} : (memchr c b).isNone = true ↔ c ∉ b := by
  obtain ⟨absent, missing⟩ | ⟨front, rest, rfl, -, found⟩ := memchr_cases c b
  · rw [missing]
    exact iff_of_true rfl absent
  · rw [found]
    exact iff_of_false nofun (not_not_intro (by simp))

theorem normalizeHeaders_ok {headers : List (HeaderKey × HeaderValue)}
    {normalized : List (Bytes × Bytes)} (built : normalizeHeaders headers = .ok normalized) :
    headers = normalized.map (fun header => (.string header.1, .string header.2)) ∧
      ∀ header ∈ normalized, SafeHeader header := by
  induction headers generalizing normalized with
  | nil =>
      cases built
      exact ⟨rfl, nofun⟩
  | cons entry headers ih =>
      match entry with
      | (.int _, _) => cases built
      | (.string name, value) =>
          rw [normalizeHeaders.eq_def] at built
          dsimp only at built
          split at built
          · cases built
          rename_i token
          match value with
          | .other typeName => cases built
          | .string value =>
              dsimp only at built
              split at built
              · cases built
              rename_i clean
              cases rest : normalizeHeaders headers with
              | error e =>
                  rw [rest] at built
                  cases built
              | ok others =>
                  rw [rest] at built
                  cases built
                  obtain ⟨same, safe⟩ := ih rest
                  rw [Bool.not_eq_true', Bool.not_eq_false] at token clean
                  rw [headerValueIsValid, Bool.and_eq_true, memchr_isNone, memchr_isNone] at clean
                  exact ⟨by rw [List.map_cons, same],
                    List.forall_mem_cons.mpr ⟨⟨validateSubprotocolToken_iff.mp token, clean⟩, safe⟩⟩

/-! ## The text -/

theorem ascii_append (a b : String) : ascii (a ++ b) = ascii a ++ ascii b := by
  simp [ascii, String.toByteArray_append]

theorem ascii_toString (n : Nat) :
    ascii (toString n) = (Nat.toDigits 10 n).flatMap String.utf8EncodeChar := by
  rw [ascii, Nat.toString_eq_ofList_toDigits]
  simp [List.utf8Encode]

theorem octet_of_digit {c : Char} (digit : c.isDigit = true) :
    ∀ x ∈ String.utf8EncodeChar c, x ∈ ascii "0123456789" := by
  have digits : ∀ n : Fin 10, ∀ x ∈ String.utf8EncodeChar (Char.ofNat (48 + n)),
      x ∈ ascii "0123456789" := by decide +kernel
  have bounds : 48 ≤ c.toNat ∧ c.toNat ≤ 57 := by
    simp [Char.isDigit, UInt32.le_iff_toNat_le] at digit
    exact digit
  have here := digits ⟨c.toNat - 48, by omega⟩
  rw [Nat.add_sub_cancel' bounds.1, Char.ofNat_toNat] at here
  exact here

theorem digits_toString (n : Nat) : ∀ x ∈ ascii (toString n), x ∈ ascii "0123456789" := by
  intro x member
  rw [ascii_toString, List.mem_flatMap] at member
  obtain ⟨c, among, inside⟩ := member
  exact octet_of_digit (Nat.isDigit_of_mem_toDigits (by decide) (by decide) among) x inside

def statusLine (status : Int) : Bytes :=
  ascii ("HTTP/1.1 " ++ toString status ++ " " ++ reasonPhrase status)

def contentLengthLine (body : Bytes) : Bytes := ascii ("Content-Length: " ++ toString body.length)

/-- Some header has the name, in any case. -/
def Named (headers : List (Bytes × Bytes)) (name : String) : Prop :=
  ∃ header ∈ headers, equalsCi header.1 (ascii name) = true

instance (headers : List (Bytes × Bytes)) (name : String) : Decidable (Named headers name) :=
  inferInstanceAs (Decidable (∃ header ∈ headers, equalsCi header.1 (ascii name) = true))

/-- The lines of the text. -/
def responseLines (response : HandshakeResponse) : List Bytes :=
  statusLine response.status ::
    (response.headers.map fun header => header.1 ++ ascii ": " ++ header.2) ++
    (if Named response.headers "Connection" then [] else [ascii "Connection: close"]) ++
    (if Named response.headers "Content-Length" then [] else [contentLengthLine response.body])

theorem handshakeResponseText_eq (response : HandshakeResponse) :
    handshakeResponseText response =
      endLines 0x0d 0x0a (responseLines response) ++ crlf ++ response.body := by
  have named (name : String) :
      (response.headers.any fun header => equalsCi header.1 (ascii name)) =
        decide (Named response.headers name) := by
    rw [Bool.eq_iff_iff, List.any_eq_true, decide_eq_true_eq, Named]
  have fields : (response.headers.flatMap fun header =>
      header.1 ++ ascii ": " ++ header.2 ++ crlf) =
      endLines 0x0d 0x0a (response.headers.map fun header => header.1 ++ ascii ": " ++ header.2) := by
    rw [endLines, List.flatMap_map]
    rfl
  have optional (p : Prop) [Decidable p] (line : Bytes) :
      (if p then [] else line ++ crlf) = endLines 0x0d 0x0a (if p then [] else [line]) := by
    split
    · rfl
    · exact (List.append_nil _).symm
  have length : ascii ("Content-Length: " ++ toString response.body.length) =
      contentLengthLine response.body := rfl
  have status : ascii ("HTTP/1.1 " ++ toString response.status ++ " " ++
      reasonPhrase response.status) = statusLine response.status := rfl
  unfold handshakeResponseText
  simp only [named, decide_eq_true_eq]
  rw [fields, status, length, optional, optional, responseLines, List.cons_append, List.cons_append,
    endLines_cons, endLines_append, endLines_append]
  simp [crlf]

/-- An octet that ends no line. -/
def Inline (c : UInt8) : Prop := c ≠ 0x0d ∧ c ≠ 0x0a

instance : DecidablePred Inline := fun c => inferInstanceAs (Decidable (c ≠ 0x0d ∧ c ≠ 0x0a))

theorem reasonPhrase_inline (status : Int) : ∀ c ∈ ascii (reasonPhrase status), Inline c := by
  unfold reasonPhrase
  repeat' split
  all_goals decide +kernel

theorem digits_inline (n : Nat) : ∀ c ∈ ascii (toString n), Inline c := by
  intro c member
  have digit := digits_toString n c member
  revert digit
  generalize c = d
  revert d
  decide +kernel

theorem statusLine_inline {status : Int} (positive : 0 ≤ status) :
    ∀ c ∈ statusLine status, Inline c := by
  obtain ⟨n, rfl⟩ := Int.eq_ofNat_of_zero_le positive
  have shown : toString (n : Int) = toString n := rfl
  rw [statusLine, ascii_append, ascii_append, ascii_append, shown]
  simp only [List.forall_mem_append]
  exact ⟨⟨⟨by decide +kernel, digits_inline n⟩, by decide +kernel⟩, reasonPhrase_inline _⟩

theorem contentLengthLine_inline (body : Bytes) : ∀ c ∈ contentLengthLine body, Inline c := by
  rw [contentLengthLine, ascii_append]
  simp only [List.forall_mem_append]
  exact ⟨by decide +kernel, digits_inline _⟩

theorem ascii_ne_nil {text : String} (some_octet : ascii text ≠ []) (rest : String) :
    ascii (text ++ rest) ≠ [] := by
  rw [ascii_append]
  exact List.append_ne_nil_of_left_ne_nil some_octet _

theorem IsToken.inline {name : Bytes} (token : IsToken name) : ∀ c ∈ name, Inline c := by
  intro c member
  obtain ⟨low, -, -⟩ := token.2 c member
  rw [UInt8.lt_iff_toNat_lt] at low
  constructor
  · rintro rfl
    exact absurd low (by decide)
  · rintro rfl
    exact absurd low (by decide)

theorem responseLines_inline {response : HandshakeResponse}
    (safe : ∀ header ∈ response.headers, SafeHeader header) :
    ∀ line ∈ responseLines response, line ≠ [] ∧ ∀ c ∈ line, Inline c := by
  have positive : 0 ≤ response.status := by
    have valid := response.status_valid
    omega
  have optional (p : Prop) [Decidable p] {line : Bytes} (good : line ≠ [] ∧ ∀ c ∈ line, Inline c) :
      ∀ l ∈ (if p then [] else [line]), l ≠ [] ∧ ∀ c ∈ l, Inline c := by
    split
    · nofun
    · exact List.forall_mem_singleton.mpr good
  have written : ∀ header ∈ response.headers, header.1 ++ ascii ": " ++ header.2 ≠ [] ∧
      ∀ c ∈ header.1 ++ ascii ": " ++ header.2, Inline c := by
    intro header member
    obtain ⟨token, cr, lf⟩ := safe header member
    rw [List.forall_mem_append, List.forall_mem_append]
    refine ⟨?_, ⟨token.inline, by decide +kernel⟩, fun c inside => ⟨?_, ?_⟩⟩
    · exact List.append_ne_nil_of_left_ne_nil (List.append_ne_nil_of_left_ne_nil token.1 _) _
    · rintro rfl
      exact cr inside
    · rintro rfl
      exact lf inside
  rw [responseLines, List.forall_mem_append, List.forall_mem_append, List.forall_mem_cons,
    List.forall_mem_map]
  exact ⟨⟨⟨⟨ascii_ne_nil (ascii_ne_nil (ascii_ne_nil (by decide +kernel) _) _) _,
    statusLine_inline positive⟩, written⟩,
    optional _ (by decide +kernel)⟩,
    optional _ ⟨ascii_ne_nil (by decide +kernel) _, contentLengthLine_inline _⟩⟩

/-- The text of a response that the constructor lets through ends its header at its first empty
    line. Up to there it has the status line, one line for each header as it was given, and the
    two headers of its own where they were not given; behind it stands the body. -/
theorem rejection_not_split {status : Int64} {headers : List (HeaderKey × HeaderValue)}
    {body : Bytes} {response : HandshakeResponse}
    (built : HandshakeResponse.construct status headers body = .ok response) :
    ∃ entries, headers = entries.map (fun entry => (.string entry.1, .string entry.2)) ∧
      (∀ entry ∈ entries, SafeHeader entry) ∧
      ∃ h lines, FirstEmptyLine (handshakeResponseText response) h ∧
        splitLines 0x0d 0x0a ((handshakeResponseText response).take h) = some lines ∧
        lines = statusLine status.toInt ::
          (entries.map fun entry => entry.1 ++ ascii ": " ++ entry.2) ++
          (if Named entries "Connection" then [] else [ascii "Connection: close"]) ++
          (if Named entries "Content-Length" then []
            else [ascii ("Content-Length: " ++ toString body.length)]) ∧
        (∀ line ∈ lines, 0x0a ∉ line) ∧
        (handshakeResponseText response).drop (h + 4) = body := by
  unfold HandshakeResponse.construct at built
  split at built
  · cases built
  cases normalized : normalizeHeaders headers with
  | error e =>
      rw [normalized] at built
      cases built
  | ok entries =>
      rw [normalized] at built
      cases built
      obtain ⟨same, safe⟩ := normalizeHeaders_ok normalized
      refine ⟨entries, same, safe, ?_⟩
      generalize response_eq : HandshakeResponse.mk status.toInt entries body _ = response
      have inline := responseLines_inline
        (show ∀ header ∈ response.headers, SafeHeader header by rw [← response_eq]; exact safe)
      have some_line : responseLines response ≠ [] := nofun
      have free : ∀ line ∈ responseLines response, 0x0d ∉ line := fun line member cr =>
        ((inline line member).2 _ cr).1 rfl
      have text : handshakeResponseText response =
          crlf.intercalate (responseLines response) ++ (crlf ++ crlf ++ response.body) := by
        rw [handshakeResponseText_eq, endLines_eq some_line]
        simp [crlf]
      have found := findHeaderEnd_lines some_line free (fun line member => (inline line member).1)
        response.body
      refine ⟨(crlf.intercalate (responseLines response)).length, responseLines response, ?_, ?_, ?_,
        fun line member lf => ((inline line member).2 _ lf).2 rfl, ?_⟩
      · rw [text]
        exact findHeaderEnd_eq_some.mp found
      · rw [text, List.take_left]
        exact splitLines_intercalate some_line free
      · rw [← response_eq]
        rfl
      · rw [text, ← List.drop_drop, List.drop_left, ← response_eq]
        rfl

theorem rejection_not_split_retry :
    ∃ response, HandshakeResponse.construct 429 [(.string (ascii "Retry-After"), .string (ascii "5: x"))]
        (ascii "a\r\n\r\nb") = .ok response ∧
      ∃ h, FirstEmptyLine (handshakeResponseText response) h ∧
        (handshakeResponseText response).drop (h + 4) = ascii "a\r\n\r\nb" := by
  cases built : HandshakeResponse.construct 429
      [(.string (ascii "Retry-After"), .string (ascii "5: x"))] (ascii "a\r\n\r\nb") with
  | error e =>
      have accepted : (HandshakeResponse.construct 429
          [(.string (ascii "Retry-After"), .string (ascii "5: x"))] (ascii "a\r\n\r\nb")).isOk = true := by
        decide +kernel
      rw [built] at accepted
      cases accepted
  | ok response =>
      obtain ⟨entries, -, -, h, lines, empty, -, -, -, behind⟩ := rejection_not_split built
      exact ⟨response, rfl, h, empty, behind⟩

end PhpWebSocket
