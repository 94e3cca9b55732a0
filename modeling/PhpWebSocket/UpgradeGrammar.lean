import PhpWebSocket.HeaderBlock
import PhpWebSocket.Lib.Lines

/-! # The grammar of the opening request

What `websocket_http_parse_upgrade` accepts, said without its pointers: the octets
before the first empty line are a request line and header lines, and a few headers must
have the right values. The parser's searches end at different places, before, at or
behind the empty line, but nothing behind the empty line takes part in the result.
-/

namespace PhpWebSocket

open Lib

/-! ## The grammar -/

/-- The first CRLFCRLF of a buffer stands at `h`. -/
structure FirstEmptyLine (buffer : Bytes) (h : Nat) : Prop where
  here : crlf ++ crlf <+: buffer.drop h
  first : ∀ k < h, ¬ crlf ++ crlf <+: buffer.drop k

/-- A request line, with method and version in any case. -/
def RequestLine (line : Bytes) : Prop :=
  ∃ method target version, line = method ++ 0x20 :: (target ++ 0x20 :: version) ∧
    equalsCi method (ascii "GET") ∧ target ≠ [] ∧ 0x20 ∉ target ∧
    equalsCi version (ascii "HTTP/1.1")

/-- A header line: its name ends at the first colon. -/
def HeaderLine (line : Bytes) (header : HttpHeader) : Prop :=
  ∃ name value, line = name ++ 0x3a :: value ∧ 0x3a ∉ name ∧
    Strips isBlank name header.name ∧ Strips isBlank value header.value

/-- An element of a comma-separated value. -/
def Element (value element : Bytes) : Prop :=
  ∃ part ∈ value.splitOn 0x2c, Strips isBlank part element

/-- A subprotocol token: printable ASCII without separators. -/
def IsToken (value : Bytes) : Prop :=
  value ≠ [] ∧ ∀ c ∈ value, 0x20 < c ∧ c < 0x7f ∧ c ∉ ascii "()<>@,;:\\\"/[]?=\x7b\x7d"

/-- The values of the headers of one name, in order. -/
def valuesOf (name : String) (headers : List HttpHeader) : List Bytes :=
  (headers.filter fun header => equalsCi header.name (ascii name)).map (·.value)

/-- The headers ask for an upgrade. -/
structure AsksUpgrade (lib : PhpLib) (headers : List HttpHeader) : Prop where
  upgrade : ∃ value element, (valuesOf "Upgrade" headers).getLast? = some value ∧
    Element value element ∧ equalsCi element (ascii "websocket")
  connection : ∃ value element, (valuesOf "Connection" headers).getLast? = some value ∧
    Element value element ∧ equalsCi element (ascii "upgrade")
  version : (valuesOf "Sec-WebSocket-Version" headers).getLast? = some (ascii "13")
  key : ∃ value decoded, valuesOf "Sec-WebSocket-Key" headers = [value] ∧
    lib.base64DecodeStrict value = some decoded ∧ decoded.length = 16
  protocols : ∀ value ∈ valuesOf "Sec-WebSocket-Protocol" headers, ∀ element,
    Element value element → IsToken element

/-- What stands before the first empty line of a request that asks for an upgrade. -/
def UpgradeHead (lib : PhpLib) (head : Bytes) : Prop :=
  ∃ requestLine lines headers, head = crlf.intercalate (requestLine :: lines) ∧
    (∀ line ∈ requestLine :: lines, 0x0d ∉ line) ∧ RequestLine requestLine ∧
    List.Forall₂ HeaderLine lines headers ∧ AsksUpgrade lib headers

/-! ## Searching -/

theorem memchr_found {c : UInt8} {front : Bytes} (absent : c ∉ front) (rest : Bytes) :
    memchr c (front ++ c :: rest) = some front.length := by
  induction front with
  | nil => rw [List.nil_append, memchr, if_pos rfl, List.length_nil]
  | cons b front ih =>
      rw [List.mem_cons, not_or] at absent
      rw [List.cons_append, memchr, if_neg (Ne.symm absent.1), ih absent.2]
      rfl

theorem memchr_absent {c : UInt8} {b : Bytes} (absent : c ∉ b) : memchr c b = none := by
  induction b with
  | nil => rfl
  | cons x rest ih =>
      rw [List.mem_cons, not_or] at absent
      rw [memchr, if_neg (Ne.symm absent.1), ih absent.2]
      rfl

theorem memchr_cases (c : UInt8) (b : Bytes) :
    (c ∉ b ∧ memchr c b = none) ∨
      ∃ front rest, b = front ++ c :: rest ∧ c ∉ front ∧ memchr c b = some front.length := by
  by_cases present : c ∈ b
  · obtain ⟨front, rest, rfl, absent⟩ := List.eq_append_cons_of_mem present
    exact Or.inr ⟨front, rest, rfl, absent, memchr_found absent rest⟩
  · exact Or.inl ⟨present, memchr_absent present⟩

theorem drop_past (front : Bytes) (c : UInt8) (rest : Bytes) :
    (front ++ c :: rest).drop (front.length + 1) = rest := by
  rw [← List.drop_drop, List.drop_left, List.drop_one, List.tail_cons]

theorem getD_past (front : Bytes) (c : UInt8) (rest : Bytes) :
    (front ++ c :: rest).getD (front.length + 1) 0 = rest.headD 0 := by
  rw [List.getD_eq_getElem?_getD, ← List.head?_drop, drop_past, List.headD_eq_head?_getD]

theorem findHeaderEnd_drop {front b : Bytes} {k : Nat}
    (found : findHeaderEnd (front ++ b) = some (front.length + k)) : findHeaderEnd b = some k := by
  induction front with
  | nil => simpa only [List.nil_append, List.length_nil, Nat.zero_add] using found
  | cons x front ih =>
      rw [List.cons_append, findHeaderEnd, List.length_cons] at found
      split at found
      · have same := Option.some.inj found
        omega
      · obtain ⟨j, later, same⟩ := Option.map_eq_some_iff.mp found
        apply ih
        rw [later]
        congr 1
        omega

theorem empty_line_iff {b : Bytes} : b.take 4 = crlf ++ crlf ↔ crlf ++ crlf <+: b := by
  rw [List.prefix_iff_eq_take]
  exact eq_comm

theorem findHeaderEnd_eq_some {buffer : Bytes} {h : Nat} :
    findHeaderEnd buffer = some h ↔ FirstEmptyLine buffer h := by
  induction buffer generalizing h with
  | nil =>
      constructor
      · intro found
        cases found
      · intro empty
        have here := empty.here
        rw [List.drop_nil, List.prefix_nil] at here
        cases here
  | cons x rest ih =>
      unfold findHeaderEnd
      split
      · rename_i start
        rw [empty_line_iff] at start
        constructor
        · intro same
          cases same
          exact ⟨start, fun j before => absurd before (Nat.not_lt_zero j)⟩
        · intro empty
          rcases Nat.eq_zero_or_pos h with rfl | later
          · rfl
          · exact absurd start (empty.first 0 later)
      · rename_i start
        rw [empty_line_iff] at start
        rw [Option.map_eq_some_iff]
        constructor
        · rintro ⟨k, found, rfl⟩
          have empty := ih.mp found
          refine ⟨empty.here, ?_⟩
          intro j before
          cases j with
          | zero => exact start
          | succ j => exact empty.first j (by omega)
        · intro empty
          cases h with
          | zero => exact absurd empty.here start
          | succ h =>
              refine ⟨h, ih.mpr ⟨empty.here, ?_⟩, rfl⟩
              intro j before
              exact empty.first (j + 1) (by omega)

theorem findHeaderEnd_eq_none {buffer : Bytes} :
    findHeaderEnd buffer = none ↔ ¬ crlf ++ crlf <:+: buffer := by
  induction buffer with
  | nil =>
      rw [List.infix_nil]
      exact ⟨fun _ empty => List.cons_ne_nil _ _ empty, fun _ => rfl⟩
  | cons x rest ih =>
      rw [findHeaderEnd, List.infix_cons_iff, ← empty_line_iff]
      split
      · rename_i start
        exact ⟨fun found => absurd found (Option.some_ne_none _), fun none => absurd (Or.inl start) none⟩
      · rename_i start
        rw [Option.map_eq_none_iff, ih, not_or]
        exact (and_iff_right start).symm

/-! ## The request line -/

theorem equalsCi_iff {value expected : Bytes} :
    equalsCi value expected = true ↔ value.map toLower = expected.map toLower :=
  decide_eq_true_iff

theorem space_notMem_method {method : Bytes} (get : equalsCi method (ascii "GET")) :
    0x20 ∉ method := by
  intro member
  have lower := List.mem_map_of_mem (f := toLower) member
  rw [equalsCi_iff.mp get] at lower
  revert lower
  decide +kernel

theorem parseRequestLine_isSome {line : Bytes} :
    (∃ parts, parseRequestLine line = some parts) ↔ RequestLine line := by
  unfold parseRequestLine
  constructor
  · rintro ⟨parts, parsed⟩
    obtain ⟨_, missing⟩ | ⟨method, later, rfl, _, found⟩ := memchr_cases 0x20 line
    · rw [missing] at parsed
      cases parsed
    rw [found] at parsed
    dsimp only at parsed
    rw [List.take_left, drop_past] at parsed
    split at parsed
    · cases parsed
    rename_i get
    obtain ⟨_, missing⟩ | ⟨target, version, rfl, free, found⟩ := memchr_cases 0x20 later
    · rw [missing] at parsed
      cases parsed
    rw [found] at parsed
    dsimp only at parsed
    rw [drop_past] at parsed
    split at parsed
    · cases parsed
    rename_i empty
    split at parsed
    · cases parsed
    rename_i http
    refine ⟨method, target, version, rfl, by simpa using get, ?_, free, by simpa using http⟩
    intro nothing
    exact empty (List.length_eq_zero_iff.mpr nothing)
  · rintro ⟨method, target, version, rfl, get, target_nonempty, free, http⟩
    rw [memchr_found (space_notMem_method get)]
    dsimp only
    rw [List.take_left, drop_past, get, memchr_found free]
    dsimp only
    rw [drop_past, http, if_neg (mt List.length_eq_zero_iff.mp target_nonempty)]
    exact ⟨_, rfl⟩

/-! ## The header lines -/

/-- The name and the value of a header line. -/
def headerLine (line : Bytes) : Option HttpHeader :=
  (memchr 0x3a line).map fun nameLen =>
    ⟨trim (line.take nameLen), trim (line.drop (nameLen + 1))⟩

theorem headerLine_eq_some {line : Bytes} {header : HttpHeader} :
    headerLine line = some header ↔ HeaderLine line header := by
  rw [headerLine, Option.map_eq_some_iff]
  constructor
  · rintro ⟨nameLen, found, rfl⟩
    obtain ⟨_, missing⟩ | ⟨name, value, rfl, free, first⟩ := memchr_cases 0x3a line
    · rw [missing] at found
      cases found
    · rw [first] at found
      cases found
      rw [List.take_left, drop_past]
      exact ⟨name, value, rfl, free, strip_strips isBlank name, strip_strips isBlank value⟩
  · rintro ⟨name, value, rfl, free, atName, atValue⟩
    refine ⟨name.length, memchr_found free value, ?_⟩
    rw [List.take_left, drop_past]
    exact congrArg₂ HttpHeader.mk atName.strip_eq atValue.strip_eq

variable (lib : PhpLib) (supported : List Bytes)

/-- The loop over the header lines, without the buffer they stand in. -/
def scanLines : List Bytes → HeaderScan → Option HeaderScan
  | [], scan => some scan
  | line :: lines, scan =>
      (headerLine line).bind fun header =>
        (scanHeader lib supported header.name header.value scan).bind (scanLines lines)

theorem scanHeaders_done (fuel : Nat) (line : Bytes) (scan : HeaderScan) :
    scanHeaders lib supported fuel line 0 scan = some scan := by
  cases fuel with
  | zero => rfl
  | succ fuel => rw [scanHeaders, if_pos rfl]

theorem scanHeaders_line (fuel : Nat) {line : Bytes} (free : 0x0d ∉ line) (nonempty : line ≠ [])
    (rest : Bytes) {remaining : Nat} (inside : line.length ≤ remaining) (scan : HeaderScan) :
    scanHeaders lib supported (fuel + 1) (line ++ 0x0d :: 0x0a :: rest) remaining scan =
      (headerLine line).bind fun header =>
        (scanHeader lib supported header.name header.value scan).bind
          (scanHeaders lib supported fuel rest (remaining - (line.length + 2))) := by
  have some_octet : line.length ≠ 0 := mt List.length_eq_zero_iff.mp nonempty
  have window : (line ++ 0x0d :: 0x0a :: rest).take (remaining + 1) =
      line ++ 0x0d :: (0x0a :: rest).take (remaining - line.length) := by
    rw [List.take_append, List.take_of_length_le (by omega),
      show remaining + 1 - line.length = remaining - line.length + 1 by omega, List.take_succ_cons]
  have behind : (line ++ 0x0d :: 0x0a :: rest).drop (line.length + 2) = rest := by
    rw [← List.drop_drop (i := 1), drop_past]
    rfl
  rw [scanHeaders, if_neg (by omega), window, memchr_found free]
  dsimp only
  rw [getD_past, List.headD_cons, if_neg (not_not_intro rfl), if_neg some_octet, List.take_left,
    behind, headerLine]
  cases colon : memchr 0x3a line with
  | none => rfl
  | some nameLen =>
      have short := memchr_lt colon
      dsimp only [Option.map_some, Option.bind_some]
      rw [List.take_append_of_le_length (by omega)]
      cases scanHeader lib supported (trim (line.take nameLen)) (trim (line.drop (nameLen + 1)))
        scan with
      | none => rfl
      | some scan => rfl

theorem scanHeaders_broken (fuel : Nat) {line : Bytes} (free : 0x0d ∉ line) {rest : Bytes}
    (broken : rest.headD 0 ≠ 0x0a) {remaining : Nat} (some_octet : remaining ≠ 0)
    (inside : line.length ≤ remaining) (scan : HeaderScan) :
    scanHeaders lib supported (fuel + 1) (line ++ 0x0d :: rest) remaining scan = none := by
  have window : (line ++ 0x0d :: rest).take (remaining + 1) =
      line ++ 0x0d :: rest.take (remaining - line.length) := by
    rw [List.take_append, List.take_of_length_le (by omega),
      show remaining + 1 - line.length = remaining - line.length + 1 by omega, List.take_succ_cons]
  rw [scanHeaders, if_neg some_octet, window, memchr_found free]
  dsimp only
  rw [getD_past, if_pos broken]

theorem headD_broken {rest : Bytes} (broken : rest.head? ≠ some 0x0a) (tail : Bytes) :
    (rest ++ (crlf ++ crlf ++ tail)).headD 0 ≠ 0x0a := by
  cases rest with
  | nil => exact (by decide : (0x0d : UInt8) ≠ 0x0a)
  | cons y rest => exact fun same => broken (congrArg some same)

/-- The loop reads the lines before the empty line. `text` stands behind a line end, and
    the first empty line is the one behind `text`. -/
theorem scanHeaders_eq (tail : Bytes) (fuel : Nat) {text : Bytes} (nonempty : text ≠ [])
    (enough : text.length ≤ fuel)
    (empty : findHeaderEnd (crlf ++ (text ++ (crlf ++ crlf ++ tail))) = some (2 + text.length))
    (scan : HeaderScan) :
    scanHeaders lib supported fuel (text ++ (crlf ++ crlf ++ tail)) text.length scan =
      (splitLines 0x0d 0x0a text).bind fun lines => scanLines lib supported lines scan := by
  induction fuel generalizing text scan with
  | zero => exact absurd (List.length_eq_zero_iff.mp (Nat.le_zero.mp enough)) nonempty
  | succ fuel ih =>
      have some_octet : text.length ≠ 0 := mt List.length_eq_zero_iff.mp nonempty
      obtain ⟨line, free, rfl | ⟨rest, rfl⟩ | ⟨rest, broken, rfl⟩⟩ := exists_line 0x0d 0x0a text
      · have shape : text ++ (crlf ++ crlf ++ tail) = text ++ 0x0d :: 0x0a :: (crlf ++ tail) := rfl
        rw [shape, scanHeaders_line lib supported fuel free nonempty _ le_rfl,
          Nat.sub_eq_zero_of_le (by omega), splitLines_free free]
        simp only [scanHeaders_done]
        rfl
      · have later : findHeaderEnd (crlf ++ (rest ++ (crlf ++ crlf ++ tail))) =
            some (2 + rest.length) := by
          apply @findHeaderEnd_drop (crlf ++ line)
          have shape : crlf ++ (line ++ 0x0d :: 0x0a :: rest ++ (crlf ++ crlf ++ tail)) =
              (crlf ++ line) ++ (crlf ++ (rest ++ (crlf ++ crlf ++ tail))) := by
            simp only [List.append_assoc]
            rfl
          rw [← shape, empty]
          simp only [List.length_append, List.length_cons, crlf, List.length_nil]
          congr 1
          omega
        have line_nonempty : line ≠ [] := by
          rintro rfl
          cases empty
        have rest_nonempty : rest ≠ [] := by
          rintro rfl
          cases later
        have shape : line ++ 0x0d :: 0x0a :: rest ++ (crlf ++ crlf ++ tail) =
            line ++ 0x0d :: 0x0a :: (rest ++ (crlf ++ crlf ++ tail)) := by
          rw [List.append_assoc]
          rfl
        have size : (line ++ 0x0d :: 0x0a :: rest).length = line.length + 2 + rest.length := by
          simp only [List.length_append, List.length_cons]
          omega
        rw [shape, size, scanHeaders_line lib supported fuel free line_nonempty _ (by omega),
          Nat.add_sub_cancel_left, splitLines_line free]
        simp only [ih rest_nonempty (by omega) later]
        cases splitLines 0x0d 0x0a rest with
        | none =>
            simp only [Option.map_none, Option.bind_none, Option.bind_fun_none]
        | some lines => rfl
      · have shape : line ++ 0x0d :: rest ++ (crlf ++ crlf ++ tail) =
            line ++ 0x0d :: (rest ++ (crlf ++ crlf ++ tail)) := List.append_assoc ..
        rw [shape, scanHeaders_broken lib supported fuel free (headD_broken broken tail) some_octet
          (by rw [List.length_append]; omega), splitLines_broken free broken]
        rfl

/-! ## The head as a whole -/

/-- What the parser makes of the octets before the first empty line. -/
def parseHead (head : Bytes) : UpgradeResult :=
  match splitLines 0x0d 0x0a head with
  | none | some [] => .invalid
  | some (requestLine :: lines) =>
      match parseRequestLine requestLine with
      | none => .invalid
      | some (method, target) =>
          match scanLines lib supported lines
              { upgrade := { method, target, bytesConsumed := head.length + 4 } } with
          | none => .invalid
          | some scan =>
              if !scan.hasUpgrade || !scan.hasConnection || !scan.hasVersion ||
                  scan.upgrade.acceptKey.isNone then .invalid
              else .ok scan.upgrade

/-- The result is a function of the octets before the first empty line. -/
theorem parseUpgrade_eq_parseHead {buffer : Bytes} (within : buffer.length ≤ httpMaxRequestSize)
    {h : Nat} (empty : FirstEmptyLine buffer h) :
    parseUpgrade lib supported buffer = parseHead lib supported (buffer.take h) := by
  have found := findHeaderEnd_eq_some.mpr empty
  have room := findHeaderEnd_le found
  obtain ⟨tail, behind⟩ := empty.here
  have shape := (List.take_append_drop h buffer).symm
  rw [← behind] at shape
  have size : (buffer.take h).length = h := List.length_take_of_le (by omega)
  rw [parseUpgrade, if_neg (Nat.not_lt.mpr within), found]
  dsimp only
  generalize buffer.take h = head at shape size ⊢
  subst shape size
  clear behind room within
  obtain ⟨line, free, rfl | ⟨rest, rfl⟩ | ⟨rest, broken, rfl⟩⟩ := exists_line 0x0d 0x0a head
  · rw [memchr_absent free, parseHead, splitLines_free free]
    dsimp only
    cases parseRequestLine head with
    | none => rfl
    | some parts => rfl
  · have later : findHeaderEnd (crlf ++ (rest ++ (crlf ++ crlf ++ tail))) =
        some (2 + rest.length) := by
      apply @findHeaderEnd_drop line
      have shape : line ++ 0x0d :: 0x0a :: rest ++ (crlf ++ crlf ++ tail) =
          line ++ (crlf ++ (rest ++ (crlf ++ crlf ++ tail))) := List.append_assoc ..
      rw [← shape, found]
      simp only [List.length_append, List.length_cons]
      congr 1
      omega
    have rest_nonempty : rest ≠ [] := by
      rintro rfl
      cases later
    have behind : (line ++ 0x0d :: 0x0a :: (rest ++ (crlf ++ crlf ++ tail))).drop
        (line.length + 2) = rest ++ (crlf ++ crlf ++ tail) := by
      rw [← List.drop_drop (i := 1), drop_past]
      rfl
    have shape : line ++ 0x0d :: 0x0a :: rest ++ (crlf ++ crlf ++ tail) =
        line ++ 0x0d :: 0x0a :: (rest ++ (crlf ++ crlf ++ tail)) := List.append_assoc ..
    have size : (line ++ 0x0d :: 0x0a :: rest).length - (line.length + 2) = rest.length := by
      simp only [List.length_append, List.length_cons]
      omega
    have enough : rest.length ≤ (line ++ 0x0d :: 0x0a :: rest).length := by omega
    rw [memchr_found free, parseHead, splitLines_line free, shape]
    dsimp only
    rw [getD_past, List.headD_cons, if_neg (not_not_intro rfl), List.take_left, behind, size]
    simp only [scanHeaders_eq lib supported tail _ rest_nonempty enough later]
    cases splitLines 0x0d 0x0a rest with
    | none =>
        cases parseRequestLine line with
        | none => rfl
        | some parts => rfl
    | some lines => rfl
  · have shape : line ++ 0x0d :: rest ++ (crlf ++ crlf ++ tail) =
        line ++ 0x0d :: (rest ++ (crlf ++ crlf ++ tail)) := List.append_assoc ..
    rw [memchr_found free, parseHead, splitLines_broken free broken, shape]
    dsimp only
    rw [getD_past, if_pos (headD_broken broken tail)]

/-! ## The values -/

theorem commaParts_eq (value : Bytes) : commaParts value = value.splitOn 0x2c := by
  induction value with
  | nil => rfl
  | cons b rest ih =>
      rw [commaParts, List.splitOn_cons_eq_if_modifyHead, ih]
      by_cases comma : b = 0x2c
      · rw [if_pos comma, if_pos (beq_iff_eq.mpr comma)]
      · rw [if_neg comma, if_neg (mt beq_iff_eq.mp comma)]
        cases parts : rest.splitOn 0x2c with
        | nil => exact absurd parts (List.splitOn_ne_nil _ _)
        | cons part parts => rfl

theorem element_iff {value element : Bytes} :
    Element value element ↔ ∃ part ∈ commaParts value, trim part = element := by
  rw [Element, commaParts_eq]
  exact exists_congr fun part => and_congr_right fun _ => strip_eq_iff.symm

theorem headerContainsToken_iff {value token : Bytes} :
    headerContainsToken value token = true ↔
      ∃ element, Element value element ∧ equalsCi element token := by
  rw [headerContainsToken, List.any_eq_true]
  constructor
  · rintro ⟨part, member, same⟩
    exact ⟨trim part, element_iff.mpr ⟨part, member, rfl⟩, same⟩
  · rintro ⟨element, inside, same⟩
    obtain ⟨part, member, rfl⟩ := element_iff.mp inside
    exact ⟨part, member, same⟩

theorem validateSubprotocolToken_iff {value : Bytes} :
    validateSubprotocolToken value = true ↔ IsToken value := by
  rw [validateSubprotocolToken, Bool.and_eq_true, decide_eq_true_iff, List.all_eq_true, IsToken]
  refine and_congr_right fun _ => forall₂_congr fun c _ => ?_
  rw [isSeparator, Bool.and_eq_true, Bool.not_eq_true', Bool.not_eq_true', Bool.or_eq_false_iff,
    decide_eq_false_iff_not, decide_eq_false_iff_not, decide_eq_false_iff_not, and_assoc,
    UInt8.not_le, UInt8.not_le]

theorem selectSubprotocol_isSome {supported parts : List Bytes} {selected : Option Bytes} :
    (∃ after, selectSubprotocol supported parts selected = some after) ↔
      ∀ part ∈ parts, IsToken (trim part) := by
  induction parts generalizing selected with
  | nil => exact ⟨fun _ => nofun, fun _ => ⟨selected, rfl⟩⟩
  | cons part parts ih =>
      rw [selectSubprotocol, List.forall_mem_cons, ← validateSubprotocolToken_iff]
      dsimp only
      cases valid : validateSubprotocolToken (trim part) with
      | false => exact ⟨nofun, fun both => nomatch both.1⟩
      | true =>
          rw [Bool.not_true, if_neg Bool.false_ne_true, ih]
          exact (and_iff_right rfl).symm

theorem protocols_iff {supported : List Bytes} {value : Bytes} {selected : Option Bytes} :
    (∃ after, selectSubprotocol supported (commaParts value) selected = some after) ↔
      ∀ element, Element value element → IsToken element := by
  rw [selectSubprotocol_isSome]
  constructor
  · intro tokens element inside
    obtain ⟨part, member, rfl⟩ := element_iff.mp inside
    exact tokens part member
  · intro tokens part member
    exact tokens _ (element_iff.mpr ⟨part, member, rfl⟩)

theorem toLower_eq_of_lt {c : UInt8} (below : toLower c < 0x41) : toLower c = c := by
  unfold toLower at below ⊢
  split
  · rename_i letter
    rw [if_pos letter, UInt8.lt_iff_toNat_lt, UInt8.toNat_add] at below
    rw [Bool.and_eq_true, decide_eq_true_iff, decide_eq_true_iff, UInt8.le_iff_toNat_le,
      UInt8.le_iff_toNat_le] at letter
    have first : (0x41 : UInt8).toNat = 0x41 := rfl
    have last : (0x5a : UInt8).toNat = 0x5a := rfl
    have gap : (0x20 : UInt8).toNat = 0x20 := rfl
    omega
  · rfl

theorem equalsCi_version {value : Bytes} :
    equalsCi value (ascii "13") = true ↔ value = ascii "13" := by
  rw [equalsCi_iff]
  constructor
  · intro same
    have digits : ∀ c ∈ value, toLower c = id c := by
      intro c member
      apply toLower_eq_of_lt
      have lower := List.mem_map_of_mem (f := toLower) member
      rw [same] at lower
      revert lower
      generalize toLower c = d
      revert d
      decide +kernel
    rw [List.map_congr_left digits, List.map_id] at same
    rw [same]
    decide +kernel
  · rintro rfl
    rfl

/-! ## The headers -/

/-- A key that decodes to 16 octets. -/
def ValidKey (value : Bytes) : Prop :=
  ∃ decoded, lib.base64DecodeStrict value = some decoded ∧ decoded.length = 16

theorem validateKey_eq_some {value key : Bytes} :
    validateKey lib value = some key ↔ ValidKey lib value ∧ acceptKeyOf lib value = key := by
  rw [validateKey, ValidKey]
  cases lib.base64DecodeStrict value with
  | none => exact ⟨nofun, fun ⟨⟨_, missing, _⟩, _⟩ => nomatch missing⟩
  | some decoded =>
      dsimp only
      split
      · rename_i size
        refine ⟨nofun, ?_⟩
        rintro ⟨⟨_, same, right⟩, _⟩
        cases same
        exact absurd right size
      · rename_i size
        rw [Option.some_inj]
        exact (and_iff_right ⟨decoded, rfl, not_not.mp size⟩).symm

theorem equalsCi_other {name known : Bytes} (same : equalsCi name known = true) {other : Bytes}
    (differ : equalsCi known other = false) : equalsCi name other = false := by
  rw [equalsCi, equalsCi_iff.mp same]
  exact differ

/-- What the header lines `headers` make of the flags and the key. -/
structure Scanned (headers : List HttpHeader) (scan : HeaderScan) : Prop where
  hasUpgrade : scan.hasUpgrade = (valuesOf "Upgrade" headers).getLast?.any
    (headerContainsToken · (ascii "websocket"))
  hasConnection : scan.hasConnection = (valuesOf "Connection" headers).getLast?.any
    (headerContainsToken · (ascii "upgrade"))
  hasVersion : scan.hasVersion = (valuesOf "Sec-WebSocket-Version" headers).getLast?.any
    (equalsCi · (ascii "13"))
  acceptKey : scan.upgrade.acceptKey =
    (valuesOf "Sec-WebSocket-Key" headers).getLast?.map (acceptKeyOf lib)

/-- No header line is refused: there is at most one key, and all keys and tokens are valid. -/
structure Permitted (headers : List HttpHeader) : Prop where
  keys : (valuesOf "Sec-WebSocket-Key" headers).length ≤ 1
  key : ∀ value ∈ valuesOf "Sec-WebSocket-Key" headers, ValidKey lib value
  protocols : ∀ value ∈ valuesOf "Sec-WebSocket-Protocol" headers, ∀ element,
    Element value element → IsToken element

theorem valuesOf_append_eq {name : String} {header : HttpHeader}
    (named : equalsCi header.name (ascii name) = true) (headers : List HttpHeader) :
    valuesOf name (headers ++ [header]) = valuesOf name headers ++ [header.value] := by
  rw [valuesOf, List.filter_append, List.filter_singleton, named, List.map_append]
  rfl

theorem valuesOf_append_ne {name : String} {header : HttpHeader}
    (named : equalsCi header.name (ascii name) = false) (headers : List HttpHeader) :
    valuesOf name (headers ++ [header]) = valuesOf name headers := by
  rw [valuesOf, List.filter_append, List.filter_singleton, named, List.map_append]
  exact List.append_nil _

theorem valuesOf_append_other {known name : String} {header : HttpHeader}
    (named : equalsCi header.name (ascii known) = true)
    (differ : equalsCi (ascii known) (ascii name) = false) (headers : List HttpHeader) :
    valuesOf name (headers ++ [header]) = valuesOf name headers :=
  valuesOf_append_ne (equalsCi_other named differ) headers

variable {lib} {headers : List HttpHeader} {header : HttpHeader}

theorem Permitted.append (permitted : Permitted lib headers)
    (keys : valuesOf "Sec-WebSocket-Key" (headers ++ [header]) = valuesOf "Sec-WebSocket-Key" headers)
    (protocols : valuesOf "Sec-WebSocket-Protocol" (headers ++ [header]) =
      valuesOf "Sec-WebSocket-Protocol" headers) : Permitted lib (headers ++ [header]) := by
  constructor
  · rw [keys]
    exact permitted.keys
  · rw [keys]
    exact permitted.key
  · rw [protocols]
    exact permitted.protocols

variable {supported}

theorem Permitted.of_append (permitted : Permitted lib (headers ++ [header])) :
    Permitted lib headers := by
  have inside (name : String) : List.Sublist (valuesOf name headers)
      (valuesOf name (headers ++ [header])) := by
    rw [valuesOf, valuesOf, List.filter_append, List.map_append]
    exact List.sublist_append_left _ _
  exact ⟨(inside _).length_le.trans permitted.keys,
    fun value member => permitted.key value ((inside _).subset member),
    fun value member => permitted.protocols value ((inside _).subset member)⟩

theorem Permitted.append_key (permitted : Permitted lib headers)
    (named : equalsCi header.name (ascii "Sec-WebSocket-Key") = true) :
    Permitted lib (headers ++ [header]) ↔
      valuesOf "Sec-WebSocket-Key" headers = [] ∧ ValidKey lib header.value := by
  have keys := valuesOf_append_eq named headers
  constructor
  · intro after
    have single := after.keys
    rw [keys, List.length_append, List.length_singleton] at single
    refine ⟨List.length_eq_zero_iff.mp (by omega), after.key _ ?_⟩
    rw [keys]
    exact List.mem_append_right _ (List.mem_singleton_self _)
  · rintro ⟨first, valid⟩
    rw [first, List.nil_append] at keys
    constructor
    · rw [keys, List.length_singleton]
    · rw [keys]
      exact List.forall_mem_singleton.mpr valid
    · rw [valuesOf_append_other named (by decide +kernel)]
      exact permitted.protocols

theorem Permitted.append_protocol (permitted : Permitted lib headers)
    (named : equalsCi header.name (ascii "Sec-WebSocket-Protocol") = true) :
    Permitted lib (headers ++ [header]) ↔
      ∀ element, Element header.value element → IsToken element := by
  have keys : valuesOf "Sec-WebSocket-Key" (headers ++ [header]) = _ :=
    valuesOf_append_other named (by decide +kernel) headers
  have protocols := valuesOf_append_eq named headers
  constructor
  · intro after
    apply after.protocols
    rw [protocols]
    exact List.mem_append_right _ (List.mem_singleton_self _)
  · intro tokens
    constructor
    · rw [keys]
      exact permitted.keys
    · rw [keys]
      exact permitted.key
    · rw [protocols, List.forall_mem_append]
      exact ⟨permitted.protocols, List.forall_mem_singleton.mpr tokens⟩

theorem getLast?_valuesOf (name : String) (headers : List HttpHeader) (header : HttpHeader) :
    (valuesOf name (headers ++ [header])).getLast? =
      if equalsCi header.name (ascii name) then some header.value
      else (valuesOf name headers).getLast? := by
  split
  · rename_i named
    rw [valuesOf_append_eq named, List.getLast?_concat]
  · rename_i named
    rw [valuesOf_append_ne (Bool.eq_false_iff.mpr named)]

/-- One header line more, as it is read: each flag and the key follow the last header of
    their name. -/
theorem Scanned.read {scan after : HeaderScan} (scanned : Scanned lib headers scan)
    (hasUpgrade : after.hasUpgrade = if equalsCi header.name (ascii "Upgrade") then
      headerContainsToken header.value (ascii "websocket") else scan.hasUpgrade)
    (hasConnection : after.hasConnection = if equalsCi header.name (ascii "Connection") then
      headerContainsToken header.value (ascii "upgrade") else scan.hasConnection)
    (hasVersion : after.hasVersion = if equalsCi header.name (ascii "Sec-WebSocket-Version") then
      equalsCi header.value (ascii "13") else scan.hasVersion)
    (acceptKey : after.upgrade.acceptKey = if equalsCi header.name (ascii "Sec-WebSocket-Key") then
      some (acceptKeyOf lib header.value) else scan.upgrade.acceptKey) :
    Scanned lib (headers ++ [header]) after := by
  constructor
  · rw [hasUpgrade, getLast?_valuesOf]
    split
    · rfl
    · exact scanned.hasUpgrade
  · rw [hasConnection, getLast?_valuesOf]
    split
    · rfl
    · exact scanned.hasConnection
  · rw [hasVersion, getLast?_valuesOf]
    split
    · rfl
    · exact scanned.hasVersion
  · rw [acceptKey, getLast?_valuesOf]
    split
    · rfl
    · exact scanned.acceptKey

theorem scanHeader_key {scan : HeaderScan} (permitted : Permitted lib headers)
    (scanned : Scanned lib headers scan)
    (isKey : equalsCi header.name (ascii "Sec-WebSocket-Key") = true) :
    (∃ after, scanHeader lib supported header.name header.value scan = some after ∧
        Scanned lib (headers ++ [header]) after ∧ Permitted lib (headers ++ [header])) ∨
      (scanHeader lib supported header.name header.value scan = none ∧
        ¬ Permitted lib (headers ++ [header])) := by
  have isUpgrade : equalsCi header.name (ascii "Upgrade") = false :=
    equalsCi_other isKey (by decide +kernel)
  have isConnection : equalsCi header.name (ascii "Connection") = false :=
    equalsCi_other isKey (by decide +kernel)
  have isVersion : equalsCi header.name (ascii "Sec-WebSocket-Version") = false :=
    equalsCi_other isKey (by decide +kernel)
  unfold scanHeader
  dsimp only
  rw [isUpgrade, isConnection, isVersion, isKey, if_neg Bool.false_ne_true, if_neg Bool.false_ne_true,
    if_neg Bool.false_ne_true, if_pos rfl, permitted.append_key isKey, scanned.acceptKey, Option.isSome_map]
  cases earlier : valuesOf "Sec-WebSocket-Key" headers with
  | cons value values =>
      refine Or.inr ⟨?_, fun both => List.cons_ne_nil _ _ both.1⟩
      rw [List.getLast?_cons]
      rfl
  | nil =>
      rw [List.getLast?_nil, Option.isSome_none, if_neg Bool.false_ne_true]
      cases valid : validateKey lib header.value with
      | none =>
          refine Or.inr ⟨rfl, ?_⟩
          intro both
          have found := (validateKey_eq_some lib).mpr ⟨both.2, rfl⟩
          rw [valid] at found
          cases found
      | some key =>
          have decoded := (validateKey_eq_some lib).mp valid
          refine Or.inl ⟨_, rfl, scanned.read ?_ ?_ ?_ ?_, rfl, decoded.1⟩
          · rw [isUpgrade, if_neg Bool.false_ne_true]
          · rw [isConnection, if_neg Bool.false_ne_true]
          · rw [isVersion, if_neg Bool.false_ne_true]
          · rw [isKey, if_pos rfl]
            exact congrArg some decoded.2.symm

theorem scanHeader_cases {scan : HeaderScan} (permitted : Permitted lib headers)
    (scanned : Scanned lib headers scan) (header : HttpHeader) :
    (∃ after, scanHeader lib supported header.name header.value scan = some after ∧
        Scanned lib (headers ++ [header]) after ∧ Permitted lib (headers ++ [header])) ∨
      (scanHeader lib supported header.name header.value scan = none ∧
        ¬ Permitted lib (headers ++ [header])) := by
  cases isKey : equalsCi header.name (ascii "Sec-WebSocket-Key") with
  | true => exact scanHeader_key permitted scanned isKey
  | false =>
  -- what is not a key leaves the key as it was
  have read {after : HeaderScan}
      (hasUpgrade : after.hasUpgrade = if equalsCi header.name (ascii "Upgrade") then
        headerContainsToken header.value (ascii "websocket") else scan.hasUpgrade)
      (hasConnection : after.hasConnection = if equalsCi header.name (ascii "Connection") then
        headerContainsToken header.value (ascii "upgrade") else scan.hasConnection)
      (hasVersion : after.hasVersion = if equalsCi header.name (ascii "Sec-WebSocket-Version") then
        equalsCi header.value (ascii "13") else scan.hasVersion)
      (acceptKey : after.upgrade.acceptKey = scan.upgrade.acceptKey) :
      Scanned lib (headers ++ [header]) after := by
    apply scanned.read hasUpgrade hasConnection hasVersion
    rw [isKey, if_neg Bool.false_ne_true]
    exact acceptKey
  have harmless (isProtocol : equalsCi header.name (ascii "Sec-WebSocket-Protocol") = false) :
      Permitted lib (headers ++ [header]) :=
    permitted.append (valuesOf_append_ne isKey headers) (valuesOf_append_ne isProtocol headers)
  unfold scanHeader
  dsimp only
  rw [isKey]
  cases isUpgrade : equalsCi header.name (ascii "Upgrade") with
  | true =>
      have isConnection : equalsCi header.name (ascii "Connection") = false :=
        equalsCi_other isUpgrade (by decide +kernel)
      have isVersion : equalsCi header.name (ascii "Sec-WebSocket-Version") = false :=
        equalsCi_other isUpgrade (by decide +kernel)
      rw [isUpgrade, isConnection, isVersion] at read
      exact Or.inl ⟨_, rfl, read rfl rfl rfl rfl, harmless (equalsCi_other isUpgrade (by decide +kernel))⟩
  | false =>
  rw [isUpgrade] at read
  rw [if_neg Bool.false_ne_true]
  cases isConnection : equalsCi header.name (ascii "Connection") with
  | true =>
      have isVersion : equalsCi header.name (ascii "Sec-WebSocket-Version") = false :=
        equalsCi_other isConnection (by decide +kernel)
      rw [isConnection, isVersion] at read
      exact Or.inl ⟨_, rfl, read rfl rfl rfl rfl,
        harmless (equalsCi_other isConnection (by decide +kernel))⟩
  | false =>
  rw [isConnection] at read
  rw [if_neg Bool.false_ne_true]
  cases isVersion : equalsCi header.name (ascii "Sec-WebSocket-Version") with
  | true =>
      rw [isVersion] at read
      exact Or.inl ⟨_, rfl, read rfl rfl rfl rfl, harmless (equalsCi_other isVersion (by decide +kernel))⟩
  | false =>
  rw [isVersion] at read
  rw [if_neg Bool.false_ne_true, if_neg Bool.false_ne_true]
  cases isProtocol : equalsCi header.name (ascii "Sec-WebSocket-Protocol") with
  | true =>
      rw [if_pos rfl, permitted.append_protocol isProtocol, ← @protocols_iff supported _
        scan.upgrade.selectedSubprotocol]
      cases selectSubprotocol supported (commaParts header.value)
        scan.upgrade.selectedSubprotocol with
      | none => exact Or.inr ⟨rfl, fun agreed => (Option.some_ne_none _).symm agreed.choose_spec⟩
      | some selected => exact Or.inl ⟨_, rfl, read rfl rfl rfl rfl, selected, rfl⟩
  | false => exact Or.inl ⟨_, rfl, read rfl rfl rfl rfl, harmless isProtocol⟩

/-- The header lines one after the other. -/
def scanFields (lib : PhpLib) (supported : List Bytes) (headers : List HttpHeader)
    (scan : HeaderScan) : Option HeaderScan :=
  headers.foldlM (fun scan header => scanHeader lib supported header.name header.value scan) scan

theorem scanFields_append (headers : List HttpHeader) (header : HttpHeader) (scan : HeaderScan) :
    scanFields lib supported (headers ++ [header]) scan =
      (scanFields lib supported headers scan).bind
        (scanHeader lib supported header.name header.value) := by
  rw [scanFields, List.foldlM_append]
  simp only [List.foldlM_cons, List.foldlM_nil, bind_pure]
  rfl

/-- The header lines are read when they are permitted, and refused when they are not. -/
theorem scanFields_cases (supported : List Bytes) {start : HeaderScan} (fresh : Scanned lib [] start)
    (headers : List HttpHeader) :
    (∃ after, scanFields lib supported headers start = some after ∧
        Scanned lib headers after ∧ Permitted lib headers) ∨
      (scanFields lib supported headers start = none ∧ ¬ Permitted lib headers) := by
  induction headers using List.reverseRecOn with
  | nil => exact Or.inl ⟨start, rfl, fresh, Nat.zero_le _, nofun, nofun⟩
  | append_singleton headers header ih =>
      rw [scanFields_append]
      obtain ⟨scan, read, scanned, permitted⟩ | ⟨refused, forbidden⟩ := ih
      · rw [read]
        exact scanHeader_cases permitted scanned header
      · rw [refused]
        exact Or.inr ⟨rfl, fun after => forbidden after.of_append⟩

theorem scanLines_eq_some {lines : List Bytes} {scan after : HeaderScan} :
    scanLines lib supported lines scan = some after ↔
      ∃ headers, List.Forall₂ HeaderLine lines headers ∧
        scanFields lib supported headers scan = some after := by
  induction lines generalizing scan with
  | nil =>
      constructor
      · intro same
        exact ⟨[], List.Forall₂.nil, same⟩
      · rintro ⟨_, ⟨⟩, same⟩
        exact same
  | cons line lines ih =>
      rw [scanLines, Option.bind_eq_some_iff]
      constructor
      · rintro ⟨header, atLine, rest⟩
        obtain ⟨next, read, later⟩ := Option.bind_eq_some_iff.mp rest
        obtain ⟨headers, atLines, scanned⟩ := ih.mp later
        refine ⟨header :: headers, List.Forall₂.cons (headerLine_eq_some.mp atLine) atLines, ?_⟩
        rw [scanFields, List.foldlM_cons, read]
        exact scanned
      · rintro ⟨_, ⟨⟩ | ⟨atLine, atLines⟩, scanned⟩
        rename_i header headers
        refine ⟨header, headerLine_eq_some.mpr atLine, ?_⟩
        rw [scanFields, List.foldlM_cons] at scanned
        obtain ⟨next, read, later⟩ := Option.bind_eq_some_iff.mp scanned
        exact Option.bind_eq_some_iff.mpr ⟨next, read, ih.mpr ⟨headers, atLines, later⟩⟩

theorem any_iff {value : Option Bytes} {holds : Bytes → Bool} :
    value.any holds = true ↔ ∃ v, value = some v ∧ holds v = true := by
  cases value with
  | none => exact ⟨nofun, nofun⟩
  | some v => exact ⟨fun held => ⟨v, rfl, held⟩, fun ⟨_, same, held⟩ => Option.some.inj same ▸ held⟩

/-- What a flag of the scan says about the last value of its header. -/
theorem tokenFlag_iff {value : Option Bytes} {token : Bytes} :
    value.any (headerContainsToken · token) = true ↔
      ∃ v element, value = some v ∧ Element v element ∧ equalsCi element token := by
  rw [any_iff]
  exact exists_congr fun v => by rw [headerContainsToken_iff, exists_and_left]

theorem versionFlag_iff {value : Option Bytes} :
    value.any (equalsCi · (ascii "13")) = true ↔ value = some (ascii "13") := by
  rw [any_iff]
  simp only [equalsCi_version, exists_eq_right]

theorem asksUpgrade_iff {start : HeaderScan} (fresh : Scanned lib [] start)
    {headers : List HttpHeader} :
    AsksUpgrade lib headers ↔
      ∃ scan, scanFields lib supported headers start = some scan ∧
        scan.hasUpgrade = true ∧ scan.hasConnection = true ∧ scan.hasVersion = true ∧
        scan.upgrade.acceptKey.isSome = true := by
  constructor
  · intro asks
    obtain ⟨key, decoded, only, right, size⟩ := asks.key
    have permitted : Permitted lib headers := by
      constructor
      · rw [only, List.length_singleton]
      · rw [only]
        exact List.forall_mem_singleton.mpr ⟨decoded, right, size⟩
      · exact asks.protocols
    obtain ⟨scan, read, scanned, -⟩ | ⟨-, forbidden⟩ :=
      scanFields_cases supported fresh headers
    · refine ⟨scan, read, ?_, ?_, ?_, ?_⟩
      · rw [scanned.hasUpgrade]
        exact tokenFlag_iff.mpr asks.upgrade
      · rw [scanned.hasConnection]
        exact tokenFlag_iff.mpr asks.connection
      · rw [scanned.hasVersion]
        exact versionFlag_iff.mpr asks.version
      · rw [scanned.acceptKey, only]
        rfl
    · exact absurd permitted forbidden
  · rintro ⟨scan, read, upgrade, connection, version, key⟩
    obtain ⟨after, same, scanned, permitted⟩ | ⟨refused, -⟩ :=
      scanFields_cases supported fresh headers
    · rw [read] at same
      cases same
      rw [scanned.hasUpgrade] at upgrade
      rw [scanned.hasConnection] at connection
      rw [scanned.hasVersion] at version
      rw [scanned.acceptKey, Option.isSome_map] at key
      refine ⟨tokenFlag_iff.mp upgrade, tokenFlag_iff.mp connection, versionFlag_iff.mp version, ?_,
        permitted.protocols⟩
      have single := permitted.keys
      have valid := permitted.key
      generalize valuesOf "Sec-WebSocket-Key" headers = keys at key single valid ⊢
      match keys with
      | [] => cases key
      | [value] =>
          obtain ⟨decoded, right, size⟩ := valid value (List.mem_singleton_self value)
          exact ⟨value, decoded, rfl, right, size⟩
      | _ :: _ :: _ => exact absurd single (by simp only [List.length_cons]; omega)
    · rw [read] at refused
      cases refused

theorem scanLines_consumed {lines : List Bytes} {scan after : HeaderScan}
    (scanned : scanLines lib supported lines scan = some after) :
    after.upgrade.bytesConsumed = scan.upgrade.bytesConsumed := by
  induction lines generalizing scan with
  | nil =>
      cases scanned
      rfl
  | cons line lines ih =>
      obtain ⟨header, -, rest⟩ := Option.bind_eq_some_iff.mp scanned
      obtain ⟨next, read, later⟩ := Option.bind_eq_some_iff.mp rest
      rw [ih later, (scanHeader_notes read).1]

theorem accepted_iff {scan : HeaderScan} :
    (!scan.hasUpgrade || !scan.hasConnection || !scan.hasVersion ||
      scan.upgrade.acceptKey.isNone) = false ↔
      scan.hasUpgrade = true ∧ scan.hasConnection = true ∧ scan.hasVersion = true ∧
        scan.upgrade.acceptKey.isSome = true := by
  rw [Bool.or_eq_false_iff, Bool.or_eq_false_iff, Bool.or_eq_false_iff, Bool.not_eq_false',
    Bool.not_eq_false', Bool.not_eq_false', ← Option.not_isSome, Bool.not_eq_false', and_assoc,
    and_assoc]

theorem parseHead_ok {head : Bytes} {upgrade : HttpUpgrade} :
    parseHead lib supported head = .ok upgrade ↔
      ∃ requestLine lines method target scan,
        splitLines 0x0d 0x0a head = some (requestLine :: lines) ∧
        parseRequestLine requestLine = some (method, target) ∧
        scanLines lib supported lines
          { upgrade := { method, target, bytesConsumed := head.length + 4 } } = some scan ∧
        (scan.hasUpgrade = true ∧ scan.hasConnection = true ∧ scan.hasVersion = true ∧
          scan.upgrade.acceptKey.isSome = true) ∧ scan.upgrade = upgrade := by
  unfold parseHead
  constructor
  · intro accepted
    split at accepted
    · cases accepted
    · cases accepted
    rename_i requestLine lines atLines
    split at accepted
    · cases accepted
    rename_i method target atRequest
    split at accepted
    · cases accepted
    rename_i scan read
    split at accepted
    · cases accepted
    rename_i flags
    exact ⟨requestLine, lines, method, target, scan, atLines, atRequest, read,
      accepted_iff.mp (Bool.eq_false_iff.mpr flags), UpgradeResult.ok.inj accepted⟩
  · rintro ⟨requestLine, lines, method, target, scan, atLines, atRequest, read, flags, rfl⟩
    rw [atLines]
    dsimp only
    rw [atRequest]
    dsimp only
    rw [read]
    dsimp only
    rw [accepted_iff.mpr flags, if_neg Bool.false_ne_true]

/-- A head is accepted when it follows the grammar. -/
theorem parseHead_ok_iff {head : Bytes} :
    (∃ upgrade, parseHead lib supported head = .ok upgrade) ↔ UpgradeHead lib head := by
  have fresh (method target : Bytes) (consumed : Nat) :
      Scanned lib [] { upgrade := { method, target, bytesConsumed := consumed } } :=
    ⟨rfl, rfl, rfl, rfl⟩
  constructor
  · rintro ⟨upgrade, accepted⟩
    obtain ⟨requestLine, lines, method, target, scan, atLines, atRequest, read, flags, -⟩ :=
      parseHead_ok.mp accepted
    obtain ⟨-, free, rfl⟩ := splitLines_eq_some.mp atLines
    obtain ⟨headers, atHeaders, scanned⟩ := scanLines_eq_some.mp read
    exact ⟨requestLine, lines, headers, rfl, free, parseRequestLine_isSome.mp ⟨_, atRequest⟩,
      atHeaders, (asksUpgrade_iff (fresh _ _ _)).mpr ⟨scan, scanned, flags⟩⟩
  · rintro ⟨requestLine, lines, headers, rfl, free, atRequest, atHeaders, asks⟩
    obtain ⟨⟨method, target⟩, parsed⟩ := parseRequestLine_isSome.mpr atRequest
    obtain ⟨scan, scanned, flags⟩ := (asksUpgrade_iff (fresh method target _)).mp asks
    exact ⟨_, parseHead_ok.mpr ⟨requestLine, lines, method, target, scan,
      splitLines_eq_some.mpr ⟨List.cons_ne_nil _ _, free, rfl⟩, parsed,
      scanLines_eq_some.mpr ⟨headers, atHeaders, scanned⟩, flags, rfl⟩⟩

theorem parseHead_consumed {head : Bytes} {upgrade : HttpUpgrade}
    (accepted : parseHead lib supported head = .ok upgrade) :
    upgrade.bytesConsumed = head.length + 4 := by
  obtain ⟨_, _, _, _, scan, -, -, read, -, rfl⟩ := parseHead_ok.mp accepted
  rw [scanLines_consumed read]

theorem parseHead_not_incomplete (head : Bytes) : parseHead lib supported head ≠ .incomplete := by
  unfold parseHead
  repeat' split
  all_goals nofun

/-! ## Requests from the grammar -/

theorem findHeaderEnd_skip {front : Bytes} (free : 0x0d ∉ front) (b : Bytes) :
    findHeaderEnd (front ++ b) = (findHeaderEnd b).map (· + front.length) := by
  induction front with
  | nil =>
      rw [List.nil_append, List.length_nil]
      exact Option.map_id'.symm
  | cons x front ih =>
      rw [List.mem_cons, not_or] at free
      rw [List.cons_append, findHeaderEnd, if_neg, ih free.2, Option.map_map]
      · rfl
      · intro same
        exact free.1 (List.cons.inj same).1.symm

theorem findHeaderEnd_crlf {b : Bytes} (start : b.head? ≠ some 0x0d) :
    findHeaderEnd (crlf ++ b) = (findHeaderEnd b).map (· + 2) := by
  rw [crlf, List.cons_append, List.cons_append, List.nil_append, findHeaderEnd, if_neg,
    findHeaderEnd, if_neg, Option.map_map]
  · rfl
  · intro same
    exact absurd (List.cons.inj same).1 (by decide)
  · intro same
    cases b with
    | nil => cases same
    | cons y b => exact start (congrArg List.head? (List.cons.inj (List.cons.inj same).2).2)

theorem findHeaderEnd_lines {lines : List Bytes} (some_line : lines ≠ [])
    (free : ∀ line ∈ lines, 0x0d ∉ line) (nonempty : ∀ line ∈ lines, line ≠ []) (tail : Bytes) :
    findHeaderEnd (crlf.intercalate lines ++ (crlf ++ crlf ++ tail)) =
      some (crlf.intercalate lines).length := by
  induction lines with
  | nil => exact absurd rfl some_line
  | cons line lines ih =>
      rw [List.forall_mem_cons] at free nonempty
      cases lines with
      | nil =>
          rw [List.intercalate_singleton, findHeaderEnd_skip free.1]
          have here : findHeaderEnd (crlf ++ crlf ++ tail) = some 0 := rfl
          rw [here, Option.map_some, Nat.zero_add]
      | cons next lines =>
          have start : (crlf.intercalate (next :: lines) ++ (crlf ++ crlf ++ tail)).head? ≠
              some 0x0d := by
            have octet := nonempty.2 next (List.mem_cons_self ..)
            have absent := free.2 next (List.mem_cons_self ..)
            cases next with
            | nil => exact absurd rfl octet
            | cons x next =>
                rw [List.intercalate_cons_cons_left]
                rintro ⟨⟩
                exact absent (List.mem_cons_self ..)
          rw [List.intercalate_cons_cons, List.append_assoc, List.append_assoc,
            findHeaderEnd_skip free.1, findHeaderEnd_crlf start,
            ih (List.cons_ne_nil _ _) free.2 nonempty.2, Option.map_some, Option.map_some]
          simp only [List.length_append, crlf, List.length_cons, List.length_nil]
          congr 1
          omega

theorem header_lines_nonempty {lines : List Bytes} {headers : List HttpHeader}
    (atHeaders : List.Forall₂ HeaderLine lines headers) : ∀ line ∈ lines, line ≠ [] := by
  induction atHeaders with
  | nil => exact nofun
  | cons atLine _ ih =>
      obtain ⟨name, value, rfl, -⟩ := atLine
      exact List.forall_mem_cons.mpr ⟨List.append_ne_nil_of_right_ne_nil _ (List.cons_ne_nil _ _), ih⟩

/-- What follows the grammar, with an empty line behind it, is a request. -/
theorem UpgradeHead.exists_headerBlock {head : Bytes} (follows : UpgradeHead lib head)
    (size : head.length + 4 ≤ httpMaxRequestSize) :
    ∃ header : HeaderBlock lib supported, header.octets = head ++ (crlf ++ crlf) := by
  have accepted := (@parseHead_ok_iff lib supported head).mpr follows
  obtain ⟨requestLine, lines, headers, rfl, free, ⟨method, target, version, rfl, -⟩, atHeaders, -⟩ :=
    follows
  have nonempty : ∀ line ∈ (method ++ 0x20 :: (target ++ 0x20 :: version)) :: lines, line ≠ [] :=
    List.forall_mem_cons.mpr ⟨List.append_ne_nil_of_right_ne_nil _ (List.cons_ne_nil _ _),
      header_lines_nonempty atHeaders⟩
  have found := findHeaderEnd_lines (List.cons_ne_nil _ _) free nonempty []
  rw [List.append_nil] at found
  generalize crlf.intercalate ((method ++ 0x20 :: (target ++ 0x20 :: version)) :: lines) = head
    at size accepted found ⊢
  have length : (head ++ (crlf ++ crlf)).length = head.length + 4 := List.length_append
  have within : (head ++ (crlf ++ crlf)).length ≤ httpMaxRequestSize := by rwa [length]
  have parsed := parseUpgrade_eq_parseHead lib supported within (findHeaderEnd_eq_some.mp found)
  rw [List.take_left] at parsed
  obtain ⟨upgrade, accepted⟩ := accepted
  refine ⟨⟨_, upgrade, ?_, within, parsed.trans accepted⟩, rfl⟩
  rw [found, length, Nat.add_sub_cancel]

/-! ## The parser -/

/-- What the parser leaves in `upgrade->bytes_consumed`, whatever its result. -/
def upgradeBytesConsumed (buffer : Bytes) : Nat :=
  if buffer.length > httpMaxRequestSize then 0
  else
    match findHeaderEnd buffer with
    | none => 0
    | some headerEnd => headerEnd + 4

/-- The parser waits for the first empty line, reads nothing behind it, and accepts the
    grammar and nothing else. -/
theorem parseUpgrade_grammar (lib : PhpLib) (supported : List Bytes) (buffer : Bytes)
    (within : buffer.length ≤ httpMaxRequestSize) :
    (parseUpgrade lib supported buffer = .incomplete ↔ ¬ crlf ++ crlf <:+: buffer) ∧
      ∀ h, FirstEmptyLine buffer h →
        upgradeBytesConsumed buffer = h + 4 ∧
        (∀ other : Bytes, other.length ≤ httpMaxRequestSize → FirstEmptyLine other h →
          other.take h = buffer.take h →
            parseUpgrade lib supported other = parseUpgrade lib supported buffer) ∧
        (∀ upgrade, parseUpgrade lib supported buffer = .ok upgrade →
          upgrade.bytesConsumed = h + 4) ∧
        ((∃ upgrade, parseUpgrade lib supported buffer = .ok upgrade) ↔
          UpgradeHead lib (buffer.take h)) ∧
        (parseUpgrade lib supported buffer = .invalid ↔ ¬ UpgradeHead lib (buffer.take h)) := by
  constructor
  · rw [← findHeaderEnd_eq_none]
    cases found : findHeaderEnd buffer with
    | none =>
        rw [parseUpgrade, if_neg (Nat.not_lt.mpr within), found]
        exact iff_of_true rfl rfl
    | some h =>
        rw [parseUpgrade_eq_parseHead lib supported within (findHeaderEnd_eq_some.mp found)]
        exact iff_of_false (parseHead_not_incomplete _) (Option.some_ne_none h)
  · intro h empty
    have found := findHeaderEnd_eq_some.mpr empty
    have room := findHeaderEnd_le found
    have size : (buffer.take h).length = h := List.length_take_of_le (by omega)
    have parsed := parseUpgrade_eq_parseHead lib supported within empty
    refine ⟨?_, ?_, ?_, ?_, ?_⟩
    · rw [upgradeBytesConsumed, if_neg (Nat.not_lt.mpr within), found]
    · intro other inside atOther same
      rw [parseUpgrade_eq_parseHead lib supported inside atOther, parsed, same]
    · intro upgrade accepted
      rw [parsed] at accepted
      rw [parseHead_consumed accepted, size]
    · rw [parsed]
      exact parseHead_ok_iff
    · rw [parsed, ← @parseHead_ok_iff lib supported]
      cases result : parseHead lib supported (buffer.take h) with
      | incomplete => exact absurd result (parseHead_not_incomplete _)
      | invalid => exact iff_of_true rfl fun accepted => UpgradeResult.noConfusion accepted.choose_spec
      | ok upgrade => exact iff_of_false UpgradeResult.noConfusion (not_not_intro ⟨upgrade, rfl⟩)

theorem parseUpgrade_grammar_sample :
    parseUpgrade sampleLib [] sampleRequest ≠ .incomplete ∧
      UpgradeHead sampleLib (sampleRequest.take (sampleRequest.length - 4)) := by
  have grammar := parseUpgrade_grammar sampleLib [] sampleRequest (by decide +kernel)
  have empty : FirstEmptyLine sampleRequest (sampleRequest.length - 4) :=
    findHeaderEnd_eq_some.mp (by decide +kernel)
  have valid : parseUpgrade sampleLib [] sampleRequest ≠ .invalid := by decide +kernel
  exact ⟨by decide +kernel, not_not.mp (mt (grammar.2 _ empty).2.2.2.2.mpr valid)⟩

end PhpWebSocket
