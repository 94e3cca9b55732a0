import PhpWebSocket.UpgradeGrammar

/-! # The headers a handshake callback sees

`websocket_http_upgrade_request_headers` maps the lower-case names of the header lines to
their values. A name that occurs once keeps its value as received; the values of a repeated
name go through `%s`, which is the length of the value only when there is no NUL in it.
-/

namespace PhpWebSocket

open Lib

/-- `zend_hash_find`. -/
def hashFind (map : List (Bytes × Bytes)) (key : Bytes) : Option Bytes :=
  (map.find? (·.1 = key)).map (·.2)

/-- The values of the headers whose lower-case name is `key`, in order. -/
def valuesAt (key : Bytes) (headers : List HttpHeader) : List Bytes :=
  (headers.filter (·.name.map toLower = key)).map (·.value)

/-- Values joined with `", "`; there is no value for a name that does not occur. -/
def joinValues : List Bytes → Option Bytes
  | [] => none
  | value :: values => some ((ascii ", ").intercalate (value :: values))

/-- Values as `strpprintf` joins them: a single one is not printed. -/
def printValues : List Bytes → Option Bytes
  | [] => none
  | [value] => some value
  | value :: values => some ((ascii ", ").intercalate ((value :: values).map cString))

/-! ## Printing -/

theorem cString_free (s : Bytes) : 0 ∉ cString s := by
  intro zero
  have nonzero := List.mem_takeWhile_imp zero
  simp at nonzero

theorem cString_eq {s : Bytes} (free : 0 ∉ s) : cString s = s := by
  rw [cString, List.takeWhile_eq_self_iff]
  intro c member
  simp only [ne_eq, decide_not, Bool.not_eq_eq_eq_not, Bool.not_true, decide_eq_false_iff_not]
  rintro rfl
  exact free member

theorem printed_free (values : List Bytes) :
    0 ∉ (ascii ", ").intercalate (values.map cString) := by
  intro zero
  rcases mem_intercalate zero with between | ⟨part, among, inside⟩
  · exact absurd between (by decide +kernel)
  · obtain ⟨value, -, rfl⟩ := List.mem_map.mp among
    exact cString_free value inside

theorem printValues_append {values : List Bytes} {printed : Bytes}
    (before : printValues values = some printed) (value : Bytes) :
    printValues (values ++ [value]) = some (cString printed ++ ascii ", " ++ cString value) := by
  match values, before with
  | [first], before =>
      cases before
      rw [List.singleton_append, printValues, List.map_cons, List.map_singleton,
        List.intercalate_cons_cons, List.intercalate_singleton]
      · nofun
  | first :: second :: values, before =>
      cases before
      rw [List.cons_append, List.cons_append, printValues, ← List.cons_append, ← List.cons_append,
        List.map_append, List.map_singleton,
        intercalate_append_singleton _ (by simp) (cString value), cString_eq (printed_free _)]
      · nofun

/-- The printed values are the values when no value is cut off. -/
theorem printValues_eq_iff (values : List Bytes) :
    printValues values = joinValues values ↔ (2 ≤ values.length → ∀ value ∈ values, 0 ∉ value) := by
  match values with
  | [] => exact iff_of_true rfl (fun two => absurd two (by decide))
  | [value] =>
      refine iff_of_true ?_ (fun two => absurd two (by simp))
      rw [printValues, joinValues, List.intercalate_singleton]
  | first :: second :: values =>
      rw [printValues, joinValues, Option.some_inj]
      · constructor
        · intro same _ value among zero
          have joined := mem_intercalate_of_mem (ascii ", ") among zero
          rw [← same] at joined
          exact printed_free _ joined
        · intro free
          rw [List.map_congr_left fun value among => cString_eq (free (by simp) value among),
            List.map_id']
      · nofun

/-! ## The map -/

theorem hashFind_cons (entry : Bytes × Bytes) (map : List (Bytes × Bytes)) (k : Bytes) :
    hashFind (entry :: map) k = if entry.1 = k then some entry.2 else hashFind map k := by
  rw [hashFind, List.find?_cons]
  by_cases here : entry.1 = k
  · rw [decide_eq_true here, if_pos here]
    rfl
  · rw [decide_eq_false here, if_neg here]
    rfl

theorem hashFind_update (map : List (Bytes × Bytes)) (key value k : Bytes) :
    hashFind (hashUpdate map key value) k = if k = key then some value else hashFind map k := by
  have replaced (map : List (Bytes × Bytes)) :
      hashFind (map.map fun entry => if entry.1 = key then (key, value) else entry) k =
        if k = key ∧ map.any (·.1 = key) = true then some value else hashFind map k := by
    induction map with
    | nil => rw [if_neg (fun held => nomatch held.2), List.map_nil]
    | cons entry map ih =>
        rw [List.map_cons, hashFind_cons, hashFind_cons, ih, List.any_cons]
        obtain rfl | other := eq_or_ne k key
        · by_cases here : entry.1 = k
          · simp [here]
          · simp only [if_neg here, decide_eq_false here, Bool.false_or]
        · by_cases here : entry.1 = key
          · simp [here, other, other.symm]
          · simp [here, other]
  have added (map : List (Bytes × Bytes)) (free : ¬ map.any (·.1 = key) = true) :
      hashFind (map ++ [(key, value)]) k = if k = key then some value else hashFind map k := by
    induction map with
    | nil =>
        rw [List.nil_append, hashFind_cons]
        by_cases same : k = key
        · rw [if_pos same.symm, if_pos same]
        · rw [if_neg (Ne.symm same), if_neg same]
    | cons entry map ih =>
        rw [List.any_cons, Bool.or_eq_true, not_or, decide_eq_true_eq] at free
        rw [List.cons_append, hashFind_cons, hashFind_cons, ih free.2]
        by_cases same : k = key
        · rw [if_pos same, same, if_neg free.1, if_pos rfl]
        · rw [if_neg same, if_neg same]
  unfold hashUpdate
  split
  · rename_i held
    rw [replaced]
    simp only [held, and_true]
  · rename_i free
    exact added map free

/-- What the loop does with one header. -/
theorem requestHeaders_append (headers : List HttpHeader) (header : HttpHeader) :
    requestHeaders (headers ++ [header]) =
      hashUpdate (requestHeaders headers) (header.name.map toLower)
        (match hashFind (requestHeaders headers) (header.name.map toLower) with
        | some existing => cString existing ++ ascii ", " ++ cString header.value
        | none => header.value) := by
  rw [requestHeaders, List.foldl_append, ← requestHeaders, List.foldl_cons, List.foldl_nil, hashFind]
  dsimp only
  cases (requestHeaders headers).find? (·.1 = header.name.map toLower) <;> rfl

theorem valuesAt_append (key : Bytes) (headers : List HttpHeader) (header : HttpHeader) :
    valuesAt key (headers ++ [header]) =
      if header.name.map toLower = key then valuesAt key headers ++ [header.value]
      else valuesAt key headers := by
  rw [valuesAt, List.filter_append, List.map_append]
  split
  · rename_i same
    simp [valuesAt, same]
  · rename_i other
    simp [valuesAt, other]

theorem printValues_eq_none {values : List Bytes} : printValues values = none ↔ values = [] := by
  match values with
  | [] => exact iff_of_true rfl rfl
  | [_] => exact iff_of_false nofun nofun
  | _ :: _ :: _ => exact iff_of_false nofun nofun

theorem requestHeaders_find (headers : List HttpHeader) (key : Bytes) :
    hashFind (requestHeaders headers) key = printValues (valuesAt key headers) := by
  induction headers using List.reverseRecOn with
  | nil => rfl
  | append_singleton headers header ih =>
      rw [requestHeaders_append, hashFind_update, valuesAt_append]
      by_cases same : header.name.map toLower = key
      · rw [if_pos same, if_pos same.symm, same, ih]
        cases printed : printValues (valuesAt key headers) with
        | none =>
            rw [printValues_eq_none.mp printed]
            rfl
        | some existing => rw [printValues_append printed]
      · rw [if_neg same, if_neg (Ne.symm same), ih]

/-! ## The request -/

theorem scanFields_headers {lib : PhpLib} {supported : List Bytes} {headers : List HttpHeader}
    {scan after : HeaderScan} (read : scanFields lib supported headers scan = some after) :
    after.upgrade.headers = scan.upgrade.headers ++ headers := by
  induction headers using List.reverseRecOn generalizing after with
  | nil =>
      cases read
      rw [List.append_nil]
  | append_singleton headers header ih =>
      rw [scanFields_append] at read
      obtain ⟨before, earlier, last⟩ := Option.bind_eq_some_iff.mp read
      rw [(scanHeader_notes last).2, ih earlier, List.append_assoc]

/-- The request line and the header lines of a buffer. -/
def HeadLines (buffer requestLine : Bytes) (lines : List Bytes) : Prop :=
  ∃ h, FirstEmptyLine buffer h ∧ buffer.take h = crlf.intercalate (requestLine :: lines) ∧
    ∀ line ∈ requestLine :: lines, 0x0d ∉ line

/-- An accepted request, header line by header line. -/
theorem accepted_scan {lib : PhpLib} {supported : List Bytes} {buffer : Bytes}
    {upgrade : HttpUpgrade} (accepted : parseUpgrade lib supported buffer = .ok upgrade) :
    ∃ requestLine lines headers method target consumed scan,
      HeadLines buffer requestLine lines ∧ List.Forall₂ HeaderLine lines headers ∧
      scanFields lib supported headers
        { upgrade := { method, target, bytesConsumed := consumed } } = some scan ∧
      (scan.hasUpgrade = true ∧ scan.hasConnection = true ∧ scan.hasVersion = true ∧
        scan.upgrade.acceptKey.isSome = true) ∧ scan.upgrade = upgrade := by
  have within : buffer.length ≤ httpMaxRequestSize := by
    by_contra long
    rw [parseUpgrade, if_pos (Nat.lt_of_not_le long)] at accepted
    cases accepted
  cases found : findHeaderEnd buffer with
  | none =>
      rw [parseUpgrade, if_neg (Nat.not_lt.mpr within), found] at accepted
      cases accepted
  | some h =>
      have empty := findHeaderEnd_eq_some.mp found
      rw [parseUpgrade_eq_parseHead lib supported within empty] at accepted
      obtain ⟨requestLine, lines, method, target, scan, atLines, -, read, flags, same⟩ :=
        parseHead_ok.mp accepted
      obtain ⟨-, free, head⟩ := splitLines_eq_some.mp atLines
      obtain ⟨headers, atHeaders, scanned⟩ := scanLines_eq_some.mp read
      exact ⟨requestLine, lines, headers, method, target, _, scan, ⟨h, empty, head, free⟩, atHeaders,
        scanned, flags, same⟩

theorem accepted_headers {lib : PhpLib} {supported : List Bytes} {buffer : Bytes}
    {upgrade : HttpUpgrade} (accepted : parseUpgrade lib supported buffer = .ok upgrade) :
    ∃ requestLine lines, HeadLines buffer requestLine lines ∧
      List.Forall₂ HeaderLine lines upgrade.headers := by
  obtain ⟨requestLine, lines, headers, _, _, _, scan, head, atHeaders, scanned, -, rfl⟩ :=
    accepted_scan accepted
  rw [scanFields_headers scanned]
  exact ⟨requestLine, lines, head, atHeaders⟩

/-- The headers of an accepted request are its header lines, and the callback sees under a name
    the values of all of them, unless the name occurs again and a value under it has a NUL. -/
theorem requestHeaders_complete_iff {lib : PhpLib} {supported : List Bytes} {buffer : Bytes}
    {upgrade : HttpUpgrade} (accepted : parseUpgrade lib supported buffer = .ok upgrade) :
    (∃ requestLine lines, HeadLines buffer requestLine lines ∧
      List.Forall₂ HeaderLine lines upgrade.headers) ∧
      ∀ key, hashFind (requestHeaders upgrade.headers) key =
          joinValues (valuesAt key upgrade.headers) ↔
        (2 ≤ (valuesAt key upgrade.headers).length →
          ∀ value ∈ valuesAt key upgrade.headers, 0 ∉ value) := by
  refine ⟨accepted_headers accepted, ?_⟩
  intro key
  rw [requestHeaders_find, printValues_eq_iff]

/-- The sample request with a header that comes twice. -/
def repeatedRequest (value : Bytes) : Bytes :=
  ascii "GET /chat HTTP/1.1\r\nX-Data: " ++ value ++ ascii "\r\nx-data: c\r\n" ++
    sampleRequest.drop 20

theorem requestHeaders_complete_iff_repeated :
    ∃ upgrade, parseUpgrade sampleLib [] (repeatedRequest (ascii "a")) = .ok upgrade ∧
      valuesAt (ascii "x-data") upgrade.headers = [ascii "a", ascii "c"] ∧
      hashFind (requestHeaders upgrade.headers) (ascii "x-data") =
        joinValues [ascii "a", ascii "c"] := by
  cases accepted : parseUpgrade sampleLib [] (repeatedRequest (ascii "a")) with
  | incomplete => exact absurd accepted (by decide +kernel)
  | invalid => exact absurd accepted (by decide +kernel)
  | ok upgrade =>
      have values : (match parseUpgrade sampleLib [] (repeatedRequest (ascii "a")) with
          | .ok upgrade => valuesAt (ascii "x-data") upgrade.headers
          | _ => []) = [ascii "a", ascii "c"] := by decide +kernel
      rw [accepted] at values
      dsimp only at values
      have complete := (requestHeaders_complete_iff accepted).2 (ascii "x-data")
      rw [values] at complete
      exact ⟨upgrade, rfl, values, complete.mpr (by decide +kernel)⟩

/-- A NUL in the first value, and what stood behind it is gone. -/
theorem joined_value_cut :
    ∃ upgrade, parseUpgrade sampleLib [] (repeatedRequest [0x61, 0x00, 0x62]) = .ok upgrade ∧
      hashFind (requestHeaders upgrade.headers) (ascii "x-data") = some (ascii "a, c") ∧
      joinValues (valuesAt (ascii "x-data") upgrade.headers) =
        some ([0x61, 0x00, 0x62] ++ ascii ", c") := by
  cases accepted : parseUpgrade sampleLib [] (repeatedRequest [0x61, 0x00, 0x62]) with
  | incomplete => exact absurd accepted (by decide +kernel)
  | invalid => exact absurd accepted (by decide +kernel)
  | ok upgrade =>
      have seen : (match parseUpgrade sampleLib [] (repeatedRequest [0x61, 0x00, 0x62]) with
          | .ok upgrade =>
              (hashFind (requestHeaders upgrade.headers) (ascii "x-data"),
                joinValues (valuesAt (ascii "x-data") upgrade.headers))
          | _ => (none, none)) =
          (some (ascii "a, c"), some ([0x61, 0x00, 0x62] ++ ascii ", c")) := by decide +kernel
      rw [accepted] at seen
      injection seen with sent joined
      exact ⟨upgrade, rfl, sent, joined⟩

end PhpWebSocket
