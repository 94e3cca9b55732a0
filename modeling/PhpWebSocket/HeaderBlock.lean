import PhpWebSocket.Http

/-! # The end of a request

The parser of the opening request looks for the first empty line and reads nothing
behind it. So a request that is accepted is accepted with anything behind it, as long as
the buffer stays within the limit, and nothing is decided before its last octet.
-/

namespace PhpWebSocket

/-! ## The first empty line -/

theorem findHeaderEnd_le {b : Bytes} {k : Nat} (found : findHeaderEnd b = some k) :
    k + 4 ≤ b.length := by
  induction b generalizing k with
  | nil => cases found
  | cons x rest ih =>
      unfold findHeaderEnd at found
      split at found
      · rename_i here
        cases found
        have four := congrArg List.length here
        rw [List.length_take] at four
        have length : (crlf ++ crlf).length = 4 := rfl
        omega
      · obtain ⟨j, later, rfl⟩ := Option.map_eq_some_iff.mp found
        have inside := ih later
        rw [List.length_cons]
        omega

theorem findHeaderEnd_append {b : Bytes} {k : Nat} (found : findHeaderEnd b = some k) (c : Bytes) :
    findHeaderEnd (b ++ c) = some k := by
  induction b generalizing k with
  | nil => cases found
  | cons x rest ih =>
      have room := findHeaderEnd_le found
      have same : ((x :: rest) ++ c).take 4 = (x :: rest).take 4 :=
        List.take_append_of_le_length (by omega)
      unfold findHeaderEnd at found
      rw [List.cons_append, findHeaderEnd, ← List.cons_append, same]
      split at found
      · rename_i here
        rw [if_pos here]
        exact found
      · rename_i later
        obtain ⟨j, atRest, rfl⟩ := Option.map_eq_some_iff.mp found
        rw [if_neg later, ih atRest]
        rfl

/-! ## The header lines -/

theorem memchr_lt {c : UInt8} {b : Bytes} {k : Nat} (found : memchr c b = some k) :
    k < b.length := by
  induction b generalizing k with
  | nil => cases found
  | cons x rest ih =>
      unfold memchr at found
      split at found
      · cases found
        exact Nat.succ_pos _
      · obtain ⟨j, later, rfl⟩ := Option.map_eq_some_iff.mp found
        exact Nat.succ_lt_succ (ih later)

/-- The loop over the header lines reads one octet behind the end of the header. -/
theorem scanHeaders_append (lib : PhpLib) (supported : List Bytes) (c : Bytes) (fuel : Nat)
    {line : Bytes} {remaining : Nat} (room : remaining = 0 ∨ remaining + 2 ≤ line.length)
    (scan : HeaderScan) :
    scanHeaders lib supported fuel (line ++ c) remaining scan =
      scanHeaders lib supported fuel line remaining scan := by
  induction fuel generalizing line remaining scan with
  | zero => rfl
  | succ fuel ih =>
      rw [scanHeaders, scanHeaders]
      by_cases ended : remaining = 0
      · rw [if_pos ended, if_pos ended]
      · have inside : remaining + 2 ≤ line.length := room.resolve_left ended
        rw [if_neg ended, if_neg ended, List.take_append_of_le_length (by omega)]
        cases found : memchr 0x0d (line.take (remaining + 1)) with
        | none => rfl
        | some lineLen =>
            have short := memchr_lt found
            rw [List.length_take] at short
            have next : (line ++ c).getD (lineLen + 1) 0 = line.getD (lineLen + 1) 0 := by
              simp only [List.getD_eq_getElem?_getD]
              rw [List.getElem?_append_left (by omega)]
            dsimp only
            rw [next, List.take_append_of_le_length (by omega), List.drop_append_of_le_length (by omega)]
            split
            · rfl
            · split
              · rfl
              · cases colon : memchr 0x3a (line.take lineLen) with
                | none => rfl
                | some nameLen =>
                    have before := memchr_lt colon
                    rw [List.length_take] at before
                    dsimp only
                    rw [List.take_append_of_le_length (show nameLen ≤ line.length by omega)]
                    split
                    · rfl
                    · refine ih ?_ _
                      rw [List.length_drop]
                      omega

theorem scanHeader_notes {lib : PhpLib} {supported : List Bytes} {name value : Bytes}
    {scan after : HeaderScan} (scanned : scanHeader lib supported name value scan = some after) :
    after.upgrade.bytesConsumed = scan.upgrade.bytesConsumed ∧
      after.upgrade.headers = scan.upgrade.headers ++ [⟨name, value⟩] := by
  simp only [scanHeader] at scanned
  repeat' split at scanned
  all_goals cases scanned
  all_goals exact ⟨rfl, rfl⟩

theorem scanHeaders_consumed {lib : PhpLib} {supported : List Bytes} {fuel : Nat} {line : Bytes}
    {remaining : Nat} {scan after : HeaderScan}
    (scanned : scanHeaders lib supported fuel line remaining scan = some after) :
    after.upgrade.bytesConsumed = scan.upgrade.bytesConsumed := by
  induction fuel generalizing line remaining scan with
  | zero =>
      cases scanned
      rfl
  | succ fuel ih =>
      simp only [scanHeaders] at scanned
      repeat' split at scanned
      all_goals first
        | (rename_i scannedLine
           rw [ih scanned, (scanHeader_notes scannedLine).1])
        | (cases scanned
           try rfl)

/-! ## Requests in a stream -/

/-- A request that the parser accepts, up to its first empty line. -/
structure HeaderBlock (lib : PhpLib) (supported : List Bytes) where
  octets : Bytes
  upgrade : HttpUpgrade
  ends : findHeaderEnd octets = some (octets.length - 4)
  size : octets.length ≤ httpMaxRequestSize
  accepted : parseUpgrade lib supported octets = .ok upgrade

/-- A request that ends the buffer, and that the parser accepts. -/
theorem exists_headerBlock {lib : PhpLib} {supported : List Bytes} {octets : Bytes}
    (ends : findHeaderEnd octets = some (octets.length - 4)) (size : octets.length ≤ httpMaxRequestSize)
    (decided : parseUpgrade lib supported octets ≠ .incomplete)
    (valid : parseUpgrade lib supported octets ≠ .invalid) :
    ∃ header : HeaderBlock lib supported, header.octets = octets := by
  cases accepted : parseUpgrade lib supported octets with
  | incomplete => exact absurd accepted decided
  | invalid => exact absurd accepted valid
  | ok upgrade => exact ⟨⟨octets, upgrade, ends, size, accepted⟩, rfl⟩

namespace HeaderBlock

variable {lib : PhpLib} {supported : List Bytes}

theorem consumed (header : HeaderBlock lib supported) :
    header.upgrade.bytesConsumed = header.octets.length := by
  have long := findHeaderEnd_le header.ends
  have accepted := header.accepted
  rw [parseUpgrade, if_neg (Nat.not_lt.mpr header.size), header.ends] at accepted
  dsimp only at accepted
  split at accepted
  · cases accepted
  · split at accepted
    · cases accepted
    · split at accepted
      · cases accepted
      · split at accepted
        · cases accepted
        · rename_i scanned
          split at accepted
          · cases accepted
          · rw [← UpgradeResult.ok.inj accepted, scanHeaders_consumed scanned]
            dsimp only
            omega

/-- What stands behind the empty line does not matter. -/
theorem accepted_append (header : HeaderBlock lib supported) (tail : Bytes)
    (within : (header.octets ++ tail).length ≤ httpMaxRequestSize) :
    parseUpgrade lib supported (header.octets ++ tail) = .ok header.upgrade := by
  have long := findHeaderEnd_le header.ends
  have ends := header.ends
  have accepted := header.accepted
  rw [parseUpgrade, if_neg (Nat.not_lt.mpr header.size)] at accepted
  rw [parseUpgrade, if_neg (Nat.not_lt.mpr within), findHeaderEnd_append ends]
  rw [ends] at accepted
  generalize header.octets.length - 4 = headerEnd at long ends accepted ⊢
  generalize header.octets = b at long accepted ⊢
  dsimp only at accepted ⊢
  rw [List.take_append_of_le_length (by omega)]
  cases line : memchr 0x0d (b.take headerEnd) with
  | none =>
      rw [line] at accepted
      cases accepted
  | some lineEnd =>
      have short := memchr_lt line
      rw [List.length_take] at short
      have next : (b ++ tail).getD (lineEnd + 1) 0 = b.getD (lineEnd + 1) 0 := by
        simp only [List.getD_eq_getElem?_getD]
        rw [List.getElem?_append_left (by omega)]
      have scanned : ∀ scan, scanHeaders lib supported headerEnd ((b ++ tail).drop (lineEnd + 2))
          (headerEnd - (lineEnd + 2)) scan =
            scanHeaders lib supported headerEnd (b.drop (lineEnd + 2)) (headerEnd - (lineEnd + 2))
              scan := by
        intro scan
        rw [List.drop_append_of_le_length (by omega)]
        refine scanHeaders_append lib supported tail headerEnd ?_ scan
        rw [List.length_drop]
        omega
      rw [line] at accepted
      dsimp only at accepted ⊢
      rw [next, List.take_append_of_le_length (by omega)]
      simp only [scanned]
      exact accepted

/-- Before its last octet nothing is decided. -/
theorem incomplete (header : HeaderBlock lib supported) {b : Bytes} (front : b <+: header.octets)
    (short : b.length < header.octets.length) : parseUpgrade lib supported b = .incomplete := by
  have size := header.size
  rw [parseUpgrade, if_neg (by omega)]
  cases found : findHeaderEnd b with
  | none => rfl
  | some k =>
      obtain ⟨c, whole⟩ := front
      have inside := findHeaderEnd_le found
      have long := findHeaderEnd_le header.ends
      have first := findHeaderEnd_append found c
      rw [whole, header.ends] at first
      cases first
      omega

end HeaderBlock

end PhpWebSocket
