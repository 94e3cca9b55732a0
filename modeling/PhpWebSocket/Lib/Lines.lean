import Mathlib.Data.List.TakeWhile

/-! # Lines of a text

A text is cut into lines at each pair of two given elements. The first element of the
pair stands nowhere else, so a text that uses it alone has no lines. A field of a line
is what is left of it when the elements of one kind are stripped off both ends.
-/

namespace PhpWebSocket.Lib

variable {α : Type*} [DecidableEq α]

/-- The lines of a text, when each `cr` stands before an `lf`. -/
def splitLines (cr lf : α) : List α → Option (List (List α))
  | [] => some [[]]
  | [x] => if x = cr then none else some [[x]]
  | x :: y :: rest =>
      if x = cr then
        if y = lf then (splitLines cr lf rest).map ([] :: ·) else none
      else (splitLines cr lf (y :: rest)).map (·.modifyHead (x :: ·))

variable {cr lf : α}

theorem splitLines_cons {x : α} (other : x ≠ cr) (rest : List α) :
    splitLines cr lf (x :: rest) = (splitLines cr lf rest).map (·.modifyHead (x :: ·)) := by
  cases rest with
  | nil => simp only [splitLines, if_neg other, Option.map_some, List.modifyHead]
  | cons y rest => rw [splitLines, if_neg other]

theorem splitLines_free {line : List α} (free : cr ∉ line) :
    splitLines cr lf line = some [line] := by
  induction line with
  | nil => rfl
  | cons x rest ih =>
      rw [List.mem_cons, not_or] at free
      rw [splitLines_cons (Ne.symm free.1), ih free.2]
      rfl

theorem splitLines_line {line : List α} (free : cr ∉ line) (rest : List α) :
    splitLines cr lf (line ++ cr :: lf :: rest) = (splitLines cr lf rest).map (line :: ·) := by
  induction line with
  | nil => rw [List.nil_append, splitLines, if_pos rfl, if_pos rfl]
  | cons x line ih =>
      rw [List.mem_cons, not_or] at free
      rw [List.cons_append, splitLines_cons (Ne.symm free.1), ih free.2, Option.map_map]
      rfl

theorem splitLines_broken {line : List α} (free : cr ∉ line) {rest : List α}
    (broken : rest.head? ≠ some lf) : splitLines cr lf (line ++ cr :: rest) = none := by
  induction line with
  | nil =>
      cases rest with
      | nil => rw [List.nil_append, splitLines, if_pos rfl]
      | cons y rest =>
          rw [List.nil_append, splitLines, if_pos rfl, if_neg]
          rintro rfl
          exact broken rfl
  | cons x line ih =>
      rw [List.mem_cons, not_or] at free
      rw [List.cons_append, splitLines_cons (Ne.symm free.1), ih free.2]
      rfl

/-- The first line of a text, and what stands behind it. -/
theorem exists_line (cr lf : α) (text : List α) :
    ∃ line, cr ∉ line ∧ (text = line ∨ (∃ rest, text = line ++ cr :: lf :: rest) ∨
      ∃ rest, rest.head? ≠ some lf ∧ text = line ++ cr :: rest) := by
  by_cases free : cr ∈ text
  · obtain ⟨line, rest, rfl, absent⟩ := List.eq_append_cons_of_mem free
    refine ⟨line, absent, Or.inr ?_⟩
    cases rest with
    | nil => exact Or.inr ⟨[], nofun, rfl⟩
    | cons y rest =>
        by_cases pair : y = lf
        · exact Or.inl ⟨rest, by rw [pair]⟩
        · exact Or.inr ⟨y :: rest, fun same => pair (Option.some.inj same), rfl⟩
  · exact ⟨text, free, Or.inl rfl⟩

theorem splitLines_intercalate {lines : List (List α)} (some_line : lines ≠ [])
    (free : ∀ line ∈ lines, cr ∉ line) :
    splitLines cr lf ([cr, lf].intercalate lines) = some lines := by
  induction lines with
  | nil => exact absurd rfl some_line
  | cons line lines ih =>
      rw [List.forall_mem_cons] at free
      cases lines with
      | nil => rw [List.intercalate_singleton, splitLines_free free.1]
      | cons next lines =>
          have shape : [cr, lf].intercalate (line :: next :: lines) =
              line ++ cr :: lf :: [cr, lf].intercalate (next :: lines) := by
            rw [List.intercalate_cons_cons, List.append_assoc]
            rfl
          rw [shape, splitLines_line free.1, ih (List.cons_ne_nil _ _) free.2]
          rfl

/-- Lines that each end with the pair. -/
def endLines (cr lf : α) (lines : List (List α)) : List α := lines.flatMap (· ++ [cr, lf])

omit [DecidableEq α] in
theorem endLines_cons (line : List α) (lines : List (List α)) :
    endLines cr lf (line :: lines) = line ++ cr :: lf :: endLines cr lf lines := by
  rw [endLines, List.flatMap_cons, List.append_assoc]
  rfl

omit [DecidableEq α] in
theorem endLines_eq {lines : List (List α)} (some_line : lines ≠ []) :
    endLines cr lf lines = [cr, lf].intercalate lines ++ [cr, lf] := by
  induction lines with
  | nil => exact absurd rfl some_line
  | cons line lines ih =>
      cases lines with
      | nil => rw [endLines_cons, List.intercalate_singleton]; rfl
      | cons next lines =>
          rw [endLines_cons, ih (List.cons_ne_nil _ _), List.intercalate_cons_cons,
            List.append_assoc, List.append_assoc]
          rfl

omit [DecidableEq α] in
theorem endLines_append (front back : List (List α)) :
    endLines cr lf (front ++ back) = endLines cr lf front ++ endLines cr lf back :=
  List.flatMap_append

theorem splitLines_endLines {lines : List (List α)} (free : ∀ line ∈ lines, cr ∉ line)
    (rest : List α) :
    splitLines cr lf (endLines cr lf lines ++ rest) =
      (splitLines cr lf rest).map (lines ++ ·) := by
  induction lines with
  | nil => exact Option.map_id'.symm
  | cons line lines ih =>
      rw [List.forall_mem_cons] at free
      rw [endLines_cons, List.append_assoc, List.cons_append, List.cons_append,
        splitLines_line free.1, ih free.2, Option.map_map]
      rfl

/-- The lines of a text are the one way to write it as lines with the pair in between. -/
theorem splitLines_eq_some {text : List α} {lines : List (List α)} :
    splitLines cr lf text = some lines ↔
      lines ≠ [] ∧ (∀ line ∈ lines, cr ∉ line) ∧ text = [cr, lf].intercalate lines := by
  constructor
  · intro split
    induction size : text.length using Nat.strongRecOn generalizing text lines with
    | ind n ih =>
        subst size
        obtain ⟨line, free, rfl | ⟨rest, rfl⟩ | ⟨rest, broken, rfl⟩⟩ := exists_line cr lf text
        · rw [splitLines_free free] at split
          cases split
          refine ⟨List.cons_ne_nil _ _, List.forall_mem_singleton.mpr free, ?_⟩
          rw [List.intercalate_singleton]
        · rw [splitLines_line free, Option.map_eq_some_iff] at split
          obtain ⟨later, split, rfl⟩ := split
          have shorter : rest.length < (line ++ cr :: lf :: rest).length := by
            simp only [List.length_append, List.length_cons]
            omega
          obtain ⟨more, laterFree, rfl⟩ := ih _ shorter split rfl
          refine ⟨List.cons_ne_nil _ _, List.forall_mem_cons.mpr ⟨free, laterFree⟩, ?_⟩
          rw [List.intercalate_cons_of_ne_nil more, List.append_assoc]
          rfl
        · rw [splitLines_broken free broken] at split
          cases split
  · rintro ⟨more, free, rfl⟩
    exact splitLines_intercalate more free

/-! ## Joining -/

section Joining

variable {α : Type*}

theorem mem_intercalate {sep : List α} {parts : List (List α)} {x : α}
    (member : x ∈ sep.intercalate parts) : x ∈ sep ∨ ∃ part ∈ parts, x ∈ part := by
  induction parts with
  | nil => cases member
  | cons part parts ih =>
      cases parts with
      | nil =>
          rw [List.intercalate_singleton] at member
          exact Or.inr ⟨part, List.mem_singleton_self part, member⟩
      | cons next parts =>
          rw [List.intercalate_cons_cons, List.append_assoc, List.mem_append, List.mem_append] at member
          rcases member with here | between | later
          · exact Or.inr ⟨part, List.mem_cons_self, here⟩
          · exact Or.inl between
          · rcases ih later with between | ⟨other, among, inside⟩
            · exact Or.inl between
            · exact Or.inr ⟨other, List.mem_cons_of_mem part among, inside⟩

theorem mem_intercalate_of_mem (sep : List α) {parts : List (List α)} {part : List α}
    (among : part ∈ parts) {x : α} (member : x ∈ part) : x ∈ sep.intercalate parts := by
  induction parts with
  | nil => cases among
  | cons first parts ih =>
      cases parts with
      | nil =>
          rw [List.intercalate_singleton, ← List.mem_singleton.mp among]
          exact member
      | cons next parts =>
          rw [List.intercalate_cons_cons, List.append_assoc, List.mem_append, List.mem_append]
          rcases List.mem_cons.mp among with rfl | later
          · exact Or.inl member
          · exact Or.inr (Or.inr (ih later))

theorem intercalate_append_singleton (sep : List α) {parts : List (List α)}
    (nonempty : parts ≠ []) (last : List α) :
    sep.intercalate (parts ++ [last]) = sep.intercalate parts ++ sep ++ last := by
  induction parts with
  | nil => exact absurd rfl nonempty
  | cons part parts ih =>
      cases parts with
      | nil =>
          rw [List.singleton_append, List.intercalate_cons_cons, List.intercalate_singleton,
            List.intercalate_singleton]
      | cons next parts =>
          rw [List.cons_append, List.cons_append, List.intercalate_cons_cons, ← List.cons_append,
            ih (List.cons_ne_nil _ _), List.intercalate_cons_cons]
          simp only [List.append_assoc]

end Joining

/-! ## Stripping -/

section Stripping

variable {α : Type*} {blank : α → Bool} {text core : List α}

/-- `core` is `text` without the blanks at its ends. -/
structure Strips (blank : α → Bool) (text core : List α) : Prop where
  ends : ∃ left right, text = left ++ core ++ right ∧
    (∀ x ∈ left, blank x = true) ∧ ∀ x ∈ right, blank x = true
  front : ∀ x ∈ core.head?, blank x = false
  back : ∀ x ∈ core.getLast?, blank x = false

theorem dropWhile_front {rest : List α} (front : ∀ x ∈ rest.head?, blank x = false) :
    rest.dropWhile blank = rest := by
  cases rest with
  | nil => rfl
  | cons x rest =>
      rw [List.dropWhile_cons_of_neg]
      rw [front x rfl]
      exact Bool.false_ne_true

theorem front_of_dropWhile (blank : α → Bool) (rest : List α) :
    ∀ x ∈ (rest.dropWhile blank).head?, blank x = false := by
  intro x first
  have stopped := List.head?_dropWhile_not blank rest
  rw [Option.mem_def.mp first] at stopped
  exact stopped

/-- The blanks at both ends dropped. -/
def strip (blank : α → Bool) (text : List α) : List α :=
  ((text.dropWhile blank).reverse.dropWhile blank).reverse

theorem strip_strips (blank : α → Bool) (text : List α) : Strips blank text (strip blank text) := by
  let inner := text.dropWhile blank
  have cut : inner = strip blank text ++ (inner.reverse.takeWhile blank).reverse := by
    rw [strip, ← List.reverse_append, List.takeWhile_append_dropWhile, List.reverse_reverse]
  constructor
  · refine ⟨text.takeWhile blank, (inner.reverse.takeWhile blank).reverse, ?_,
      fun _ member => List.mem_takeWhile_imp member, ?_⟩
    · rw [List.append_assoc, ← cut, List.takeWhile_append_dropWhile]
    · intro x member
      exact List.mem_takeWhile_imp (List.mem_reverse.mp member)
  · intro x first
    apply front_of_dropWhile blank text x
    change x ∈ inner.head?
    rw [cut, List.head?_append, Option.mem_def.mp first]
    rfl
  · rw [strip, List.getLast?_reverse]
    exact front_of_dropWhile blank _

theorem Strips.strip_eq (strips : Strips blank text core) : strip blank text = core := by
  obtain ⟨left, right, rfl, atLeft, atRight⟩ := strips.ends
  have reversed : ∀ x ∈ right.reverse, blank x = true := fun x member =>
    atRight x (List.mem_reverse.mp member)
  have back := strips.back
  rw [← List.head?_reverse] at back
  rw [strip, List.append_assoc, List.dropWhile_append_of_pos atLeft]
  cases core with
  | nil =>
      rw [List.nil_append, List.dropWhile_eq_nil_iff.mpr atRight]
      rfl
  | cons x core =>
      have front : ∀ y ∈ (x :: core ++ right).head?, blank y = false := strips.front
      rw [dropWhile_front front, List.reverse_append, List.dropWhile_append_of_pos reversed,
        dropWhile_front back, List.reverse_reverse]

theorem strip_eq_iff : strip blank text = core ↔ Strips blank text core :=
  ⟨fun same => same ▸ strip_strips blank text, Strips.strip_eq⟩

end Stripping

end PhpWebSocket.Lib
