import Mathlib.Data.List.Basic

/-! # Reassembly of messages

A message of some kind arrives in parts, the first of which names the kind. An
assembler joins the parts of one message at a time, up to a limit, and looks at a
message when it is complete.
-/

namespace PhpWebSocket.Lib

variable {κ α : Type*}

inductive Part (κ α : Type*) where
  | first (kind : κ) (payload : List α) (last : Bool)
  | next (payload : List α) (last : Bool)

/-- The message under way, if there is one. -/
abbrev Pending (κ α : Type*) := Option (κ × List α)

/-- What a part has led to. -/
inductive Assembled (κ α : Type*) where
  | waiting (pending : Pending κ α)
  | message (kind : κ) (payload : List α)
  /-- A part of no message, or a new message inside another. -/
  | misplaced
  | tooLong
  | malformed

structure Assembler (κ α : Type*) where
  limit : Nat
  wellFormed : κ → List α → Bool

namespace Assembler

variable (A : Assembler κ α)

/-- The message as far as it has arrived. -/
def weigh (kind : κ) (payload : List α) (last : Bool) : Assembled κ α :=
  if A.limit < payload.length then .tooLong
  else if !last then .waiting (some (kind, payload))
  else if A.wellFormed kind payload then .message kind payload
  else .malformed

def take : Pending κ α → Part κ α → Assembled κ α
  | none, .first kind payload last => A.weigh kind payload last
  | some (kind, sofar), .next payload last => A.weigh kind (sofar ++ payload) last
  | none, .next _ _ => .misplaced
  | some _, .first _ _ _ => .misplaced

section

variable {A} {kind : κ} {payload : List α}

theorem weigh_tooLong (long : A.limit < payload.length) (last : Bool) :
    A.weigh kind payload last = .tooLong := if_pos long

theorem weigh_waiting (fits : ¬ A.limit < payload.length) :
    A.weigh kind payload false = .waiting (some (kind, payload)) := if_neg fits

theorem weigh_malformed (fits : ¬ A.limit < payload.length)
    (malformed : A.wellFormed kind payload = false) : A.weigh kind payload true = .malformed := by
  simp [weigh, fits, malformed]

theorem weigh_message (fits : ¬ A.limit < payload.length)
    (valid : A.wellFormed kind payload = true) :
    A.weigh kind payload true = .message kind payload := by
  simp [weigh, fits, valid]

end

/-- The messages that parts come to, up to the first part that does not fit. -/
def run : Pending κ α → List (Part κ α) → List (κ × List α)
  | _, [] => []
  | pending, part :: rest =>
      match A.take pending part with
      | .waiting pending => run pending rest
      | .message kind payload => (kind, payload) :: run none rest
      | .misplaced | .tooLong | .malformed => []

theorem run_prefix (parts more : List (Part κ α)) (pending : Pending κ α) :
    A.run pending parts <+: A.run pending (parts ++ more) := by
  induction parts generalizing pending with
  | nil => exact List.nil_prefix
  | cons part rest ih =>
      simp only [List.cons_append, run]
      cases A.take pending part with
      | waiting pending => exact ih pending
      | message kind payload => exact List.cons_prefix_cons.mpr ⟨rfl, ih none⟩
      | misplaced | tooLong | malformed => exact List.prefix_refl _

end Assembler

/-! ## Messages in parts -/

namespace Part

/-- The parts behind the first, for each piece one. -/
def continuations : List (List α) → List (Part κ α)
  | [] => []
  | piece :: rest => .next piece rest.isEmpty :: continuations rest

/-- A message in pieces. -/
def cut (kind : κ) (piece : List α) (rest : List (List α)) : List (Part κ α) :=
  .first kind piece rest.isEmpty :: continuations rest

end Part

namespace Assembler

variable {A : Assembler κ α} {kind : κ}

theorem run_continuations {sofar : List α} {pieces : List (List α)} (more : pieces ≠ [])
    (fits : (sofar ++ pieces.flatten).length ≤ A.limit)
    (valid : A.wellFormed kind (sofar ++ pieces.flatten) = true) (parts : List (Part κ α)) :
    A.run (some (kind, sofar)) (Part.continuations pieces ++ parts) =
      (kind, sofar ++ pieces.flatten) :: A.run none parts := by
  induction pieces generalizing sofar with
  | nil => exact absurd rfl more
  | cons piece rest ih =>
      rw [List.flatten_cons, ← List.append_assoc] at fits valid ⊢
      have within : ¬ A.limit < (sofar ++ piece).length := by
        rw [List.length_append] at fits
        omega
      rw [Part.continuations, List.cons_append, run, take]
      cases rest with
      | nil =>
          rw [List.flatten_nil, List.append_nil] at valid ⊢
          rw [List.isEmpty_nil, weigh_message within valid]
          rfl
      | cons next rest =>
          rw [List.isEmpty_cons, weigh_waiting within]
          exact ih (List.cons_ne_nil _ _) fits valid

/-- What is cut is put together again. -/
theorem run_cut {piece : List α} {pieces : List (List α)}
    (fits : (piece ++ pieces.flatten).length ≤ A.limit)
    (valid : A.wellFormed kind (piece ++ pieces.flatten) = true) (parts : List (Part κ α)) :
    A.run none (Part.cut kind piece pieces ++ parts) =
      (kind, piece ++ pieces.flatten) :: A.run none parts := by
  have within : ¬ A.limit < piece.length := by
    rw [List.length_append] at fits
    omega
  rw [Part.cut, List.cons_append, run, take]
  cases pieces with
  | nil =>
      rw [List.flatten_nil, List.append_nil] at valid ⊢
      rw [List.isEmpty_nil, weigh_message within valid]
      rfl
  | cons next rest =>
      rw [List.isEmpty_cons, weigh_waiting within]
      exact run_continuations (List.cons_ne_nil _ _) fits valid parts

end Assembler

end PhpWebSocket.Lib
