import Mathlib.Data.List.Basic
import Mathlib.Tactic.Common

/-! # Checked memory

A program on buffers in which every access is checked: a read or a write outside a buffer,
a difference below zero, a sum past the largest value of its type and a loop that outlives
its bound are faults. A program that is shown to end without a fault never does any of these.
-/

namespace PhpWebSocket.Lib

inductive Fault where
  /-- an access outside a buffer -/
  | outside
  /-- an unsigned result that does not fit -/
  | wrapped
  /-- a loop past its bound -/
  | endless
  deriving Repr, DecidableEq

abbrev Checked (α : Type) := Except Fault α

namespace Checked

variable {α : Type}

def read (b : List α) (i : Nat) : Checked α :=
  match b[i]? with
  | some x => .ok x
  | none => .error .outside

/-- A copy of `n` elements from `i` on. -/
def copy (b : List α) (i n : Nat) : Checked (List α) :=
  if i + n ≤ b.length then .ok ((b.drop i).take n) else .error .outside

/-- The elements `xs` are written from `i` on. -/
def write (b : List α) (i : Nat) (xs : List α) : Checked (List α) :=
  if i + xs.length ≤ b.length then .ok (b.take i ++ xs ++ b.drop (i + xs.length))
  else .error .outside

def sub (a b : Nat) : Checked Nat := if b ≤ a then .ok (a - b) else .error .wrapped

/-- A sum in a type whose largest value is `limit`. -/
def add (limit a b : Nat) : Checked Nat := if a + b ≤ limit then .ok (a + b) else .error .wrapped

theorem read_ok {b : List α} {i : Nat} (inside : i < b.length) (d : α) :
    read b i = .ok (b.getD i d) := by
  rw [read, List.getD_eq_getElem?_getD, List.getElem?_eq_getElem inside, Option.getD_some]

theorem copy_ok {b : List α} {i n : Nat} (inside : i + n ≤ b.length) :
    copy b i n = .ok ((b.drop i).take n) := if_pos inside

theorem write_ok {b : List α} {i : Nat} {xs : List α} (inside : i + xs.length ≤ b.length) :
    write b i xs = .ok (b.take i ++ xs ++ b.drop (i + xs.length)) := if_pos inside

theorem sub_ok {a b : Nat} (le : b ≤ a) : sub a b = .ok (a - b) := if_pos le

theorem add_ok {limit a b : Nat} (le : a + b ≤ limit) : add limit a b = .ok (a + b) := if_pos le

@[simp] theorem ok_bind {β : Type} (x : α) (f : α → Checked β) : (Except.ok x >>= f) = f x := rfl

theorem write_behind {front xs : List α} (b : List α) (room : front.length + xs.length ≤ b.length) :
    write (front ++ b.drop front.length) front.length xs =
      .ok ((front ++ xs) ++ b.drop (front ++ xs).length) := by
  have length : (front ++ b.drop front.length).length = b.length := by
    rw [List.length_append, List.length_drop]
    omega
  rw [write_ok (by rw [length]; exact room), List.take_left, List.drop_append, List.length_append,
    List.drop_of_length_le (Nat.le_add_right _ _), List.nil_append, List.drop_drop]
  congr 3
  omega

end Checked

end PhpWebSocket.Lib
