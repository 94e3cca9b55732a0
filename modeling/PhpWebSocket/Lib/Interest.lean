import Mathlib.Logic.Basic
import Mathlib.Order.Basic

/-! # What holders are interested in

Holders have at most one resource each, and a watcher has to watch the resources of the
listed holders that are marked, besides some of its own. A change of one holder concerns
its own resource only: `others` is what has to be watched without it.
-/

namespace PhpWebSocket.Lib

variable {ι ρ : Type*}

/-- No two holders have the same resource. -/
def Exclusive (held : ι → Option ρ) : Prop :=
  ∀ ⦃i j r⦄, held i = some r → held j = some r → i = j

/-- What has to be watched besides the resource of `i`. -/
def others (base : ρ → Prop) (listed : ι → Prop) (held : ι → Option ρ) (marked : ι → Prop) (i : ι)
    (r : ρ) : Prop :=
  base r ∨ ∃ j, j ≠ i ∧ listed j ∧ held j = some r ∧ marked j

/-- Exactly the resources of the listed and marked holders are watched, and those of `base`. -/
def Watches (base : ρ → Prop) (listed : ι → Prop) (held : ι → Option ρ) (marked : ι → Prop)
    (watched : ρ → Bool) : Prop :=
  ∀ r, watched r = true ↔ base r ∨ ∃ i, listed i ∧ held i = some r ∧ marked i

variable {base : ρ → Prop} {listed listed' : ι → Prop} {held held' : ι → Option ρ}
  {marked marked' : ι → Prop} {watched watched' : ρ → Bool}

theorem watches_iff (i : ι) :
    Watches base listed held marked watched ↔ ∀ r, watched r = true ↔
      others base listed held marked i r ∨ (listed i ∧ held i = some r ∧ marked i) := by
  refine forall_congr' fun r => iff_congr Iff.rfl ?_
  rw [others, or_assoc]
  refine or_congr_right ?_
  constructor
  · rintro ⟨j, wanted⟩
    by_cases same : j = i
    · exact Or.inr (same ▸ wanted)
    · exact Or.inl ⟨j, same, wanted⟩
  · rintro (⟨j, -, wanted⟩ | wanted)
    · exact ⟨j, wanted⟩
    · exact ⟨i, wanted⟩

theorem Watches.congr (watches : Watches base listed held marked watched)
    (list : ∀ i, listed' i ↔ listed i) (hold : ∀ i, listed i → held' i = held i)
    (mark : ∀ i, listed i → (marked' i ↔ marked i)) : Watches base listed' held' marked' watched := by
  intro r
  rw [watches r]
  refine or_congr_right (exists_congr ?_)
  intro i
  rw [list i]
  exact and_congr_right fun here => by rw [hold i here, mark i here]

theorem others_congr {i : ι} (list : ∀ j, j ≠ i → (listed' j ↔ listed j))
    (hold : ∀ j, j ≠ i → held' j = held j) (mark : ∀ j, j ≠ i → (marked' j ↔ marked j)) (r : ρ) :
    others base listed' held' marked' i r ↔ others base listed held marked i r := by
  refine or_congr_right (exists_congr fun j => and_congr_right ?_)
  intro other
  rw [list j other, hold j other, mark j other]

/-- What `i` holds, nobody else does. -/
theorem not_others (exclusive : Exclusive held) {i : ι} {r : ρ} (own : held i = some r)
    (apart : ¬ base r) : ¬ others base listed held marked i r := by
  rintro (atBase | ⟨j, other, -, has, -⟩)
  · exact apart atBase
  · exact other (exclusive has own)

theorem Watches.unwatch (watches : Watches base listed held marked watched)
    (exclusive : Exclusive held) {i : ι} (apart : ∀ r, held i = some r → ¬ base r)
    (unwatched : ∀ r, watched' r = true ↔ watched r = true ∧ held i ≠ some r) (r : ρ) :
    watched' r = true ↔ others base listed held marked i r := by
  rw [unwatched, (watches_iff i).mp watches r]
  constructor
  · rintro ⟨other | own, free⟩
    · exact other
    · exact absurd own.2.1 free
  · intro other
    exact ⟨Or.inl other, fun own => not_others exclusive own (apart r own) other⟩

/-- The resource of `i` is unwatched, and `i` gives it up or leaves the list. -/
theorem Watches.drop (watches : Watches base listed held marked watched)
    (exclusive : Exclusive held) {i : ι} (apart : ∀ r, held i = some r → ¬ base r)
    (unwatched : ∀ r, watched' r = true ↔ watched r = true ∧ held i ≠ some r)
    (list : ∀ j, j ≠ i → (listed' j ↔ listed j)) (hold : ∀ j, j ≠ i → held' j = held j)
    (mark : ∀ j, j ≠ i → (marked' j ↔ marked j)) (gone : listed' i → held' i = none) :
    Watches base listed' held' marked' watched' := by
  apply (watches_iff i).mpr
  intro r
  rw [watches.unwatch exclusive apart unwatched, others_congr list hold mark]
  refine (or_iff_left ?_).symm
  rintro ⟨still, has, -⟩
  rw [gone still] at has
  cases has

/-- A new holder is listed, and its resource watched if it is marked. -/
theorem Watches.enlist (watches : Watches base listed held marked watched) {i : ι} {own : ρ}
    (absent : ¬ listed i) (list : ∀ j, listed' j ↔ listed j ∨ j = i)
    (hold : ∀ j, j ≠ i → held' j = held j) (mark : ∀ j, j ≠ i → (marked' j ↔ marked j))
    (has : held' i = some own)
    (watch : ∀ r, watched' r = true ↔ watched r = true ∨ (own = r ∧ marked' i)) :
    Watches base listed' held' marked' watched' := by
  apply (watches_iff i).mpr
  intro r
  rw [watch, (watches_iff i).mp watches r, has, Option.some_inj]
  have same : others base listed' held' marked' i r ↔ others base listed held marked i r :=
    others_congr (fun j other => (list j).trans (or_iff_left other)) hold mark r
  have here : listed' i := (list i).mpr (Or.inr rfl)
  rw [same, or_iff_left (show ¬ (listed i ∧ _) from fun old => absent old.1)]
  exact or_congr_right (and_iff_right here).symm

end PhpWebSocket.Lib
