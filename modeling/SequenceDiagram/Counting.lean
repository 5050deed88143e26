/-!
How far numbers are counted. The definitions of this library add and multiply without end, and a
difference of numbers in the wrong order is zero. A machine word ends somewhere. Here it is said once
what that means: a sum or a product past the greatest word ends the run there and then, and so does a
difference below zero where zero is not what is meant. `SequenceDiagram.Layout.Counted` and
`SequenceDiagram.Picture.Counted` write the layout and the painter again in this way.

Of numbers that are added up the sums on the way are no greater than the last one, so one look at a whole
sum is as good as a look at each of its parts.
-/

namespace SequenceDiagram

/-- How far numbers are counted. -/
inductive Counting where
  /-- Without end. -/
  | endless
  /-- Up to a greatest number. -/
  | upTo (greatest : Nat)
deriving DecidableEq, Repr

namespace Counting

/-- In words of 64 bits. -/
def words : Counting := .upTo 0xFFFFFFFFFFFFFFFF

/-- The number is not past the greatest. -/
def holds : Counting → Nat → Bool
  | endless, _ => true
  | upTo greatest, number => decide (number ≤ greatest)

/-- The number, if it is not past the greatest; else the run ends. -/
def count? (n : Counting) (number : Nat) : Option Nat := if n.holds number then some number else none

example : words.count? (0x8000000000000000 + 0x8000000000000000) = none := by decide

variable {n : Counting} {part number : Nat}

@[simp]
theorem holds_endless (number : Nat) : endless.holds number = true := rfl

@[simp]
theorem count?_endless (number : Nat) : endless.count? number = some number := rfl

theorem holds_of_le (le : part ≤ number) (held : n.holds number = true) : n.holds part = true := by
  cases n with
  | endless => rfl
  | upTo greatest => exact decide_eq_true (Nat.le_trans le (of_decide_eq_true held))

theorem count?_of_holds (held : n.holds number = true) : n.count? number = some number := if_pos held

theorem count?_eq_some_iff {counted : Nat} :
    n.count? number = some counted ↔ n.holds number = true ∧ number = counted := by
  rw [count?]
  split <;> simp [*]

/-- A look at a part before the look at the whole changes nothing. -/
theorem count?_bind_count? {whole : Nat → Nat} (le : part ≤ whole part) :
    ((n.count? part).bind fun counted => n.count? (whole counted)) = n.count? (whole part) := by
  by_cases held : n.holds part = true
  · rw [count?_of_holds held, Option.bind_some]
  · rw [count?, count?, if_neg held, if_neg (mt (holds_of_le le) held), Option.bind_none]

end Counting

/-- The difference of two numbers in the right order. -/
def minus? (a b : Nat) : Option Nat := if b ≤ a then some (a - b) else none

theorem minus?_eq {a b : Nat} (order : b ≤ a) : minus? a b = some (a - b) := if_pos order

end SequenceDiagram
