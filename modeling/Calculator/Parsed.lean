/-!
# What a reading function returns

A function that reads the front of a list returns what it has read and the list that follows, with
the fact that it is shorter than a given bound. Recursion on the list that follows then ends.
-/

namespace Calculator

/-- A value read from the front of a list, and what follows it. -/
structure Parsed (σ : Type) (α : Type) (bound : Nat) where
  /-- What has been read. -/
  value : α
  /-- What follows. -/
  rest : List σ
  /-- There is less of it than `bound`. -/
  shorter : rest.length < bound

namespace Parsed

variable {σ α β : Type} {n m : Nat}

/-- The same reading under a larger bound. -/
def weaken (r : Parsed σ α n) (h : n ≤ m) : Parsed σ α m :=
  ⟨r.value, r.rest, Nat.lt_of_lt_of_le r.shorter h⟩

/-- The same reading with another value. -/
def map (f : α → β) (r : Parsed σ α n) : Parsed σ β n :=
  ⟨f r.value, r.rest, r.shorter⟩

/-- What has been read, and what follows. -/
def outcome (r : Option (Parsed σ α n)) : Option (α × List σ) :=
  r.map fun parsed => (parsed.value, parsed.rest)

/-- A reading with a given outcome. -/
theorem outcome_eq_some {r : Option (Parsed σ α n)} {a : α} {rest : List σ} :
    outcome r = some (a, rest) ↔
      ∃ parsed, r = some parsed ∧ parsed.value = a ∧ parsed.rest = rest := by
  rw [outcome, Option.map_eq_some_iff]
  simp only [Prod.mk.injEq]

/-- What is made of a value that has been read changes nothing about what follows. -/
theorem outcome_map_weaken (h : n ≤ m) (f : α → β) (r : Option (Parsed σ α n)) :
    outcome (r.bind fun parsed => pure ((parsed.map f).weaken h)) =
      (outcome r).map fun read => (f read.1, read.2) := by
  cases r <;> rfl

/-- What has been made of a value that has been read. -/
theorem of_outcome_map_weaken {h : n ≤ m} {f : α → β} {r : Option (Parsed σ α n)} {b : β}
    {rest : List σ}
    (hread : outcome (r.bind fun parsed => pure ((parsed.map f).weaken h)) = some (b, rest)) :
    ∃ a, outcome r = some (a, rest) ∧ f a = b := by
  rw [outcome_map_weaken] at hread
  obtain ⟨⟨a, _⟩, ha, ⟨⟩⟩ := Option.map_eq_some_iff.1 hread
  exact ⟨a, ha, rfl⟩

end Parsed

end Calculator
