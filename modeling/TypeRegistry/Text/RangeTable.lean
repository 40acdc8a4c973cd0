/-!
# Tables of code-point ranges

A character class is given as an ascending list of closed ranges. `RangeTable.contains` looks a code
point up and stops at the first range that starts above it, so a lookup of a small code point is
short even in a long table.

## Main statements

* `RangeTable.contains_iff`: in an ascending table the lookup finds exactly the members of its
  ranges.
-/

namespace TypeRegistry

/-- A list of closed ranges of code points, meant to be ascending. -/
abbrev RangeTable := List (Nat × Nat)

namespace RangeTable

/-- The ranges are nonempty, start at `n` or later, and each one ends below the start of the next.
-/
def AscendingFrom : Nat → RangeTable → Prop
  | _, [] => True
  | n, (low, high) :: rest => n ≤ low ∧ low ≤ high ∧ AscendingFrom (high + 1) rest

/-- Whether a table ascends is decided in one pass. -/
instance decidableAscendingFrom : (n : Nat) → (t : RangeTable) → Decidable (AscendingFrom n t)
  | _, [] => .isTrue trivial
  | n, (low, high) :: rest =>
    have := decidableAscendingFrom (high + 1) rest
    inferInstanceAs (Decidable (n ≤ low ∧ low ≤ high ∧ AscendingFrom (high + 1) rest))

/-- Whether the code point `n` lies in one of the ranges. -/
def contains : RangeTable → Nat → Bool
  | [], _ => false
  | (low, high) :: rest, n => decide (low ≤ n) && (decide (n ≤ high) || contains rest n)

/-- Every range of an ascending table starts at or above its lower bound. -/
theorem AscendingFrom.le_of_mem {t : RangeTable} {n : Nat} (ht : t.AscendingFrom n) {r : Nat × Nat}
    (hr : r ∈ t) : n ≤ r.1 := by
  induction t generalizing n with
  | nil => cases hr
  | cons s rest ih =>
    obtain ⟨hn, hs, hrest⟩ := ht
    rcases List.mem_cons.1 hr with rfl | hmem
    · exact hn
    · have := ih hrest hmem
      omega

/-- Lookup in an ascending table finds exactly the code points that lie in some range. -/
theorem contains_iff {t : RangeTable} {n : Nat} (ht : t.AscendingFrom n) (m : Nat) :
    t.contains m = true ↔ ∃ r ∈ t, r.1 ≤ m ∧ m ≤ r.2 := by
  induction t generalizing n with
  | nil => simp [contains]
  | cons s rest ih =>
    obtain ⟨_, _, hrest⟩ := ht
    simp only [contains, Bool.and_eq_true, Bool.or_eq_true, decide_eq_true_eq, ih hrest,
      List.mem_cons, exists_eq_or_imp]
    constructor
    · rintro ⟨hlow, hhigh | hin⟩
      · exact Or.inl ⟨hlow, hhigh⟩
      · exact Or.inr hin
    · rintro (⟨hlow, hhigh⟩ | ⟨r, hr, hrlow, hrhigh⟩)
      · exact ⟨hlow, Or.inl hhigh⟩
      -- A later range starts above the present one, so the lookup does not stop before it.
      · have := hrest.le_of_mem hr
        exact ⟨by omega, Or.inr ⟨r, hr, hrlow, hrhigh⟩⟩

end RangeTable

end TypeRegistry
