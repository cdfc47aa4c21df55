/-!
# Ranges of characters

A class of characters is given by the ranges of code points that it holds. All classes are those of
Unicode 16.0.
-/

namespace EditorFormat.Text

/-- Ranges of code points, both ends included. -/
abbrev Ranges := List (Nat × Nat)

/-- Whether a character lies in one of the ranges. -/
def Ranges.has (ranges : Ranges) (c : Char) : Bool :=
  ranges.any fun range => range.1 ≤ c.toNat && c.toNat ≤ range.2

/-- No character lies in both of two classes without a common range. -/
theorem Ranges.not_has_of_disjoint {first second : Ranges}
    (h : ∀ range ∈ first, ∀ other ∈ second, range.2 < other.1 ∨ other.2 < range.1) {c : Char}
    (hc : first.has c = true) : second.has c = false := by
  obtain ⟨range, hrange, hin⟩ := List.any_eq_true.1 hc
  refine List.any_eq_false.2 fun other hother => ?_
  have hapart := h range hrange other hother
  simp only [Bool.and_eq_true, decide_eq_true_eq] at hin ⊢
  omega

/-- A character below a bound is in none of the ranges that are above it. -/
theorem Ranges.has_take {ranges : Ranges} {count bound : Nat}
    (h : ∀ range ∈ ranges.drop count, bound ≤ range.1) {c : Char} (hc : c.toNat < bound) :
    ranges.has c = Ranges.has (ranges.take count) c := by
  have hnone : Ranges.has (ranges.drop count) c = false := by
    refine List.any_eq_false.2 fun range hrange => ?_
    have habove := h range hrange
    simp only [Bool.and_eq_true, decide_eq_true_eq]
    omega
  calc ranges.has c
      = Ranges.has (ranges.take count ++ ranges.drop count) c := by rw [List.take_append_drop]
    _ = (Ranges.has (ranges.take count) c || Ranges.has (ranges.drop count) c) := List.any_append
    _ = Ranges.has (ranges.take count) c := by rw [hnone, Bool.or_false]

/-- What is true of each code point below a bound is true of the characters below it. -/
@[elab_as_elim]
theorem of_toNat_lt {motive : Char → Prop} {bound : Nat} {c : Char} (hc : c.toNat < bound)
    (h : ∀ n < bound, motive (Char.ofNat n)) : motive c := by
  have hchar := h c.toNat hc
  rwa [Char.ofNat_toNat] at hchar

end EditorFormat.Text
