import EditorFormat.Text.Units
import Mathlib.Order.Fin.Basic
import Mathlib.Order.GaloisConnection.Defs

/-!
# UTF-16 code units of a text

Counting units and rounding a number of units down to whole characters belong together:
`unitsBefore_le_iff` says that as many characters fit into a number of units as `charsWithin` gives.
What there is to say about going from characters to units and back follows from this adjunction
(`unit_offsets_adjoin`).
-/

namespace EditorFormat.Text

/-- The number of UTF-16 code units of some characters. -/
def unitLength (text : List Char) : Nat :=
  text.foldr (fun c total => units c + total) 0

/-- The units before an offset are those of the characters before it. -/
theorem unitsBefore_eq (text : List Char) (offset : Nat) :
    unitsBefore text offset = unitLength (text.take offset) :=
  unitsBefore_eq_foldr_take text offset

/-- No more characters are within an offset than there are. -/
theorem charsWithin_le (text : List Char) (limit : Nat) : charsWithin text limit ≤ text.length := by
  induction text generalizing limit with
  | nil => exact Nat.le_refl 0
  | cons c rest ih =>
    rw [charsWithin, List.length_cons]
    split
    · exact Nat.zero_le _
    · have hrest := ih (limit - units c)
      omega

/-- Some first characters fit into a number of units exactly when they are within it. -/
theorem unitsBefore_le_iff {text : List Char} {offset : Nat} (h : offset ≤ text.length)
    (limit : Nat) : unitsBefore text offset ≤ limit ↔ offset ≤ charsWithin text limit := by
  induction text generalizing offset limit with
  | nil =>
    rw [Nat.le_zero.1 h]
    exact ⟨fun _ => Nat.zero_le _, fun _ => Nat.zero_le _⟩
  | cons c rest ih =>
    cases offset with
    | zero => exact ⟨fun _ => Nat.zero_le _, fun _ => Nat.zero_le _⟩
    | succ offset =>
      have hrest := ih (Nat.le_of_succ_le_succ h) (limit - units c)
      rw [unitsBefore, charsWithin]
      split <;> omega

/-- More characters have more units. -/
theorem unitsBefore_lt {text : List Char} {offset later : Nat} (h : offset < later)
    (hlater : later ≤ text.length) : unitsBefore text offset < unitsBefore text later := by
  refine Nat.lt_of_not_le fun hle => ?_
  induction text generalizing offset later with
  | nil => exact Nat.not_lt_zero _ (Nat.lt_of_lt_of_le h hlater)
  | cons c rest ih =>
    obtain ⟨later, rfl⟩ := Nat.exists_eq_succ_of_ne_zero (Nat.ne_zero_of_lt h)
    have hpos := units_pos c
    cases offset with
    | zero =>
      simp only [unitsBefore] at hle
      omega
    | succ offset =>
      refine ih (Nat.lt_of_succ_lt_succ h) (Nat.le_of_succ_le_succ hlater) ?_
      exact Nat.le_of_add_le_add_left hle

/-! ## There and back -/

section Adjunction

variable {text : List Char} {offset index unit : Nat}

/-- Counting units is adjoint to rounding down, on the offsets up to the end of a text. -/
theorem galois_unitsBefore (text : List Char) :
    GaloisConnection (fun offset : Fin (text.length + 1) => unitsBefore text offset)
      (fun unit => ⟨charsWithin text unit, Nat.lt_succ_of_le (charsWithin_le text unit)⟩) :=
  fun offset unit => unitsBefore_le_iff (Nat.le_of_lt_succ offset.isLt) unit

/-- There are no more units before an offset past the end than in the text. -/
theorem unitsBefore_min (text : List Char) (offset : Nat) :
    unitsBefore text (min offset text.length) = unitsBefore text offset := by
  rw [unitsBefore_eq, unitsBefore_eq, List.take_eq_take_min (i := offset)]

/-- All units are before an offset past the end. -/
theorem unitsBefore_of_length_le (h : text.length ≤ offset) :
    unitsBefore text offset = unitLength text := by
  rw [unitsBefore_eq, List.take_of_length_le h]

/-- There are no fewer units before a later offset. -/
theorem monotone_unitsBefore (text : List Char) : Monotone (unitsBefore text) := by
  intro offset later h
  have hmin : min offset text.length ≤ min later text.length := by omega
  have hlater : min later text.length < text.length + 1 := by omega
  rw [← unitsBefore_min text offset, ← unitsBefore_min text later]
  exact (galois_unitsBefore text).monotone_l
    (show (⟨_, Nat.lt_of_le_of_lt hmin hlater⟩ : Fin (text.length + 1)) ≤ ⟨_, hlater⟩ from hmin)

/-- No fewer characters are within more units. -/
theorem monotone_charsWithin (text : List Char) : Monotone (charsWithin text) :=
  fun _ _ h => (galois_unitsBefore text).monotone_u h

/-- The characters within the units before an offset are those before it. -/
theorem charsWithin_unitsBefore (text : List Char) (offset : Nat) :
    charsWithin text (unitsBefore text offset) = min offset text.length := by
  have hmin : min offset text.length ≤ text.length := Nat.min_le_right ..
  have hle := charsWithin_le text (unitsBefore text offset)
  refine Nat.le_antisymm (Nat.le_of_not_lt fun hlt => ?_) ?_
  · -- One more character has more units than there are.
    have hmore := unitsBefore_lt hlt hle
    rw [unitsBefore_min] at hmore
    exact Nat.not_le_of_lt hmore ((unitsBefore_le_iff hle _).2 (Nat.le_refl _))
  · rw [← unitsBefore_le_iff hmin, unitsBefore_min]

/-- All characters are within as many units as the text has. -/
theorem charsWithin_of_unitLength_le (h : unitLength text ≤ unit) :
    charsWithin text unit = text.length := by
  refine Nat.le_antisymm (charsWithin_le text unit) ?_
  rw [← unitsBefore_le_iff (Nat.le_refl _), unitsBefore_of_length_le (Nat.le_refl _)]
  exact h

/-- A unit is one of those of the character at an index. -/
def IsUnitOf (text : List Char) (index unit : Nat) : Prop :=
  ∃ c, text[index]? = some c ∧
    unitsBefore text index ≤ unit ∧ unit < unitsBefore text index + units c

/-- The units of a character lie before the next one. -/
theorem unitsBefore_succ {c : Char} (h : text[index]? = some c) :
    unitsBefore text (index + 1) = unitsBefore text index + units c := by
  induction text generalizing index with
  | nil => exact absurd h nofun
  | cons first rest ih =>
    cases index with
    | zero =>
      obtain rfl : first = c := by simpa using h
      cases rest <;> simp [unitsBefore]
    | succ index =>
      have hrest := ih (by simpa using h)
      simp only [unitsBefore]
      omega

/-- A unit is rounded down to the character that it is one of. -/
theorem isUnitOf_iff : IsUnitOf text index unit ↔
    index < text.length ∧ charsWithin text unit = index := by
  constructor
  · rintro ⟨c, hc, hle, hlt⟩
    have hindex : index < text.length := (List.getElem?_eq_some_iff.1 hc).1
    rw [← unitsBefore_succ hc, ← Nat.not_le, unitsBefore_le_iff hindex] at hlt
    rw [unitsBefore_le_iff (Nat.le_of_lt hindex)] at hle
    exact ⟨hindex, by omega⟩
  · rintro ⟨hindex, rfl⟩
    have hc := List.getElem?_eq_getElem hindex
    refine ⟨_, hc, (unitsBefore_le_iff (Nat.le_of_lt hindex) unit).2 (Nat.le_refl _), ?_⟩
    rw [← unitsBefore_succ hc, ← Nat.not_le, unitsBefore_le_iff hindex]
    exact Nat.not_succ_le_self _

/-- Every unit of a text is one of a character. -/
theorem exists_isUnitOf (h : unit < unitLength text) : ∃ index, IsUnitOf text index unit := by
  refine ⟨charsWithin text unit, isUnitOf_iff.2 ⟨?_, rfl⟩⟩
  refine Nat.lt_of_le_of_ne (charsWithin_le text unit) fun hall => ?_
  have hfits := (unitsBefore_le_iff (Nat.le_refl text.length) unit).2 (Nat.le_of_eq hall.symm)
  rw [unitsBefore_of_length_le (Nat.le_refl _)] at hfits
  exact Nat.not_le_of_lt h hfits

end Adjunction

/-- The translations of offsets in characters and in units are adjoint: as many characters fit into
a number of units as it is rounded down to. An offset in characters comes back, cut off at the end
of the text; one in units comes back as the start of the character that the unit belongs to. -/
structure UnitOffsetsAdjoin (text : String) : Prop where
  le_iff : ∀ offset ≤ text.toList.length, ∀ unit,
    toUnitOffset text offset ≤ unit ↔ offset ≤ ofUnitOffset text unit
  of_toUnit : ∀ offset,
    ofUnitOffset text (toUnitOffset text offset) = min offset text.toList.length
  of_unit : ∀ index unit, IsUnitOf text.toList index unit → ofUnitOffset text unit = index
  to_ofUnit : ∀ index unit, IsUnitOf text.toList index unit →
    toUnitOffset text (ofUnitOffset text unit) = toUnitOffset text index
  belongs : ∀ unit < unitLength text.toList, ∃ index, IsUnitOf text.toList index unit
  monotone_to : Monotone (toUnitOffset text)
  monotone_of : Monotone (ofUnitOffset text)
  to_past_end : ∀ offset, text.toList.length ≤ offset →
    toUnitOffset text offset = unitLength text.toList
  of_past_end : ∀ unit, unitLength text.toList ≤ unit →
    ofUnitOffset text unit = text.toList.length

/-- In every text, with whatever characters of one or two units, the two translations of offsets
are adjoint. -/
theorem unit_offsets_adjoin (text : String) : UnitOffsetsAdjoin text where
  le_iff _ h := unitsBefore_le_iff h
  of_toUnit := charsWithin_unitsBefore text.toList
  of_unit _ _ h := (isUnitOf_iff.1 h).2
  to_ofUnit _ _ h := congrArg (toUnitOffset text) (isUnitOf_iff.1 h).2
  belongs _ := exists_isUnitOf
  monotone_to := monotone_unitsBefore text.toList
  monotone_of := monotone_charsWithin text.toList
  to_past_end _ := unitsBefore_of_length_le
  of_past_end _ := charsWithin_of_unitLength_le

/-- An offset within a surrogate pair is rounded down to its start. -/
example : ofUnitOffset "😀x" 1 = 0 ∧ toUnitOffset "😀x" 1 = 2 := by decide

end EditorFormat.Text
