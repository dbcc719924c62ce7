import Calculator.Number.Rounding
import Mathlib.Algebra.Group.Int.Even
import Mathlib.Data.Rat.Floor
import Mathlib.Tactic.Linarith
import Mathlib.Tactic.Ring

/-! # The two roundings to an integer

Both stay within one half of what they round, so an integer that is nearer than that is what they give,
and both keep order. They treat opposite numbers alike.
-/

namespace Calculator.Rounding

variable {x : Rat} {n : Int}

/-- Counted in units of another size, distances are scaled. -/
theorem abs_sub_scaled {scale : Rat} (positive : 0 < scale) (x y : Rat) :
    |x * scale - y * scale| = |x - y| * scale := by
  rw [← sub_mul, abs_mul, abs_of_pos positive]

/-- Two integers within less than one half of the same number are equal. -/
theorem eq_of_abs_sub_lt {m : Int} (near : |x - n| < 1 / 2) (close : |(m : Rat) - x| ≤ 1 / 2) : m = n := by
  have apart : |((m - n : Int) : Rat)| < 1 := by
    push_cast
    calc |(m : Rat) - n| = |((m : Rat) - x) + (x - n)| := by ring_nf
      _ ≤ |(m : Rat) - x| + |x - n| := abs_add_le _ _
      _ < 1 := by linarith
  have none : |m - n| < 1 := by exact_mod_cast apart
  exact sub_eq_zero.mp (Int.abs_lt_one_iff.mp none)

/-- What is at most one half away is a nearest integer. -/
theorem abs_sub_le_of_close (close : |(n : Rat) - x| ≤ 1 / 2) (m : Int) : |x - n| ≤ |x - m| := by
  by_contra nearer
  rw [not_le] at nearer
  have half : |x - m| < 1 / 2 := by
    rw [abs_sub_comm] at close
    exact nearer.trans_le close
  rw [eq_of_abs_sub_lt half close] at nearer
  exact lt_irrefl _ nearer

/-- Rounding moves a number by one half at most. -/
theorem abs_halfEven_sub_le (x : Rat) : |(halfEven x : Rat) - x| ≤ 1 / 2 := by
  have below := Rat.floor_le x
  have above := Rat.lt_floor_add_one x
  push_cast at above
  unfold halfEven
  rw [abs_le]
  dsimp only
  split_ifs <;> push_cast <;> constructor <;> linarith

theorem abs_halfAway_sub_le (x : Rat) : |(halfAway x : Rat) - x| ≤ 1 / 2 := by
  unfold halfAway
  rw [abs_le]
  split_ifs
  · have below := Rat.floor_le (1 / 2 - x)
    have above := Rat.lt_floor_add_one (1 / 2 - x)
    push_cast at above ⊢
    constructor <;> linarith
  · have below := Rat.floor_le (x + 1 / 2)
    have above := Rat.lt_floor_add_one (x + 1 / 2)
    push_cast at above
    constructor <;> linarith

/-- Nearer than one half there is only one integer. -/
theorem halfEven_eq (near : |x - n| < 1 / 2) : halfEven x = n :=
  eq_of_abs_sub_lt near (abs_halfEven_sub_le x)

theorem halfAway_eq (near : |x - n| < 1 / 2) : halfAway x = n :=
  eq_of_abs_sub_lt near (abs_halfAway_sub_le x)

/-- No integer is nearer than the rounding. -/
theorem abs_sub_halfEven_le (x : Rat) (n : Int) : |x - halfEven x| ≤ |x - n| :=
  abs_sub_le_of_close (abs_halfEven_sub_le x) n

@[simp] theorem halfEven_intCast (n : Int) : halfEven n = n := halfEven_eq (by simp)

@[simp] theorem halfEven_zero : halfEven 0 = 0 := halfEven_intCast 0

/-- Of the two neighbours of a tie one is even. -/
theorem halfEven_tie (n : Int) : halfEven (n + 1 / 2) = if n % 2 = 0 then n else n + 1 := by
  have below : (n + 1 / 2 : Rat).floor = n := by
    change ⌊(n + 1 / 2 : Rat)⌋ = n
    rw [Int.floor_eq_iff]
    constructor <;> linarith
  have excess : (n + 1 / 2 : Rat) - n = 1 / 2 := by ring
  simp only [halfEven, below, excess, lt_irrefl, if_false]

/-- What is no tie is nearer to its rounding than one half. -/
theorem abs_sub_halfEven_lt_or_tie (x : Rat) :
    |x - halfEven x| < 1 / 2 ∨ ∃ n : Int, x = n + 1 / 2 := by
  have below := Rat.floor_le x
  have above := Rat.lt_floor_add_one x
  push_cast at above
  rcases lt_trichotomy (x - x.floor) (1 / 2) with near | tie | far
  · refine .inl ?_
    have nearer : |x - x.floor| < 1 / 2 := by
      rw [abs_of_nonneg (by linarith)]
      exact near
    rwa [halfEven_eq nearer]
  · exact .inr ⟨x.floor, by linarith⟩
  · refine .inl ?_
    have nearer : |x - (x.floor + 1 : Int)| < 1 / 2 := by
      push_cast
      rw [abs_of_nonpos (by linarith)]
      linarith
    rwa [halfEven_eq nearer]

/-- Opposite numbers have opposite roundings. -/
theorem halfEven_neg (x : Rat) : halfEven (-x) = -halfEven x := by
  rcases abs_sub_halfEven_lt_or_tie x with near | ⟨n, rfl⟩
  · apply halfEven_eq
    rwa [Int.cast_neg, sub_neg_eq_add, neg_add_eq_sub, abs_sub_comm]
  · have opposite : -((n : Rat) + 1 / 2) = (-n - 1 : Int) + 1 / 2 := by
      push_cast
      ring
    rw [opposite, halfEven_tie, halfEven_tie]
    split_ifs <;> omega

/-! ### Which integers they are -/

/-- The nearest integer; of two that are equally near, the even one. -/
structure IsNearestEven (x : Rat) (n : Int) : Prop where
  nearest : ∀ m : Int, |x - n| ≤ |x - m|
  tie : ∀ m : Int, m ≠ n → |x - m| = |x - n| → Even n

/-- The nearest integer; of two that are equally near, the one further away from zero. -/
structure IsNearestAway (x : Rat) (n : Int) : Prop where
  nearest : ∀ m : Int, |x - n| ≤ |x - m|
  tie : ∀ m : Int, |x - m| = |x - n| → |m| ≤ |n|

/-- The integer is a nearest one, and the even one of two. -/
theorem isNearestEven_halfEven (x : Rat) : IsNearestEven x (halfEven x) where
  nearest := abs_sub_le_of_close (abs_halfEven_sub_le x)
  tie m other same := by
    rcases abs_sub_halfEven_lt_or_tie x with near | ⟨n, rfl⟩
    · exact absurd (halfEven_eq (same ▸ near)).symm other
    · rw [halfEven_tie]
      split_ifs with even
      · exact Int.even_iff.mpr even
      · rw [Int.even_iff]
        omega

private theorem halfAway_side (x : Rat) :
    (x < 0 → (halfAway x : Rat) < x + 1 / 2) ∧ (0 ≤ x → x - 1 / 2 < halfAway x) := by
  unfold halfAway
  constructor
  · intro negative
    have above := Rat.lt_floor_add_one (1 / 2 - x)
    rw [if_pos negative]
    push_cast at above ⊢
    linarith
  · intro nonneg
    have above := Rat.lt_floor_add_one (x + 1 / 2)
    rw [if_neg (not_lt.mpr nonneg)]
    push_cast at above
    linarith

private theorem abs_halfAway_of_tie (tie : |x - halfAway x| = 1 / 2) :
    |(halfAway x : Rat)| = |x| + 1 / 2 := by
  obtain ⟨down, up⟩ := halfAway_side x
  rcases lt_or_ge x 0 with negative | nonneg
  · have below := down negative
    have rounded : (halfAway x : Rat) = x - 1 / 2 := by
      rcases eq_or_eq_neg_of_abs_eq tie with less | more <;> linarith
    rw [rounded, abs_of_neg negative, abs_of_neg (by linarith : x - 1 / 2 < 0)]
    ring
  · have above := up nonneg
    have rounded : (halfAway x : Rat) = x + 1 / 2 := by
      rcases eq_or_eq_neg_of_abs_eq tie with less | more <;> linarith
    rw [rounded, abs_of_nonneg nonneg, abs_of_nonneg (by linarith : 0 ≤ x + 1 / 2)]

/-- The integer is a nearest one, and of two the one further away from zero. -/
theorem isNearestAway_halfAway (x : Rat) : IsNearestAway x (halfAway x) where
  nearest := abs_sub_le_of_close (abs_halfAway_sub_le x)
  tie m same := by
    have close := abs_halfAway_sub_le x
    rw [abs_sub_comm, le_iff_lt_or_eq] at close
    rcases close with near | tie
    · rw [halfAway_eq (same ▸ near)]
    · have magnitudes : |(m : Rat)| ≤ |(halfAway x : Rat)| := by
        calc |(m : Rat)| ≤ |x| + |x - m| := by
              have triangle := abs_sub_abs_le_abs_sub (m : Rat) x
              rw [abs_sub_comm] at triangle
              linarith
          _ = |(halfAway x : Rat)| := by rw [same, tie, abs_halfAway_of_tie tie]
      exact_mod_cast magnitudes

/-! ### Order -/

/-- A rounding to a nearest integer keeps order, wherever it sends ties. -/
theorem le_of_abs_sub_le {round : Rat → Int} (close : ∀ x : Rat, |(round x : Rat) - x| ≤ 1 / 2)
    {x y : Rat} (le : x ≤ y) : round x ≤ round y := by
  by_contra greater
  have apart : round y + 1 ≤ round x := by omega
  have cast : (round y : Rat) + 1 ≤ round x := by exact_mod_cast apart
  have above := (abs_le.mp (close y)).1
  have below := (abs_le.mp (close x)).2
  obtain rfl : x = y := by linarith
  exact greater le_rfl

theorem halfEven_mono {x y : Rat} (le : x ≤ y) : halfEven x ≤ halfEven y :=
  le_of_abs_sub_le abs_halfEven_sub_le le

theorem halfAway_mono {x y : Rat} (le : x ≤ y) : halfAway x ≤ halfAway y :=
  le_of_abs_sub_le abs_halfAway_sub_le le

end Calculator.Rounding
