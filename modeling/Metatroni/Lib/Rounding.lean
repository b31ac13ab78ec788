import Mathlib.Algebra.Order.Field.Basic
import Mathlib.Algebra.Order.Floor.Ring
import Mathlib.Algebra.Ring.Int.Parity
import Mathlib.Tactic.Linarith
import Mathlib.Tactic.Ring

/-!
# Rounding

Rounding to the nearest integer, where a value in the middle goes to the even one, and rounding to
the multiples of a unit.
-/

namespace Rounding

variable {K : Type} [Field K] [LinearOrder K] [IsStrictOrderedRing K] [FloorRing K]

/-- The nearest integer, the even one of two. -/
def roundEven (x : K) : ℤ :=
  if Int.fract x < 1 / 2 ∨ Int.fract x = 1 / 2 ∧ Even ⌊x⌋ then ⌊x⌋ else ⌊x⌋ + 1

theorem abs_roundEven_sub_le (x : K) : |(roundEven x : K) - x| ≤ 1 / 2 := by
  have hfloor := Int.floor_add_fract x
  have hnonneg := Int.fract_nonneg x
  have hlt := Int.fract_lt_one x
  rw [roundEven, abs_le]
  split
  · next h =>
      have hle : Int.fract x ≤ 1 / 2 := h.elim le_of_lt fun h => h.1.le
      constructor
      · linarith
      · linarith
  · next h =>
      have hge : 1 / 2 ≤ Int.fract x := not_lt.mp fun hlt => h (.inl hlt)
      push_cast
      constructor
      · linarith
      · linarith

/-- Two integers are not both near. -/
theorem one_le_abs_sub_add_abs_sub {m n : ℤ} (h : m ≠ n) (x : K) :
    1 ≤ |(m : K) - x| + |(n : K) - x| := by
  have hone : (1 : K) ≤ |(m : K) - n| := by
    have habs : 1 ≤ |m - n| := Int.one_le_abs (sub_ne_zero.mpr h)
    exact_mod_cast habs
  calc
    (1 : K) ≤ |(m : K) - n| := hone
    _ ≤ |(m : K) - x| + |x - n| := abs_sub_le _ x _
    _ = |(m : K) - x| + |(n : K) - x| := by rw [abs_sub_comm x]

/-- No integer is nearer. -/
theorem abs_roundEven_sub_le_abs (x : K) (n : ℤ) : |(roundEven x : K) - x| ≤ |n - x| := by
  by_cases heq : roundEven x = n
  · rw [heq]
  · have hsum := one_le_abs_sub_add_abs_sub heq x
    have hhalf := abs_roundEven_sub_le x
    linarith

theorem roundEven_of_abs_lt {x : K} {n : ℤ} (h : |(n : K) - x| < 1 / 2) : roundEven x = n := by
  by_contra heq
  have hsum := one_le_abs_sub_add_abs_sub heq x
  have hhalf := abs_roundEven_sub_le x
  linarith

theorem roundEven_intCast (n : ℤ) : roundEven (n : K) = n :=
  roundEven_of_abs_lt (by simp)

/-- A value in the middle goes to the even integer. -/
theorem even_roundEven {x : K} (h : |(roundEven x : K) - x| = 1 / 2) : Even (roundEven x) := by
  have hfloor := Int.floor_add_fract x
  have hnonneg := Int.fract_nonneg x
  have hlt := Int.fract_lt_one x
  rw [roundEven] at h ⊢
  split at h
  · next hcase =>
      rw [if_pos hcase]
      rw [abs_of_nonpos (by linarith)] at h
      exact (hcase.resolve_left (by linarith)).2
  · next hcase =>
      rw [if_neg hcase, Int.even_add_one]
      push_cast at h
      rw [abs_of_nonneg (by linarith)] at h
      exact fun heven => hcase (.inr ⟨by linarith, heven⟩)

omit [IsStrictOrderedRing K] [FloorRing K] in
theorem abs_neg_sub (n : ℤ) (x : K) : |((-n : ℤ) : K) - x| = |(n : K) - -x| := by
  rw [← abs_neg]
  push_cast
  congr 1
  ring

theorem roundEven_neg (x : K) : roundEven (-x) = -roundEven x := by
  rcases (abs_roundEven_sub_le x).lt_or_eq with hlt | heq
  · refine roundEven_of_abs_lt ?_
    rwa [abs_neg_sub, neg_neg]
  · -- both are even, and they differ by at most one
    have hnear := abs_roundEven_sub_le (-x)
    have heq' : |(roundEven (-x) : K) - -x| = 1 / 2 := by
      have hle := abs_roundEven_sub_le_abs x (-roundEven (-x))
      rw [heq, abs_neg_sub] at hle
      exact le_antisymm hnear hle
    have hone : |((roundEven (-x) : ℤ) : K) - ((-roundEven x : ℤ) : K)| ≤ 1 := by
      have htriangle := abs_sub_le (roundEven (-x) : K) (-x) ((-roundEven x : ℤ) : K)
      rw [abs_sub_comm (-x), abs_neg_sub, neg_neg, heq, heq'] at htriangle
      linarith
    have hint : |roundEven (-x) - -roundEven x| ≤ 1 := by exact_mod_cast hone
    obtain ⟨a, ha⟩ := even_roundEven heq
    obtain ⟨b, hb⟩ := even_roundEven heq'
    rw [abs_le] at hint
    omega

/-! ## Multiples of a unit -/

/-- A multiple of a unit that is at most half of the unit away. -/
structure IsRounded (u x y : K) : Prop where
  multiple : ∃ n : ℤ, y = n * u
  near : |y - x| ≤ |u| / 2

section Units

variable {u : K} (hu : u ≠ 0) (x : K)

omit [FloorRing K] in
include hu in
theorem abs_mul_sub (a : K) : |a * u - x| = |a - x / u| * |u| := by
  rw [← abs_mul, sub_mul, div_mul_cancel₀ x hu]

include hu in
theorem isRounded_intCast_mul_iff (n : ℤ) : IsRounded u x (n * u) ↔ |(n : K) - x / u| ≤ 1 / 2 := by
  have hpos := abs_pos.mpr hu
  constructor
  · rintro ⟨-, hnear⟩
    rw [abs_mul_sub hu] at hnear
    exact le_of_mul_le_mul_right (by linarith) hpos
  · intro h
    refine ⟨⟨n, rfl⟩, ?_⟩
    rw [abs_mul_sub hu]
    calc
      |(n : K) - x / u| * |u| ≤ 1 / 2 * |u| := mul_le_mul_of_nonneg_right h hpos.le
      _ = |u| / 2 := by ring

variable {k : ℤ} (hk : k ≠ 0)

include hu hk

/-- Rounding to the multiples of `k` units gives a nearest multiple of one unit if and only if a
multiple of `k` units is that near. -/
theorem isRounded_coarse_iff :
    IsRounded u x (roundEven (x / (k * u)) * (k * u)) ↔
      ∃ n : ℤ, |(n : K) * k - x / u| ≤ 1 / 2 := by
  have hk' : (k : K) ≠ 0 := Int.cast_ne_zero.mpr hk
  have hmul : (roundEven (x / (k * u)) : K) * (k * u) =
      ((roundEven (x / (k * u)) * k : ℤ) : K) * u := by
    push_cast
    ring
  have hdiv : x / (k * u) = x / u / k := by rw [div_div, mul_comm]
  rw [hmul, isRounded_intCast_mul_iff hu, hdiv]
  push_cast
  constructor
  · exact fun h => ⟨_, h⟩
  · rintro ⟨n, hn⟩
    rw [abs_mul_sub hk'] at hn ⊢
    exact (mul_le_mul_of_nonneg_right (abs_roundEven_sub_le_abs _ n) (abs_nonneg _)).trans hn

/-- It gives the even one of two if and only if this is a multiple of `k` units. -/
theorem roundEven_coarse_eq_iff :
    roundEven (x / (k * u)) * (k * u) = roundEven (x / u) * u ↔ k ∣ roundEven (x / u) := by
  have hk' : (k : K) ≠ 0 := Int.cast_ne_zero.mpr hk
  have hdiv : x / (k * u) = x / u / k := by rw [div_div, mul_comm]
  rw [hdiv, ← mul_assoc, mul_left_inj' hu]
  generalize x / u = y
  constructor
  · intro h
    have hint : roundEven (y / k) * k = roundEven y := by exact_mod_cast h
    exact ⟨_, hint.symm.trans (mul_comm _ _)⟩
  · rintro ⟨n, hn⟩
    have hround : roundEven (y / k) = n := by
      by_cases hone : |k| = 1
      · rcases abs_eq_abs.mp (hone.trans abs_one.symm) with rfl | rfl
        · rw [Int.cast_one, div_one, hn, one_mul]
        · rw [Int.cast_neg, Int.cast_one, div_neg, div_one, roundEven_neg, hn]
          ring
      · have htwo : (2 : K) ≤ |(k : K)| := by
          have habs : 2 ≤ |k| := by
            have := Int.one_le_abs hk
            omega
          exact_mod_cast habs
        have hnear := abs_roundEven_sub_le y
        rw [hn, Int.cast_mul, mul_comm, abs_mul_sub hk'] at hnear
        refine roundEven_of_abs_lt ?_
        have hle := mul_le_mul_of_nonneg_left htwo (abs_nonneg ((n : K) - y / k))
        linarith
    rw [hround, hn]
    push_cast
    ring

end Units

end Rounding
