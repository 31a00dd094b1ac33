import Mathlib.Algebra.Group.Nat.Defs
import Mathlib.Data.Nat.Log
import Mathlib.Tactic.SplitIfs
import StockRegister.Number.Double

/-!
# Counting with floating-point numbers

A count is kept as a sum of ones, each addition being rounded. Rounding a quotient depends on its
value alone, so numerator and denominator may share a power of two (`Double.roundRank_mul`). A
natural number below `2 ^ 53`, divided by a power of two, is a floating-point number without
rounding (`Double.units_ofQuotient_two_pow`), and so is every natural number up to `2 ^ 53`
(`Double.isCount_ofInt`).

`Double.ofCount` is the sum of so many ones : their number up to `2 ^ 53`, from where on every
further one is lost (`Double.ofCount_add_one`).
-/

namespace StockRegister

namespace Double

theorem log2_mul_two_pow {n : Nat} (hn : n ≠ 0) (k : Nat) : (n * 2 ^ k).log2 = n.log2 + k := by
  have hproduct : n * 2 ^ k ≠ 0 := Nat.mul_ne_zero hn (Nat.two_pow_pos k).ne'
  obtain ⟨hlow, hhigh⟩ := (Nat.log2_eq_iff hn).mp rfl
  refine (Nat.log2_eq_iff hproduct).mpr ⟨?_, ?_⟩
  · rw [Nat.pow_add]
    exact Nat.mul_le_mul_right _ hlow
  · rw [Nat.add_right_comm, Nat.pow_add]
    exact Nat.mul_lt_mul_of_pos_right hhigh (Nat.two_pow_pos k)

/-! ## Rounding quotients -/

theorem roundQuotient_mul (num den : Nat) {c : Nat} (hc : 0 < c) :
    roundQuotient (num * c) (den * c) = roundQuotient num den := by
  have hbelow : 2 * (num % den * c) < den * c ↔ 2 * (num % den) < den := by
    rw [← Nat.mul_assoc, Nat.mul_lt_mul_right hc]
  have habove : den * c < 2 * (num % den * c) ↔ den < 2 * (num % den) := by
    rw [← Nat.mul_assoc, Nat.mul_lt_mul_right hc]
  simp only [roundQuotient, Nat.mul_div_mul_right _ _ hc, Nat.mul_mod_mul_right, hbelow, habove]

theorem scaled_mul (num den c : Nat) (q : Int) :
    scaled (num * c) (den * c) q = ((scaled num den q).1 * c, (scaled num den q).2 * c) := by
  unfold scaled
  split_ifs
  · rw [Nat.mul_right_comm]
  · rw [Nat.mul_right_comm]

theorem lastPlace_mul {num den : Nat} (hnum : num ≠ 0) (hden : den ≠ 0) (k : Nat) :
    lastPlace (num * 2 ^ k) (den * 2 ^ k) = lastPlace num den := by
  have hguess : ((num.log2 + k : Nat) : Int) - ((den.log2 + k : Nat) : Int) - 52 =
      (num.log2 : Int) - (den.log2 : Int) - 52 := by omega
  simp only [lastPlace, log2_mul_two_pow hnum, log2_mul_two_pow hden, hguess, scaled_mul,
    Nat.mul_div_mul_right _ _ (Nat.two_pow_pos k)]

/-- Numerator and denominator may share a power of two. -/
theorem roundRank_mul (num : Nat) {den : Nat} (hden : den ≠ 0) (k : Nat) :
    roundRank (num * 2 ^ k) (den * 2 ^ k) = roundRank num den := by
  by_cases hnum : num = 0
  · simp [roundRank, hnum]
  · have hproduct : num * 2 ^ k ≠ 0 := Nat.mul_ne_zero hnum (Nat.two_pow_pos k).ne'
    simp only [roundRank, if_neg hnum, if_neg hproduct, lastPlace_mul hnum hden, scaled_mul,
      roundQuotient_mul _ _ (Nat.two_pow_pos k)]

/-! ## Multiples of powers of two without rounding -/

/-- A power of two, which is not computed where it stands for a number of units. -/
def twoPow (k : Nat) : Nat := Nat.pow 2 k

theorem two_pow_eq_twoPow (k : Nat) : 2 ^ k = twoPow k := by rw [← Nat.pow_eq, twoPow]

theorem twoPow_pos (k : Nat) : 0 < twoPow k := Nat.two_pow_pos k

section Quotients

variable {n e : Nat} (hpos : 0 < n) (hlt : n < 2 ^ 53)

include hpos hlt

/-- An integer below `2 ^ 53` can be moved up until it has 53 binary digits. -/
theorem shifted_bounds : n.log2 ≤ 52 ∧ 2 ^ 52 ≤ n * 2 ^ (52 - n.log2) ∧
    n * 2 ^ (52 - n.log2) < 2 ^ 53 := by
  have hlog : n.log2 < 53 := (Nat.log2_lt hpos.ne').mpr hlt
  have hproduct : n * 2 ^ (52 - n.log2) ≠ 0 :=
    Nat.mul_ne_zero hpos.ne' (Nat.two_pow_pos _).ne'
  have hshifted : (n * 2 ^ (52 - n.log2)).log2 = 52 := by
    rw [log2_mul_two_pow hpos.ne']
    omega
  obtain ⟨hlow, hhigh⟩ := (Nat.log2_eq_iff hproduct).mp hshifted
  exact ⟨by omega, hlow, hhigh⟩

theorem scaled_two_pow : scaled n (2 ^ e) ((n.log2 : Int) - e - 52) =
    (n * 2 ^ (52 - n.log2) * 2 ^ e, 2 ^ e) := by
  obtain ⟨hlog, -, -⟩ := shifted_bounds hpos hlt
  unfold scaled
  split_ifs with h
  · obtain ⟨rfl, hfull⟩ : e = 0 ∧ n.log2 = 52 := by omega
    simp [hfull]
  · have hexponent : (-((n.log2 : Int) - e - 52)).toNat = 52 - n.log2 + e := by omega
    rw [hexponent, Nat.pow_eq, Nat.pow_add, Nat.mul_assoc]

theorem lastPlace_two_pow (he : e ≤ 53) : lastPlace n (2 ^ e) = (n.log2 : Int) - e - 52 := by
  obtain ⟨-, hlow, -⟩ := shifted_bounds hpos hlt
  have hlarge : ¬n * 2 ^ (52 - n.log2) * 2 ^ e / 2 ^ e < Nat.pow 2 52 := by
    rw [Nat.mul_div_cancel _ (Nat.two_pow_pos e), Nat.pow_eq]
    omega
  simp only [lastPlace, Nat.log2_two_pow, scaled_two_pow hpos hlt, if_neg hlarge]
  omega

theorem roundRank_two_pow (he : e ≤ 53) :
    roundRank n (2 ^ e) = (n.log2 + 1022 - e) * 2 ^ 52 + n * 2 ^ (52 - n.log2) := by
  obtain ⟨hlog, -, hhigh⟩ := shifted_bounds hpos hlt
  have hplace : ((n.log2 : Int) - e - 52 + 1074).toNat = n.log2 + 1022 - e := by omega
  have hround (m : Nat) : roundQuotient (m * 2 ^ e) (2 ^ e) = m := by
    have hshare := roundQuotient_mul m 1 (Nat.two_pow_pos e)
    rw [Nat.one_mul] at hshare
    rw [hshare]
    simp [roundQuotient, Nat.mod_one]
  have hfinite : (n.log2 + 1022 - e) * 2 ^ 52 + n * 2 ^ (52 - n.log2) ≤ infinityRank := by
    have hrank : infinityRank = 2047 * 2 ^ 52 := rfl
    omega
  simp only [roundRank, if_neg hpos.ne', lastPlace_two_pow hpos hlt he, scaled_two_pow hpos hlt,
    hplace, hround, Nat.pow_eq]
  exact Nat.min_eq_right hfinite

/-- The absolute value of an integer below `2 ^ 53`, divided by a power of two, is the quotient
itself. -/
theorem units_ofQuotient_two_pow (he : e ≤ 53) (negative : Bool) :
    (ofQuotient negative n (2 ^ e)).units = n * twoPow (1074 - e) := by
  obtain ⟨hlog, hlow, hhigh⟩ := shifted_bounds hpos hlt
  have hmagnitude : (ofQuotient negative n (2 ^ e)).magnitude = _ := roundRank_two_pow hpos hlt he
  generalize hshifted : n * 2 ^ (52 - n.log2) = m at *
  generalize hplace : n.log2 + 1022 - e = place at *
  have hexponent : (place * 2 ^ 52 + m) / 2 ^ 52 = place + 1 := by omega
  have hfraction : 2 ^ 52 + (place * 2 ^ 52 + m) % 2 ^ 52 = m := by omega
  have hplaces : 52 - n.log2 + place = 1074 - e := by omega
  simp only [units, hmagnitude, Nat.pow_eq, hexponent, hfraction, if_neg (Nat.succ_ne_zero place),
    Nat.add_sub_cancel]
  rw [← hshifted, Nat.mul_assoc, ← Nat.pow_add, two_pow_eq_twoPow, hplaces]

theorem magnitude_ofQuotient_two_pow_lt (he : e ≤ 53) (negative : Bool) :
    (ofQuotient negative n (2 ^ e)).magnitude < (1076 - e) * 2 ^ 52 := by
  obtain ⟨hlog, -, hhigh⟩ := shifted_bounds hpos hlt
  have hmagnitude : (ofQuotient negative n (2 ^ e)).magnitude = _ := roundRank_two_pow hpos hlt he
  omega

end Quotients

/-- A floating-point number is a natural number as it is. -/
structure IsCount (x : Double) (n : Nat) : Prop where
  negative : x.negative = false
  finite : x.magnitude < infinityRank
  units : x.units = n * twoPow 1074

/-- A natural number up to `2 ^ 53` is a floating-point number without rounding. -/
theorem isCount_ofInt {n : Nat} (hn : n ≤ 2 ^ 53) : (ofInt n).IsCount n := by
  have hnegative : (ofInt n).negative = false := by simp [ofInt, ofQuotient]
  rcases Nat.eq_zero_or_pos n with rfl | hpos
  · exact ⟨hnegative, by decide +kernel, by decide +kernel⟩
  · rcases Nat.lt_or_eq_of_le hn with hlt | rfl
    · exact ⟨hnegative,
        (magnitude_ofQuotient_two_pow_lt hpos hlt (Nat.zero_le 53) _).trans (by decide +kernel),
        units_ofQuotient_two_pow hpos hlt (Nat.zero_le 53) _⟩
    · exact ⟨hnegative, by decide +kernel, by decide +kernel⟩

/-! ## Sums of ones -/

/-- A sum of natural numbers is rounded as a natural number is. -/
theorem IsCount.add {x y : Double} {m n : Nat} (hx : x.IsCount m) (hy : y.IsCount n)
    (hn : 0 < n) : x.add y = ofInt (m + n : Nat) := by
  have hnan {z : Double} {k : Nat} (hz : z.IsCount k) : z.isNaN = false := by
    simpa [isNaN] using hz.finite.le
  have hinfinite {z : Double} {k : Nat} (hz : z.IsCount k) : z.isInfinite = false := by
    simpa [isInfinite] using hz.finite.ne
  have hsigned {z : Double} {k : Nat} (hz : z.IsCount k) :
      z.signedUnits = (k * twoPow 1074 : Nat) := by
    simp only [signedUnits, hz.negative, Bool.false_eq_true, if_false, hz.units]
  have hsum : x.signedUnits + y.signedUnits = ((m + n) * twoPow 1074 : Nat) := by
    rw [hsigned hx, hsigned hy, Nat.add_mul, Int.natCast_add]
  have hpos : 0 < (m + n) * twoPow 1074 := Nat.mul_pos (Nat.add_pos_right m hn) (twoPow_pos _)
  have hround (k : Nat) :
      ofQuotient false ((m + n) * twoPow k) (Nat.pow 2 k) = ofInt (m + n : Nat) := by
    have hshare := roundRank_mul (m + n) Nat.one_ne_zero k
    rw [Nat.one_mul, two_pow_eq_twoPow] at hshare
    have hcast : ¬((m + n : Nat) : Int) < 0 := by omega
    simp only [ofInt, ofQuotient, Int.natAbs_natCast, decide_eq_false hcast]
    congr 1
  unfold Double.add
  rw [hnan hx, hnan hy, hinfinite hx, hinfinite hy, hsum]
  -- the power of two need not be computed
  generalize (1074 : Nat) = k at hpos ⊢
  have htotal := hround k
  generalize (m + n) * twoPow k = total at *
  have hne : (total : Int) ≠ 0 := by omega
  have hnonneg : ¬(total : Int) < 0 := by omega
  simp only [if_neg hne, Bool.or_false, Bool.false_eq_true, if_false, decide_eq_false hnonneg]
  rw [Int.natAbs_natCast, htotal]

/-- The sum of so many ones : no sum gets beyond `2 ^ 53`. -/
def ofCount (n : Nat) : Double := ofInt (min n (2 ^ 53) : Nat)

theorem isCount_one : one.IsCount 1 := ⟨rfl, by decide +kernel, by decide +kernel⟩

/-- A one more; from `2 ^ 53` on it is lost. -/
theorem ofCount_add_one (n : Nat) : (ofCount n).add one = ofCount (n + 1) := by
  have hadd := (isCount_ofInt (Nat.min_le_right n (2 ^ 53))).add isCount_one Nat.one_pos
  rw [ofCount, hadd]
  rcases Nat.lt_or_ge n (2 ^ 53) with hlt | hge
  · rw [ofCount, Nat.min_eq_left hlt.le, Nat.min_eq_left hlt]
  · rw [ofCount, Nat.min_eq_right hge, Nat.min_eq_right (Nat.le_succ_of_le hge)]
    decide +kernel

end Double

end StockRegister
