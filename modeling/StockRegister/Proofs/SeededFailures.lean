import StockRegister.Assessment.Rule
import StockRegister.Proofs.Counting

/-!
# Failures of a seed

A draw of the generator is the number of steps of `2 ^ -53` that two successive words stand for. In
every state of the generator it is this number without rounding (`Twister.isSteps_draw`), since the
number has at most 53 binary digits. So no draw is below 0 or reaches 1
(`RandomSource.bounds_of_mem_take_twister`).

An injector takes one draw in each call and fails if it is below the probability
(`Injector.outcomes_eq`). So two injectors of one seed can be compared call by call, and at the ends
of the range of probabilities nothing is left to chance (`Injector.failures_of_seed`).
-/

namespace StockRegister

namespace Double

theorem twoPow_sub_mul {j k : Nat} (h : k ≤ j) : twoPow (j - k) * 2 ^ k = twoPow j := by
  rw [twoPow, twoPow, Nat.pow_eq, Nat.pow_eq, Nat.pow_sub_mul_pow 2 h]

/-- A floating-point number is a number of steps of `2 ^ -53` as it is, and below 1. -/
structure IsSteps (x : Double) (k : Nat) : Prop where
  negative : x.negative = false
  magnitude : x.magnitude < one.magnitude
  units : x.units * 2 ^ 53 = k * twoPow 1074

theorem isSteps_ofQuotient {k : Nat} (hk : k < 2 ^ 53) :
    (ofQuotient false k (Nat.pow 2 53)).IsSteps k := by
  rw [Nat.pow_eq]
  rcases Nat.eq_zero_or_pos k with rfl | hpos
  · exact ⟨rfl, by decide +kernel, by decide +kernel⟩
  · refine ⟨rfl, magnitude_ofQuotient_two_pow_lt hpos hk (Nat.le_refl 53) false, ?_⟩
    rw [units_ofQuotient_two_pow hpos hk (Nat.le_refl 53), Nat.mul_assoc,
      twoPow_sub_mul (by decide)]

namespace IsSteps

variable {x : Double} {k : Nat} (h : x.IsSteps k)

include h

theorem isNaN_eq_false : x.isNaN = false := by
  have hrank : one.magnitude ≤ infinityRank := by decide +kernel
  simpa [isNaN] using (h.magnitude.trans_le hrank).le

theorem key_eq : x.key = x.magnitude := by
  simp [key, h.negative]

theorem zero_le : zero.le x := by
  have hzero : zero.isNaN = false := rfl
  have hkey : zero.key = 0 := rfl
  simp [le, hzero, h.isNaN_eq_false, hkey, h.key_eq]

theorem lt_one : x.lt one := by
  have hone : one.isNaN = false := rfl
  have hkey : one.key = one.magnitude := rfl
  simpa [lt, hone, h.isNaN_eq_false, hkey, h.key_eq] using h.magnitude

end IsSteps

/-- Nothing from 0 on is below 0. -/
theorem lt_isZero {x p : Double} (hx : zero.le x) (hp : p.isZero) : x.lt p = false := by
  have hkey : p.key = 0 := by
    have hmagnitude : p.magnitude = 0 := by simpa [isZero] using hp
    simp [key, hmagnitude]
  have hnonneg : 0 ≤ x.key := by
    have hzero : zero.key = 0 := rfl
    simp only [le, hzero, Bool.and_eq_true, decide_eq_true_eq] at hx
    exact hx.2
  have hnot : ¬x.key < p.key := by omega
  simp [lt, hnot]

end Double

/-! ## Draws -/

namespace Twister

/-- The word that the generator gives out after `k` others. -/
def word (t : Twister) : Nat → UInt32
  | 0 => t.nextWord.1
  | k + 1 => t.nextWord.2.word k

/-- In every state of the generator, a draw is the number of steps of its next two words, without
rounding. -/
theorem isSteps_draw (t : Twister) : t.draw.1.IsSteps (steps (t.word 0) (t.word 1)) :=
  Double.isSteps_ofQuotient (steps_lt _ _)

end Twister

namespace RandomSource

/-- The `k`-th draw of a generator is made of the words `2 * k` and `2 * k + 1`. -/
theorem getElem?_take_twister (t : Twister) {k n : Nat} (hk : k < n) :
    ∃ x, ((twister t).take n)[k]? = some x ∧
      x.IsSteps (Twister.steps (t.word (2 * k)) (t.word (2 * k + 1))) := by
  induction n generalizing t k with
  | zero => exact absurd hk (Nat.not_lt_zero k)
  | succ n ih =>
    cases k with
    | zero => exact ⟨t.draw.1, rfl, t.isSteps_draw⟩
    | succ k => exact ih t.draw.2 (Nat.lt_of_succ_lt_succ hk)

theorem length_take (n : Nat) (source : RandomSource) : (source.take n).length = n := by
  induction n generalizing source with
  | zero => rfl
  | succ n ih => rw [take, List.length_cons, ih]

theorem bounds_of_mem_take_twister {t : Twister} {n : Nat} {x : Double}
    (hx : x ∈ (twister t).take n) : Double.zero.le x ∧ x.lt Double.one := by
  obtain ⟨k, hk, rfl⟩ := List.mem_iff_getElem.mp hx
  rw [length_take] at hk
  obtain ⟨y, hy, hsteps⟩ := getElem?_take_twister t hk
  obtain ⟨_, hget⟩ := List.getElem?_eq_some_iff.mp hy
  rw [hget]
  exact ⟨hsteps.zero_le, hsteps.lt_one⟩

end RandomSource

/-! ## Calls -/

namespace Injector

/-- Each call takes one draw, and fails if it is below the probability. -/
theorem outcomes_eq (n : Nat) (i : Injector) :
    i.outcomes n = ((i.source.take n).map fun draw => draw.lt i.probability,
      { i with source := i.source.drop n, used := i.used + n }) := by
  induction n generalizing i with
  | zero => rfl
  | succ n ih =>
    rw [outcomes]
    simp only [ih, shouldFail, RandomSource.take, RandomSource.drop, List.map_cons]
    rw [Nat.add_assoc, Nat.add_comm 1 n]

theorem ofValue_eq_ok {given : Value} {p : Amount} (hgiven : given.toAmount? = some p)
    (hp : isProbability p) (source : RandomSource) :
    ofValue given source = .ok ⟨given, p.toDouble, source, 0⟩ := by
  rw [ofValue, hgiven]
  exact if_pos hp

/-- What `n` calls of an injector with a seed and a probability come to. -/
structure FailuresOfSeed (seed : Int) (p : Double) (n : Nat) (i : Injector) : Prop where
  /-- One draw is taken in each call, and no more. -/
  source : (i.outcomes n).2.source = (RandomSource.ofSeed seed).drop n
  used : (i.outcomes n).2.used = n
  outcomes : (i.outcomes n).1 = ((RandomSource.ofSeed seed).take n).map fun draw => draw.lt p
  never : p.isZero → (i.outcomes n).1 = List.replicate n false
  always : p = Double.one → (i.outcomes n).1 = List.replicate n true

theorem failuresOfSeed (seed : Int) (given : Value) (p : Double) (n : Nat) :
    FailuresOfSeed seed p n ⟨given, p, .ofSeed seed, 0⟩ := by
  have houtcomes := outcomes_eq n ⟨given, p, .ofSeed seed, 0⟩
  have hbounds : ∀ x ∈ (RandomSource.ofSeed seed).take n, Double.zero.le x ∧ x.lt Double.one :=
    fun _ => RandomSource.bounds_of_mem_take_twister
  have hreplicate (b : Bool) (hall : ∀ x ∈ (RandomSource.ofSeed seed).take n, x.lt p = b) :
      (outcomes n ⟨given, p, .ofSeed seed, 0⟩).1 = List.replicate n b := by
    rw [houtcomes]
    refine List.eq_replicate_iff.mpr ⟨by rw [List.length_map, RandomSource.length_take], ?_⟩
    rintro _ hmem
    obtain ⟨x, hx, rfl⟩ := List.mem_map.mp hmem
    exact hall x hx
  refine ⟨by rw [houtcomes], ?used, by rw [houtcomes], fun hzero => ?never, fun hone => ?always⟩
  case used =>
    rw [houtcomes]
    exact Nat.zero_add n
  case never => exact hreplicate false fun x hx => Double.lt_isZero (hbounds x hx).1 hzero
  case always => exact hreplicate true fun x hx => hone ▸ (hbounds x hx).2

/-- For every seed and any two probabilities, the first not above the second: there is an injector
of each, which takes one draw in each call; the second fails in every call in which the first
fails; and every draw is the number of steps of two words, from 0 up to but not including 1. -/
theorem failures_of_seed (seed : Int) {v w : Value} {p q : Amount} (hv : v.toAmount? = some p)
    (hw : w.toAmount? = some q) (hp : isProbability p) (hq : isProbability q)
    (hle : p.toDouble.le q.toDouble) (n : Nat) :
    ∃ i j, ofValue v (.ofSeed seed) = .ok i ∧ ofValue w (.ofSeed seed) = .ok j ∧
      FailuresOfSeed seed p.toDouble n i ∧ FailuresOfSeed seed q.toDouble n j ∧
      (∀ k : Nat, (i.outcomes n).1[k]? = some true → (j.outcomes n).1[k]? = some true) ∧
      ∀ k < n, ∃ x, ((RandomSource.ofSeed seed).take n)[k]? = some x ∧
        x.IsSteps (Twister.steps ((Twister.ofSeed seed).word (2 * k))
          ((Twister.ofSeed seed).word (2 * k + 1))) ∧
        Double.zero.le x ∧ x.lt Double.one := by
  have hfirst := failuresOfSeed seed v p.toDouble n
  have hsecond := failuresOfSeed seed w q.toDouble n
  refine ⟨_, _, ofValue_eq_ok hv hp _, ofValue_eq_ok hw hq _, hfirst, hsecond,
    fun k hk => ?coupled, fun k hk => ?draws⟩
  case coupled =>
    rw [hfirst.outcomes, List.getElem?_map, Option.map_eq_some_iff] at hk
    obtain ⟨x, hx, hlt⟩ := hk
    rw [hsecond.outcomes, List.getElem?_map, hx, Option.map_some, Double.lt_of_lt_of_le hlt hle]
  case draws =>
    obtain ⟨x, hx, hsteps⟩ := RandomSource.getElem?_take_twister (Twister.ofSeed seed) hk
    exact ⟨x, hx, hsteps, hsteps.zero_le, hsteps.lt_one⟩

/-- No probability, a negative seed : the injector of `False` never fails, and that of 1 fails in
each of three calls. -/
theorem failures_of_negative_seed :
    ∃ i j, ofValue (.bool false) (.ofSeed (-7)) = .ok i ∧
      ofValue (.int 1) (.ofSeed (-7)) = .ok j ∧
      (i.outcomes 3).1 = [false, false, false] ∧ (j.outcomes 3).1 = [true, true, true] ∧
      (j.outcomes 3).2.used = 3 := by
  obtain ⟨i, j, hi, hj, hfirst, hsecond, -, -⟩ := failures_of_seed (-7) (v := .bool false)
    (w := .int 1) (p := .whole 0) (q := .whole 1) rfl rfl rfl rfl (by decide +kernel) 3
  exact ⟨i, j, hi, hj, hfirst.never (by decide +kernel), hsecond.always (by decide +kernel),
    hsecond.used⟩

end Injector

end StockRegister
