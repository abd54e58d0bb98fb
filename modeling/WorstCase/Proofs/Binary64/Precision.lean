import WorstCase.Proofs.Binary64.Distance

/-!
# How precise numbers are

Above the least number of full precision, rounding changes a rational by less than a part in `2 ^ 53`
of it (`IsNearest.abs_sub_le_mul`). Below `2 ^ 40` numbers lie close enough for rationals that are a
hundredth apart to be rounded to different ones (`rounded_lt_rounded`), since all multiples of `1 / 256`
are numbers there. So a decimal with two places is told from every other one by the number that it is
rounded to. Whole numbers up to `2 ^ 52` are exact, and a number below that is rounded to a whole one
without any other error (`round_eq`).
-/

namespace WorstCase.Binary64

variable {num den n k : Nat} {x : Binary64} {p q : Rat}

/-! ## Numbers that are exact -/

/-- A whole number of binary digits is a magnitude at every scale. -/
theorem exists_unitsAt_eq_mul (h : n < 2 * binade) (k : Nat) :
    ∃ rank < (k + 2) * binade, unitsAt rank = n * 2 ^ k := by
  induction k with
  | zero => exact ⟨n, by omega, by rw [unitsAt_of_lt h, pow_zero, mul_one]⟩
  | succ k ih =>
    obtain ⟨rank, hlt, hrank⟩ := ih
    obtain ⟨double, hle, hdouble⟩ := exists_unitsAt_eq_two_mul rank
    refine ⟨double, ?_, by rw [hdouble, hrank]; ring⟩
    calc double ≤ rank + binade := hle
      _ < (k + 2) * binade + binade := by omega
      _ = (k + 1 + 2) * binade := by ring

/-- **A binary fraction of 53 digits is a number.** -/
theorem exists_value_eq_div (h : n < 2 * binade) (hk : k ≤ 1074) :
    ∃ x : Binary64, x.isFinite = true ∧ x.value = n / 2 ^ k := by
  obtain ⟨rank, hlt, hrank⟩ := exists_unitsAt_eq_mul h (1074 - k)
  have hfinite : rank < infinityRank := by
    have hbinades : 1076 * binade < infinityRank := by decide
    calc rank < (1074 - k + 2) * binade := hlt
      _ ≤ 1076 * binade := Nat.mul_le_mul_right _ (by omega)
      _ < infinityRank := hbinades
  refine ⟨signed false rank hfinite.le, decide_eq_true hfinite, ?_⟩
  have hone : unitsPerOne = 2 ^ (1074 - k) * 2 ^ k := by
    rw [← pow_add, Nat.sub_add_cancel hk, ← Nat.one_shiftLeft]
    rfl
  show ((unitsAt rank : Int) : Rat) / unitsPerOne = _
  rw [hrank, hone, Int.cast_natCast]
  push_cast
  rw [mul_comm (2 ^ (1074 - k) : Rat), mul_div_mul_right _ _ (pow_ne_zero _ two_ne_zero)]

/-- A binary fraction is what it is rounded to. -/
theorem rounded_div (h : n < 2 * binade) (hk : k ≤ 1074) : rounded (n / 2 ^ k) = n / 2 ^ k := by
  obtain ⟨x, hx, hvalue⟩ := exists_value_eq_div h hk
  rw [← hvalue]
  exact (isNearest_value (isNaN_of_isFinite hx)).value.symm

/-- **Rounding does not pass a binary fraction**, from above or from below. -/
theorem div_le_rounded (hn : n < 2 * binade) (hk : k ≤ 1074) (h : n / 2 ^ k ≤ q) :
    n / 2 ^ k ≤ rounded q :=
  (rounded_div hn hk).ge.trans (rounded_mono h)

theorem rounded_le_div (hn : n < 2 * binade) (hk : k ≤ 1074) (h : q ≤ n / 2 ^ k) :
    rounded q ≤ n / 2 ^ k :=
  (rounded_mono h).trans (rounded_div hn hk).le

/-- **Rationals a hundredth apart are rounded to different numbers.** -/
theorem rounded_lt_rounded (hp : 0 ≤ p) (hsmall : p ≤ 2 ^ 40) (h : p + 1 / 100 ≤ q) :
    rounded p < rounded q := by
  -- two multiples of `1 / 256` lie between them
  have hlow := Nat.le_ceil (p * 2 ^ 8)
  have hhigh := Nat.ceil_lt_add_one (mul_nonneg hp (by norm_num : (0 : Rat) ≤ 2 ^ 8))
  generalize ⌈p * 2 ^ 8⌉₊ = j at hlow hhigh
  have hj : j + 1 < 2 * binade := by
    have hcast : (j : Rat) < 2 ^ 40 * 2 ^ 8 + 1 := by linarith
    have hnat : j < 2 ^ 40 * 2 ^ 8 + 1 := by exact_mod_cast hcast
    calc j + 1 ≤ 2 ^ 40 * 2 ^ 8 + 1 := hnat
      _ < 2 * binade := by decide
  have hbelow : p ≤ j / 2 ^ 8 := by
    rw [le_div_iff₀ (by norm_num)]
    exact hlow
  have habove : ((j + 1 : Nat) : Rat) / 2 ^ 8 ≤ q := by
    rw [Nat.cast_succ, div_le_iff₀ (by norm_num)]
    linarith
  calc rounded p ≤ j / 2 ^ 8 := rounded_le_div (by omega) (by decide) hbelow
    _ < (j + 1 : Nat) / 2 ^ 8 := by
      rw [Nat.cast_succ]
      exact div_lt_div_of_pos_right (lt_add_one _) (by norm_num)
    _ ≤ rounded q := div_le_rounded hj (by decide) habove

/-! ## The relative error -/

/-- **A quotient in the normal range is rounded by a small part of it.** -/
theorem unitsAt_nearestRank_mem (hden : 0 < den) (hnormal : binade ≤ num / den) :
    2 * binade * (unitsAt (nearestRank num den) * den) ≤ (2 * binade + 1) * num
      ∧ 2 * binade * num ≤ 2 * binade * (unitsAt (nearestRank num den) * den) + num := by
  have hs := isSpacing_log2 (num / den)
  rw [nearestRank_eq hs]
  generalize Nat.log2 (num / den) - 52 = k at hs
  have hspacing : binade * den <<< k ≤ num := by
    have hle : binade <<< k ≤ num / den := by
      rcases hs.normal with rfl | hle
      · exact hnormal
      · exact hle
    rw [mul_shiftLeft]
    exact (Nat.le_div_iff_mul_le hden).mp hle
  rw [unitsAt_count (or_iff_not_imp_left.mpr (hs.le_roundDiv hden)) (hs.roundDiv_le hden),
    ← mul_shiftLeft]
  have hlow := roundDiv_mul_le .toEven num (den <<< k)
  have hhigh := le_roundDiv_mul .toEven num (shiftLeft_pos hden k)
  generalize roundDiv .toEven num (den <<< k) * den <<< k = result at hlow hhigh
  generalize den <<< k = spacing at hspacing hlow hhigh
  constructor <;> nlinarith

/-- The rank of what is rounded to a number in range is the one that is nearest. -/
theorem IsNearest.rankOf_eq_nearestRank (hx : x.IsNearest q) (hfinite : x.isFinite = true) :
    rankOf q = nearestRank (q.num.natAbs * unitsPerOne) q.den := by
  obtain ⟨n, r, hr, rfl, hr'⟩ := exists_of_isFinite hfinite
  have hmagnitude : ∀ s, |(unitsAt s / unitsPerOne : Rat)| = unitsAt s / unitsPerOne := fun s =>
    abs_of_nonneg (div_nonneg (Nat.cast_nonneg _) unitsPerOne_pos.le)
  have hvalue : |(signed n r hr).value| = unitsAt r / unitsPerOne := by
    rw [← value_abs]
    rfl
  have hrounded : |rounded q| = unitsAt (rankOf q) / unitsPerOne := by
    rcases le_total 0 q with hq | hq
    · rw [rounded_of_nonneg hq, hmagnitude]
    · rw [rounded_of_nonpos hq, abs_neg, hmagnitude]
  rw [hx.value, hrounded, div_left_inj' unitsPerOne_pos.ne', Nat.cast_inj] at hvalue
  have hrank : rankOf q = r :=
    le_antisymm (unitsAt_le_unitsAt.mp hvalue.le) (unitsAt_le_unitsAt.mp hvalue.ge)
  rw [rankOf] at hrank ⊢
  exact min_eq_left (by omega)

/-- **The relative error of rounding** in the normal range. -/
theorem IsNearest.abs_sub_le_mul (hx : x.IsNearest q) (hfinite : x.isFinite = true) (hq : 0 ≤ q)
    (hnormal : (binade : Rat) ≤ q * unitsPerOne) : |x.value - q| ≤ q / (2 * binade) := by
  have hden : (0 : Rat) < q.den := Nat.cast_pos.mpr q.den_pos
  have hbinade : (0 : Rat) < 2 * binade := by norm_num [binade]
  have hnum : ((q.num.natAbs * unitsPerOne : Nat) : Rat) = q * unitsPerOne * q.den := by
    rw [Nat.cast_mul, natAbs_num_eq hq]
    ring
  have hquotient : binade ≤ q.num.natAbs * unitsPerOne / q.den := by
    rw [Nat.le_div_iff_mul_le q.den_pos, ← Nat.cast_le (α := Rat), hnum, Nat.cast_mul]
    exact mul_le_mul_of_nonneg_right hnormal hden.le
  obtain ⟨hlow, hhigh⟩ := unitsAt_nearestRank_mem q.den_pos hquotient
  rw [hx.value, rounded_of_nonneg hq, hx.rankOf_eq_nearestRank hfinite]
  generalize unitsAt (nearestRank (q.num.natAbs * unitsPerOne) q.den) = units at hlow hhigh
  have hscale : (0 : Rat) < unitsPerOne * q.den := mul_pos unitsPerOne_pos hden
  have hunits : (units / unitsPerOne : Rat) * (unitsPerOne * q.den) = units * q.den := by
    rw [← mul_assoc, div_mul_cancel₀ _ unitsPerOne_pos.ne']
  have hlow' : 2 * binade * (units / unitsPerOne : Rat) ≤ (2 * binade + 1) * q := by
    refine le_of_mul_le_mul_right ?_ hscale
    calc 2 * binade * (units / unitsPerOne : Rat) * (unitsPerOne * q.den)
        = 2 * binade * (units * q.den) := by rw [mul_assoc, hunits]
      _ ≤ (2 * binade + 1) * (q.num.natAbs * unitsPerOne : Nat) := by exact_mod_cast hlow
      _ = (2 * binade + 1) * q * (unitsPerOne * q.den) := by rw [hnum]; ring
  have hhigh' : 2 * binade * q ≤ 2 * binade * (units / unitsPerOne : Rat) + q := by
    refine le_of_mul_le_mul_right ?_ hscale
    calc 2 * binade * q * (unitsPerOne * q.den)
        = 2 * binade * (q.num.natAbs * unitsPerOne : Nat) := by rw [hnum]; ring
      _ ≤ 2 * binade * (units * q.den) + (q.num.natAbs * unitsPerOne : Nat) := by
        exact_mod_cast hhigh
      _ = (2 * binade * (units / unitsPerOne : Rat) + q) * (unitsPerOne * q.den) := by
        rw [add_mul, mul_assoc (2 * (binade : Rat)), hunits, hnum]
        ring
  rw [le_div_iff₀ hbinade, ← abs_of_pos hbinade, ← abs_mul, abs_le]
  constructor <;> linarith

/-- What is neither very small nor very large is rounded to a number in range. -/
theorem IsNearest.isFinite_of_le (hx : x.IsNearest q) (hq : 0 ≤ q) (hhigh : q ≤ 2 ^ 52) :
    x.isFinite = true := by
  obtain ⟨y, hy, hvalue⟩ := exists_value_eq_div (n := 2 ^ 52) (k := 0) (by decide) (by decide)
  rw [pow_zero, div_one, Nat.cast_pow, Nat.cast_ofNat] at hvalue
  obtain ⟨hzero, hle⟩ := hx.mem (a := 0) rfl (isNaN_of_isFinite hy) (value_zero.trans_le hq)
    (hvalue.symm ▸ hhigh)
  exact isFinite_of_mem rfl hy hzero hle

/-- **The relative error of rounding** in the range of what is displayed. -/
theorem IsNearest.abs_sub_le_of_mem (hx : x.IsNearest q) (hlow : 1 / 2 ^ 60 ≤ q) (hhigh : q ≤ 2 ^ 52) :
    |x.value - q| ≤ q / 2 ^ 53 := by
  have hq : 0 ≤ q := le_trans (by norm_num) hlow
  have hnormal : (binade : Rat) ≤ q * unitsPerOne := by
    have hunits : ((binade * 2 ^ 60 : Nat) : Rat) ≤ unitsPerOne := Nat.cast_le.mpr (by decide)
    push_cast at hunits
    have hscaled := mul_le_mul_of_nonneg_right hlow unitsPerOne_pos.le
    linarith
  have herror := hx.abs_sub_le_mul (hx.isFinite_of_le hq hhigh) hq hnormal
  have hbinade : (2 * binade : Rat) = 2 ^ 53 := by norm_num [binade]
  rwa [hbinade] at herror

/-! ## Rounding to whole numbers -/

/-- **A quotient is rounded up past a number** from the middle to the next one on. -/
theorem lt_roundDiv_up_iff (hden : 0 < den) :
    n < roundDiv .up num den ↔ (2 * n + 1) * den ≤ 2 * num := by
  have hmiddle : (2 * n + 1) * den = 2 * (n * den) + den := by
    rw [Nat.succ_mul, Nat.mul_assoc]
  have hnum : num / den * den + num % den = num := Nat.div_add_mod' num den
  have hrest : num % den < den := Nat.mod_lt _ hden
  unfold roundDiv
  rw [hmiddle]
  generalize num / den = quotient at hnum ⊢
  dsimp only
  have hless : n < quotient → n * den + den ≤ quotient * den := fun h =>
    Nat.succ_mul n den ▸ Nat.mul_le_mul_right den h
  have hmore : quotient < n → quotient * den + den ≤ n * den := fun h =>
    Nat.succ_mul quotient den ▸ Nat.mul_le_mul_right den h
  have hsame : n = quotient → n * den = quotient * den := fun h => congrArg (· * den) h
  split
  · omega
  · split <;> omega

/-- A magnitude is rounded up past a whole number from the middle to the next one on. -/
theorem lt_roundDiv_unitsAt_iff {rank : Nat} : n < roundDiv .up (unitsAt rank) unitsPerOne
    ↔ (n + 1 / 2 : Rat) ≤ unitsAt rank / unitsPerOne := by
  have hone : 0 < unitsPerOne := shiftLeft_pos Nat.one_pos 1074
  have hcast : ((2 * n + 1) * unitsPerOne ≤ 2 * unitsAt rank)
      ↔ (2 * n + 1) * (unitsPerOne : Rat) ≤ 2 * unitsAt rank := by exact_mod_cast Iff.rfl
  rw [lt_roundDiv_up_iff hone, hcast, le_div_iff₀ unitsPerOne_pos]
  constructor <;> intro h <;> linarith

/-- **A number rounded to a whole one** that has 53 binary digits at most. -/
theorem round_eq (hsign : x.isNegative = false) (hfinite : x.isFinite = true)
    (hsmall : x.value < 2 ^ 52) :
    ∃ n : Nat, (round x).isFinite = true ∧ (round x).isNegative = false ∧ (round x).value = n
      ∧ ∀ k : Nat, k < n ↔ (k + 1 / 2 : Rat) ≤ x.value := by
  obtain ⟨negative, r, hr, rfl, hr'⟩ := exists_of_isFinite hfinite
  obtain rfl : negative = false := hsign
  have hround : round (signed false r hr)
      = ofUnits false (roundDiv .up (unitsAt r) unitsPerOne * unitsPerOne) 1 := if_neg hr'
  have hvalue : (signed false r hr).value = unitsAt r / unitsPerOne := rfl
  rw [hvalue] at hsmall
  rw [hround, hvalue]
  have hcount : ∀ k : Nat, k < roundDiv .up (unitsAt r) unitsPerOne
      ↔ (k + 1 / 2 : Rat) ≤ unitsAt r / unitsPerOne := fun k => lt_roundDiv_unitsAt_iff
  generalize roundDiv .up (unitsAt r) unitsPerOne = n at hcount
  have hn : n ≤ 2 ^ 52 := by
    by_contra hmore
    have hhalf := (hcount (2 ^ 52)).mp (not_le.mp hmore)
    push_cast at hhalf
    linarith
  have hnearest : (ofUnits false (n * unitsPerOne) 1).IsNearest n := by
    refine isNearest_ofUnits Nat.one_pos ?_
    rw [if_neg Bool.false_ne_true, Nat.cast_mul, Nat.cast_one, one_mul,
      mul_div_cancel_right₀ _ unitsPerOne_pos.ne']
  have hdigits : n < 2 * binade := by
    simp only [binade]
    omega
  obtain ⟨y, hy, hyvalue⟩ := exists_value_eq_div (k := 0) hdigits (by decide)
  rw [pow_zero, div_one] at hyvalue
  rw [← hyvalue] at hnearest
  obtain ⟨hfinite', hvalue'⟩ := hnearest.eq_value hy
  exact ⟨n, hfinite', rfl, hvalue'.trans hyvalue, hcount⟩

end WorstCase.Binary64
