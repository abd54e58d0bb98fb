import WorstCase.Binary64.Text
import WorstCase.Proofs.Binary64.Value

/-!
# Decimals of numbers

A number is read from a decimal by rounding what the decimal stands for (`isNearest_ofDecimal`), and a
decimal of so many digits is found by counting steps of the last digit's place in the magnitude
(`gridQuotient_div`). Which place that is depends on that of the leading digit, which is told by the length
of a text (`leadingPlace_mem`). So a number is rounded to a decimal that is off by a half of the last of its
digits at most (`roundSignificant_eq`).
-/

namespace WorstCase

/-- **The rational that a decimal stands for.** -/
def Decimal.value (d : Decimal) : Rat := d.coefficient * 10 ^ d.exponent

theorem cast_powerOfTen (n : Nat) : (powerOfTen n : Rat) = 10 ^ n := by
  show ((10 ^ n : Nat) : Rat) = 10 ^ n
  rw [Nat.cast_pow, Nat.cast_ofNat]

theorem powerOfTen_pos (n : Nat) : 0 < powerOfTen n := Nat.pow_pos (by decide)

/-- **A whole number has as many digits as it takes.** -/
theorem mem_of_length_toString {n : Nat} (h : 0 < n) :
    10 ^ ((toString n).length - 1) ≤ n ∧ n < 10 ^ (toString n).length := by
  have hlength : (toString n).length = (Nat.toDigits 10 n).length := by
    rw [← String.length_toList, Nat.toString_eq_repr, Nat.toList_repr]
  have hpos : 0 < (Nat.toDigits 10 n).length := Nat.length_toDigits_pos
  rw [hlength]
  refine ⟨?_, (Nat.length_toDigits_le_iff (by decide) hpos).mp le_rfl⟩
  rcases Nat.eq_or_lt_of_le hpos with hone | hmore
  · rw [← hone]
    exact h
  · have hnot : ¬ (Nat.toDigits 10 n).length ≤ (Nat.toDigits 10 n).length - 1 := by omega
    rw [Nat.length_toDigits_le_iff (by decide) (by omega), not_lt] at hnot
    exact hnot

namespace Binary64

variable {units rank : Nat}

/-- **The place of the leading digit.** -/
theorem leadingPlace_mem (h : 0 < units) :
    (10 : Rat) ^ leadingPlace units ≤ units / unitsPerOne
      ∧ (units / unitsPerOne : Rat) < 10 ^ (leadingPlace units + 1) := by
  have hone : 0 < unitsPerOne := shiftLeft_pos Nat.one_pos 1074
  have hten : (0 : Rat) < 10 ^ 324 := by positivity
  have hscaled : 0 < units * powerOfTen 324 / unitsPerOne := by
    refine Nat.div_pos ?_ hone
    calc unitsPerOne ≤ 1 * powerOfTen 324 := by decide +kernel
      _ ≤ units * powerOfTen 324 := Nat.mul_le_mul_right _ h
  obtain ⟨hlow, hhigh⟩ := mem_of_length_toString hscaled
  rw [leadingPlace]
  generalize (toString (units * powerOfTen 324 / unitsPerOne)).length = length at hlow hhigh
  obtain ⟨k, rfl⟩ : ∃ k, length = k + 1 := by
    refine Nat.exists_eq_succ_of_ne_zero ?_
    rintro rfl
    omega
  rw [Nat.add_sub_cancel, Nat.le_div_iff_mul_le hone] at hlow
  rw [Nat.div_lt_iff_lt_mul hone] at hhigh
  have hplace : ∀ n : Nat, (10 : Rat) ^ ((n : Int) - 324) = 10 ^ n / 10 ^ 324 := fun n => by
    rw [zpow_sub₀ (by norm_num), zpow_natCast, zpow_ofNat]
  have hlead : ((k + 1 : Nat) : Int) - 1 - 324 = (k : Int) - 324 := by omega
  have hnext : (k : Int) - 324 + 1 = ((k + 1 : Nat) : Int) - 324 := by omega
  rw [hlead, hnext, hplace, hplace]
  constructor
  · rw [div_le_div_iff₀ hten unitsPerOne_pos, ← cast_powerOfTen 324]
    exact_mod_cast hlow
  · rw [div_lt_div_iff₀ unitsPerOne_pos hten, ← cast_powerOfTen 324]
    exact_mod_cast hhigh

/-- No other place is the leading one. -/
theorem leadingPlace_eq {place : Nat} (hlow : 10 ^ place * unitsPerOne ≤ units)
    (hhigh : units < 10 ^ (place + 1) * unitsPerOne) : leadingPlace units = place := by
  have hone : 0 < unitsPerOne := shiftLeft_pos Nat.one_pos 1074
  have hten : (1 : Rat) < 10 := by norm_num
  have hpos : 0 < units := (Nat.mul_pos (by positivity) hone).trans_le hlow
  obtain ⟨hleast, hgreatest⟩ := leadingPlace_mem hpos
  have hlow' : (10 : Rat) ^ (place : Int) ≤ units / unitsPerOne := by
    rw [zpow_natCast, le_div_iff₀ unitsPerOne_pos]
    exact_mod_cast hlow
  have hhigh' : (units / unitsPerOne : Rat) < 10 ^ ((place + 1 : Nat) : Int) := by
    rw [zpow_natCast, div_lt_iff₀ unitsPerOne_pos]
    exact_mod_cast hhigh
  have hbelow := (zpow_lt_zpow_iff_right₀ hten).mp (hlow'.trans_lt hgreatest)
  have habove := (zpow_lt_zpow_iff_right₀ hten).mp (hleast.trans_lt hhigh')
  omega

/-- **A grid counts steps of its place.** -/
theorem gridQuotient_div (units : Nat) (place : Int) :
    0 < (gridQuotient units place).2
      ∧ ((gridQuotient units place).1 / (gridQuotient units place).2 : Rat)
        = units / unitsPerOne / 10 ^ place := by
  have hone : 0 < unitsPerOne := shiftLeft_pos Nat.one_pos 1074
  cases place with
  | ofNat p =>
    refine ⟨Nat.mul_pos hone (powerOfTen_pos p), ?_⟩
    show (units / (unitsPerOne * powerOfTen p : Nat) : Rat) = units / unitsPerOne / 10 ^ (p : Int)
    rw [Nat.cast_mul, cast_powerOfTen, zpow_natCast, div_div]
  | negSucc k =>
    refine ⟨hone, ?_⟩
    show ((units * powerOfTen (k + 1) : Nat) / unitsPerOne : Rat) = _
    rw [Nat.cast_mul, cast_powerOfTen, zpow_negSucc, div_inv_eq_mul, div_mul_eq_mul_div]

/-- **A number read from a decimal** is the nearest one, unless the decimal is far out of range. -/
theorem isNearest_ofDecimal {d : Decimal} (hlow : -400 ≤ d.exponent) (hhigh : d.exponent ≤ 400) :
    (ofDecimal false d).IsNearest d.value := by
  obtain ⟨coefficient, exponent⟩ := d
  rw [ofDecimal, Decimal.value]
  dsimp only at hlow hhigh ⊢
  split
  · rename_i hzero
    rw [hzero, Nat.cast_zero, zero_mul, ← value_zero]
    exact isNearest_value rfl
  · have hone : (unitsPerOne : Rat) ≠ 0 := unitsPerOne_pos.ne'
    cases exponent with
    | ofNat e =>
      have hmany : ¬ e > 400 := by
        have : ((e : Nat) : Int) ≤ 400 := hhigh
        omega
      dsimp only
      rw [if_neg hmany]
      refine isNearest_ofUnits Nat.one_pos ?_
      show (coefficient * 10 ^ (e : Int) : Rat) = _
      rw [Nat.cast_mul, Nat.cast_mul, cast_powerOfTen, Nat.cast_one, one_mul,
        mul_div_cancel_right₀ _ hone, zpow_natCast]
    | negSucc k =>
      have hfew : ¬ k > 400 + Nat.log2 coefficient := by omega
      dsimp only
      rw [if_neg hfew]
      refine isNearest_ofUnits (powerOfTen_pos _) ?_
      show (coefficient * 10 ^ Int.negSucc k : Rat) = _
      rw [Nat.cast_mul, cast_powerOfTen, mul_div_mul_right _ _ hone, zpow_negSucc, div_eq_mul_inv]

/-- A quotient rounded to a whole number is off by a half at most. -/
theorem abs_roundDiv_sub_le (tie : Tie) (num : Nat) {den : Nat} (hden : 0 < den) :
    |(roundDiv tie num den : Rat) - num / den| ≤ 1 / 2 := by
  have hpos : (0 : Rat) < den := Nat.cast_pos.mpr hden
  have hlow : 2 * (roundDiv tie num den * den : Rat) ≤ 2 * num + den := by
    exact_mod_cast roundDiv_mul_le tie num den
  have hhigh : 2 * (num : Rat) ≤ 2 * (roundDiv tie num den * den) + den := by
    exact_mod_cast le_roundDiv_mul tie num hden
  have hnum : (num / den : Rat) * den = num := div_mul_cancel₀ _ hpos.ne'
  rw [abs_le]
  constructor <;> nlinarith

/-- The equation of `roundSignificant` for a magnitude. Unfolding the definition itself would compute with
the powers of ten in `leadingPlace`. -/
theorem roundSignificant_signed (digits : Nat) (negative : Bool) (h : rank ≤ infinityRank) :
    roundSignificant digits (signed negative rank h)
      = if rank = 0 ∨ rank = infinityRank then signed negative rank h
        else
          match gridQuotient (unitsAt rank) (leadingPlace (unitsAt rank) - (digits - 1 : Nat)) with
          | (num, den) => ofDecimal negative
            ⟨roundDiv .toEven num den, leadingPlace (unitsAt rank) - (digits - 1 : Nat)⟩ := rfl

/-- **A magnitude rounded to one digit and some more**, and what it is off by. -/
theorem roundSignificant_eq (digits : Nat) {h : rank ≤ infinityRank} (hpos : 0 < rank)
    (hfinite : rank < infinityRank) :
    ∃ d : Decimal, roundSignificant (digits + 1) (signed false rank h) = ofDecimal false d
      ∧ d.exponent = leadingPlace (unitsAt rank) - digits
      ∧ |d.value - unitsAt rank / unitsPerOne|
        ≤ (unitsAt rank / unitsPerOne : Rat) / (2 * 10 ^ digits) := by
  have hunits : 0 < unitsAt rank := Nat.pos_of_ne_zero fun hzero => hpos.ne' (unitsAt_eq_zero.mp hzero)
  obtain ⟨hlead, -⟩ := leadingPlace_mem hunits
  generalize hplace : leadingPlace (unitsAt rank) - digits = place
  obtain ⟨hden, hquotient⟩ := gridQuotient_div (unitsAt rank) place
  refine ⟨⟨roundDiv .toEven (gridQuotient (unitsAt rank) place).1
    (gridQuotient (unitsAt rank) place).2, place⟩, ?_, rfl, ?_⟩
  · have hpositive : ¬ (rank = 0 ∨ rank = infinityRank) := by omega
    refine (roundSignificant_signed _ _ h).trans ((if_neg hpositive).trans ?_)
    rewrite [Nat.add_sub_cancel, hplace]
    obtain ⟨num, den⟩ := gridQuotient (unitsAt rank) place
    rfl
  · have hstep : (0 : Rat) < 10 ^ place := by positivity
    have hround := abs_roundDiv_sub_le .toEven (gridQuotient (unitsAt rank) place).1 hden
    rw [hquotient] at hround
    rw [Decimal.value]
    generalize (roundDiv .toEven (gridQuotient (unitsAt rank) place).1
      (gridQuotient (unitsAt rank) place).2 : Rat) = count at hround
    generalize (unitsAt rank / unitsPerOne : Rat) = magnitude at hlead hround
    have hscale : (10 : Rat) ^ place * 10 ^ digits ≤ magnitude := by
      rw [← zpow_natCast, ← zpow_add₀ (by norm_num), ← hplace, Int.sub_add_cancel]
      exact hlead
    calc |count * 10 ^ place - magnitude| = |count - magnitude / 10 ^ place| * 10 ^ place := by
          rw [← abs_of_pos hstep, ← abs_mul, sub_mul, abs_of_pos hstep, div_mul_cancel₀ _ hstep.ne']
      _ ≤ 1 / 2 * 10 ^ place := mul_le_mul_of_nonneg_right hround hstep.le
      _ ≤ magnitude / (2 * 10 ^ digits) := by
        rw [le_div_iff₀ (by positivity)]
        linarith

end Binary64

end WorstCase
