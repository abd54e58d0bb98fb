import WorstCase.MetricPrefix
import WorstCase.Proofs.Binary64.Decimals
import WorstCase.Proofs.Binary64.Precision

/-!
# The prefix of a value

A value is shown with the greatest prefix whose factor does not exceed it. The comparison is between numbers
that are off in two ways: the factor is the number nearest to its power of ten, and the value has been
rounded to twelve digits. So the value itself may be less than the factor, or not less than the next one,
but only by a small part (`MetricPrefix.scale_mem`). What is shown before the prefix is between one and a
thousand up to that part.
-/

namespace WorstCase

open Binary64

namespace MetricPrefix

variable {x : Binary64}

/-- **A factor is its power of ten** up to rounding. -/
theorem abs_factor_sub_le (p : MetricPrefix) :
    p.factor.isFinite = true
      ∧ |p.factor.value - 10 ^ p.exponent| ≤ (10 : Rat) ^ p.exponent / 2 ^ 53 := by
  have hplaces : -12 ≤ p.exponent ∧ p.exponent ≤ 12 := by cases p <;> decide
  have hnearest : p.factor.IsNearest (10 ^ p.exponent) := by
    have h := isNearest_ofDecimal (d := ⟨1, p.exponent⟩) (by dsimp only; omega) (by dsimp only; omega)
    rwa [Decimal.value, Nat.cast_one, one_mul] at h
  have hlow : (1 / 2 ^ 60 : Rat) ≤ 10 ^ p.exponent :=
    calc (1 / 2 ^ 60 : Rat) ≤ 10 ^ (-12 : Int) := by norm_num
      _ ≤ 10 ^ p.exponent := zpow_le_zpow_right₀ (by norm_num) hplaces.1
  have hhigh : (10 : Rat) ^ p.exponent ≤ 2 ^ 52 :=
    calc (10 : Rat) ^ p.exponent ≤ 10 ^ (12 : Int) := zpow_le_zpow_right₀ (by norm_num) hplaces.2
      _ ≤ 2 ^ 52 := by norm_num
  exact ⟨hnearest.isFinite_of_le (by positivity) hhigh, hnearest.abs_sub_le_of_mem hlow hhigh⟩

/-- **A value rounded to twelve digits** is the value but for a small part of it. -/
theorem abs_roundSignificant_sub_le (hsign : x.isNegative = false) (hfinite : x.isFinite = true)
    (hlow : 1 / 2 ^ 50 ≤ x.value) (hhigh : x.value ≤ 2 ^ 50) :
    (x.roundSignificant 12).isNaN = false
      ∧ |(x.roundSignificant 12).value - x.value| ≤ x.value / 10 ^ 10 := by
  obtain ⟨n, r, hr, rfl, hr'⟩ := exists_of_isFinite hfinite
  obtain rfl : n = false := hsign
  have hvalue : (signed false r hr).value = unitsAt r / unitsPerOne := rfl
  rw [hvalue] at hlow hhigh ⊢
  have hrank : 0 < r := by
    refine Nat.pos_of_ne_zero ?_
    rintro rfl
    rw [unitsAt_eq_zero.mpr rfl, Nat.cast_zero, zero_div] at hlow
    norm_num at hlow
  obtain ⟨d, hd, hplace, herror⟩ := roundSignificant_eq 11 (h := hr) hrank (lt_of_le_of_ne hr hr')
  obtain ⟨hleast, hgreatest⟩ :=
    leadingPlace_mem (Nat.pos_of_ne_zero fun hzero => hrank.ne' (unitsAt_eq_zero.mp hzero))
  rewrite [hd]
  generalize leadingPlace (unitsAt r) = lead at hplace hleast hgreatest
  generalize (unitsAt r / unitsPerOne : Rat) = m at hlow hhigh herror hleast hgreatest ⊢
  have hten : (1 : Rat) < 10 := by norm_num
  have hlead : -17 < lead + 1 := by
    rw [← zpow_lt_zpow_iff_right₀ hten]
    exact lt_of_lt_of_le (by norm_num) (hlow.trans hgreatest.le)
  have hlead' : lead < 17 := by
    rw [← zpow_lt_zpow_iff_right₀ hten]
    exact lt_of_le_of_lt (hleast.trans hhigh) (by norm_num)
  have hnearest := isNearest_ofDecimal (d := d) (by omega) (by omega)
  obtain ⟨hbelow, habove⟩ := abs_le.mp herror
  have hrounding := hnearest.abs_sub_le_of_mem (by linarith) (by linarith)
  obtain ⟨hbelow', habove'⟩ := abs_le.mp hrounding
  refine ⟨hnearest.isNaN, abs_le.mpr ⟨?_, ?_⟩⟩ <;> linarith

theorem isNegative_factor (p : MetricPrefix) : p.factor.isNegative = false := by
  cases p <;> rfl

/-- The sign does not matter. -/
theorem ofMagnitude_abs (x : Binary64) : ofMagnitude (abs x) = ofMagnitude x := by
  cases x <;> rfl

/-- **The prefix is the greatest that is accepted**, or the least one. The next greater one is not
accepted. -/
theorem find?_descending {accepts : MetricPrefix → Bool} {p : MetricPrefix}
    (hp : (descending.find? accepts).getD .pico = p) :
    (p = .pico ∨ accepts p = true)
      ∧ (p = .tera ∨ ∃ next : MetricPrefix, next.exponent = p.exponent + 3 ∧ accepts next = false) := by
  cases hfind : descending.find? accepts with
  | none =>
    rw [hfind] at hp
    obtain rfl : MetricPrefix.pico = p := hp
    have hnano := List.find?_eq_none.mp hfind .nano (by decide)
    exact ⟨.inl rfl, .inr ⟨.nano, by decide, Bool.eq_false_iff.mpr hnano⟩⟩
  | some found =>
    rw [hfind] at hp
    obtain rfl : found = p := hp
    obtain ⟨haccepts, i, hi, hfound, hbefore⟩ := List.find?_eq_some_iff_getElem.mp hfind
    refine ⟨.inr haccepts, ?_⟩
    cases i with
    | zero => exact .inl hfound.symm
    | succ i =>
      have hsteps : ∀ j < 8, descending[j]?.map exponent
          = descending[j + 1]?.map fun p => p.exponent + 3 := by decide
      have hstep := hsteps i (Nat.lt_of_succ_lt_succ hi)
      rw [List.getElem?_eq_getElem (Nat.lt_of_succ_lt hi), List.getElem?_eq_getElem hi, hfound,
        Option.map_some, Option.map_some, Option.some.injEq] at hstep
      refine .inr ⟨descending[i], hstep, ?_⟩
      simpa using hbefore i i.lt_succ_self

theorem le_factor_pico : 1 / 2 ^ 50 ≤ pico.factor.value := by
  obtain ⟨-, hpico⟩ := abs_factor_sub_le .pico
  have hten : (10 : Rat) ^ pico.exponent = 1 / 10 ^ 12 := by norm_num [exponent]
  rw [hten] at hpico
  have := (abs_le.mp hpico).1
  linarith

/-- The prefix of a value that is not negative, which is chosen by twelve digits of it. -/
theorem ofMagnitude_cases (hsign : x.isNegative = false) :
    (ofMagnitude x = .pico ∨ (ofMagnitude x).factor ≤ x.roundSignificant 12)
      ∧ (ofMagnitude x = .tera ∨ ∃ next : MetricPrefix,
        next.exponent = (ofMagnitude x).exponent + 3 ∧ ¬ next.factor ≤ x.roundSignificant 12) := by
  have hself : abs x = x := by
    cases x with
    | nan => rfl
    | signed n r hr => exact congrArg (signed · r hr) hsign.symm
  generalize hp : ofMagnitude x = p
  rw [ofMagnitude, hself] at hp
  obtain ⟨haccepts, hnext⟩ := find?_descending hp
  refine ⟨haccepts.imp_right of_decide_eq_true, hnext.imp_right ?_⟩
  rintro ⟨next, hstep, hrejects⟩
  exact ⟨next, hstep, of_decide_eq_false hrejects⟩

/-- **A value is between one and a thousand times the factor of its prefix**, but for a small part of it,
if it is not less than the least factor and less than a thousand times the greatest. -/
theorem scale_mem (hsign : x.isNegative = false) (hfinite : x.isFinite = true)
    (hlow : pico.factor.value ≤ x.value) (hhigh : x.value ≤ 999 * 10 ^ 12) :
    (ofMagnitude x).factor.value * (255 / 256) ≤ x.value
      ∧ x.value ≤ (ofMagnitude x).factor.value * (1000 + 1 / 512) := by
  obtain ⟨hnum, hdigits⟩ :=
    abs_roundSignificant_sub_le hsign hfinite (le_factor_pico.trans hlow) (by linarith)
  obtain ⟨hbelow, habove⟩ := abs_le.mp hdigits
  obtain ⟨haccepts, hnext⟩ := ofMagnitude_cases hsign
  generalize x.roundSignificant 12 = digits at hnum hbelow habove haccepts hnext
  generalize ofMagnitude x = p at haccepts hnext ⊢
  obtain ⟨-, hfactor⟩ := abs_factor_sub_le p
  obtain ⟨hfactor, hfactor'⟩ := abs_le.mp hfactor
  have hpower : (0 : Rat) < 10 ^ p.exponent := by positivity
  constructor
  · rcases haccepts with rfl | haccepts
    · linarith
    · have hle := (le_iff.mp haccepts).2.2
      linarith
  · rcases hnext with rfl | ⟨next, hstep, hrejects⟩
    · have hten : (10 : Rat) ^ tera.exponent = 10 ^ 12 := by norm_num [exponent]
      rw [hten] at hfactor
      linarith
    · obtain ⟨hnextFinite, hnextFactor⟩ := abs_factor_sub_le next
      have hless : digits.value < next.factor.value := by
        by_contra hge
        exact hrejects (le_iff.mpr ⟨isNaN_of_isFinite hnextFinite, hnum, not_lt.mp hge⟩)
      have hthousand : (10 : Rat) ^ next.exponent = 1000 * 10 ^ p.exponent := by
        rw [hstep, zpow_add₀ (by norm_num)]
        norm_num
        ring
      rw [hthousand] at hnextFactor
      have := (abs_le.mp hnextFactor).2
      linarith

/-- **What is left of a value before its prefix** is between one and a thousand, but for a small part. -/
theorem quotient_mem (hsign : x.isNegative = false) (hfinite : x.isFinite = true)
    (hlow : pico.factor.value ≤ x.value) (hhigh : x.value ≤ 999 * 10 ^ 12) :
    (x / (ofMagnitude x).factor).isFinite = true
      ∧ 255 / 256 ≤ (x / (ofMagnitude x).factor).value
      ∧ (x / (ofMagnitude x).factor).value ≤ 1000 + 1 / 512 := by
  obtain ⟨hleast, hgreatest⟩ := scale_mem hsign hfinite hlow hhigh
  generalize ofMagnitude x = p at hleast hgreatest ⊢
  obtain ⟨hpfinite, hfactor⟩ := abs_factor_sub_le p
  have hpower : (0 : Rat) < 10 ^ p.exponent := by positivity
  have hpos : 0 < p.factor.value := by
    have := (abs_le.mp hfactor).1
    linarith
  have hnearest := isNearest_div hfinite hpfinite hpos.ne'
  rw [mul_comm] at hleast hgreatest
  rw [← le_div_iff₀ hpos] at hleast
  rw [← div_le_iff₀ hpos] at hgreatest
  have hlow' := div_le_rounded (n := 255) (k := 8) (by decide) (by decide) (q := x.value / p.factor.value)
  have hhigh' :=
    rounded_le_div (n := 512001) (k := 9) (by decide) (by decide) (q := x.value / p.factor.value)
  norm_num only at hlow' hhigh'
  refine ⟨hnearest.isFinite_of_le (by linarith) (by linarith), ?_, ?_⟩
  · rw [hnearest.value]
    exact hlow' hleast
  · rw [hnearest.value]
    exact (hhigh' (by linarith)).trans (by norm_num)

end MetricPrefix

end WorstCase
