import WorstCase.Proofs.Binary64.Shortest
import WorstCase.Proofs.Binary64.Signs
import WorstCase.Proofs.Quantity.Ordered
import WorstCase.Proofs.Rendering.Prefix
import WorstCase.Rendering

/-!
# The value clause

The number that is shown before the prefix is a count of hundredths, printed with one or two places
(`Rendering.valueClause_eq`). The mean is between one and a thousand times the factor of its prefix, but for
a small part of it, and that part is lost in the hundredths. So the count is between a hundred and a hundred
thousand.

Both ends are reached. The prefix is chosen by the mean as it is, up to noise in its last digits, and not by
what is shown of it: a mean that is less than the next factor, but by half a hundredth of the own one at
most, is shown as a thousand (`Rendering.valueClause_thousand`).
-/

namespace WorstCase

open Binary64

/-! ## Hundredths -/

namespace Rendering

variable {x : Binary64}

theorem hundred_eq : (ofRat 100).isFinite = true ∧ (ofRat 100).value = 100 := by
  exact_mod_cast ofRat_natCast 0x4059000000000000 100 (by decide) (by decide)

/-- A hundred times a number that is between one and a thousand, but for a small part, is between the middle
below a hundred and the one above a hundred thousand. -/
theorem mul_hundred_mem (hfinite : x.isFinite = true) (hlow : 255 / 256 ≤ x.value)
    (hhigh : x.value ≤ 1000 + 1 / 512) : (x * ofRat 100).isFinite = true
      ∧ 199 / 2 ≤ (x * ofRat 100).value ∧ (x * ofRat 100).value ≤ 400001 / 4 := by
  have hproduct := isNearest_mul hfinite hundred_eq.1
  rw [hundred_eq.2] at hproduct
  refine ⟨hproduct.isFinite_of_le (by linarith) (by linarith), ?_, ?_⟩
  · rw [hproduct.value]
    exact_mod_cast div_le_rounded (n := 199) (k := 1) (by decide) (by decide)
      (show ((199 : Nat) / 2 ^ 1 : Rat) ≤ x.value * 100 by norm_num; linarith)
  · rw [hproduct.value]
    exact_mod_cast rounded_le_div (n := 400001) (k := 2) (by decide) (by decide)
      (show x.value * 100 ≤ ((400001 : Nat) / 2 ^ 2 : Rat) by norm_num; linarith)

/-- **A number rounded to hundredths** is what is nearest to a count of them, with the sign of the number. -/
theorem hundredths_withSign (negative : Bool) (hsign : x.isNegative = false) (hfinite : x.isFinite = true)
    (hlow : 255 / 256 ≤ x.value) (hhigh : x.value ≤ 1000 + 1 / 512) :
    ∃ n : Nat, 100 ≤ n ∧ n ≤ 100000
      ∧ hundredths (withSign negative x) = signed negative (rankOf (n / 100)) (rankOf_le _)
      ∧ ∀ k : Nat, k < n ↔ (k + 1 / 2 : Rat) ≤ (x * ofRat 100).value := by
  obtain ⟨hhundred, hvalue⟩ := hundred_eq
  obtain ⟨hproduct, hleast, hmost⟩ := mul_hundred_mem hfinite hlow hhigh
  obtain ⟨n, hround, hroundSign, hroundValue, hcount⟩ :=
    round_eq (isNegative_mul hsign rfl) hproduct (by linarith)
  have hn : 100 ≤ n := (hcount 99).mpr (by push_cast; linarith)
  have hn' : n ≤ 100000 := by
    by_contra hmore
    have hhalf := (hcount 100000).mp (not_le.mp hmore)
    push_cast at hhalf
    linarith
  have hquotient := isNearest_div hround hhundred (by rw [hvalue]; norm_num)
  rw [hroundValue, hvalue] at hquotient
  have hself := hquotient.eq_signed (isNegative_div hroundSign rfl) (by positivity)
  obtain ⟨hpos, hrank⟩ := rankOf_hundredths_mem hn (hn'.trans (by decide))
  refine ⟨n, hn, hn', ?_, hcount⟩
  rw [hundredths, withSign_mul negative hsign rfl, withSign_round, withSign_div negative hroundSign rfl,
    hself]
  exact signed_add_zero negative _ hpos hrank

/-! ## Texts -/

/-- **A count of hundredths in positional notation**, with one place at least. -/
def hundredthsText (n : Nat) : String :=
  if n % 10 = 0 then Decimal.fixedText (n / 10) 1 else Decimal.fixedText n 2

theorem point_notMem_toString (n : Nat) : '.' ∉ (toString n).toList := by
  rw [Nat.toString_eq_repr, Nat.toList_repr]
  intro hmem
  have hdigit := Nat.isDigit_of_mem_toDigits (by decide) (by decide) hmem
  exact absurd hdigit (by decide)

theorem point_mem_fixedText (coefficient : Nat) {places : Nat} (h : places ≠ 0) :
    '.' ∈ (Decimal.fixedText coefficient places).toList := by
  rw [Decimal.fixedText, if_neg h]
  simp

/-- A whole number with one place. -/
theorem fixedText_mul_ten (n : Nat) : Decimal.fixedText (n * 10) 1 = toString n ++ ".0" := by
  have hten : powerOfTen 1 = 10 := by decide
  rw [Decimal.fixedText, if_neg (by decide), hten, Nat.mul_div_cancel _ (by decide), Nat.mul_mod_left,
    String.append_assoc, String.append_assoc]
  exact congrArg (toString n ++ ·) (by decide)

/-- **A number is shown as its shortest decimal**, and a place is added if that has none. -/
theorem withPoint_signed {rank : Nat} (negative : Bool) (h : rank ≤ infinityRank)
    (hrank : rank < infinityRank) : withPoint (signed negative rank h) = signText negative ++
      if '.' ∈ (shortest rank).text.toList then (shortest rank).text else (shortest rank).text ++ ".0" := by
  have htext : (signed negative rank h).text = signText negative ++ (shortest rank).text := by
    rw [Binary64.text, if_neg hrank.ne]
  have hfinite : (signed negative rank h).isFinite = true := decide_eq_true hrank
  have hpoint : '.' ∉ (signText negative).toList := by cases negative <;> decide
  rw [withPoint, htext, hfinite]
  generalize (shortest rank).text = shown
  by_cases hmem : '.' ∈ shown.toList
  · simp [hmem]
  · simp [hmem, hpoint, String.append_assoc]

/-- **A number that is nearest to a count of hundredths** is shown as that count. -/
theorem withPoint_hundredths {n : Nat} (negative : Bool) (hn : 100 ≤ n) (hsmall : n ≤ 10 ^ 14) :
    withPoint (signed negative (rankOf (n / 100)) (rankOf_le _))
      = signText negative ++ hundredthsText n := by
  rw [withPoint_signed negative _ (rankOf_hundredths_mem hn hsmall).2]
  obtain ⟨c, j, hshortest, hvalue, hdigit⟩ := shortest_hundredths hn hsmall
  rw [hshortest]
  refine congrArg (signText negative ++ ·) ?_
  -- the shortest decimal has two places, one, or none
  match j with
  | 0 =>
    obtain rfl : c = n := by rw [← hvalue, pow_zero, mul_one]
    have htext : (⟨c, (0 : Nat) - 2⟩ : Decimal).text = Decimal.fixedText c 2 := rfl
    rw [htext, if_pos (point_mem_fixedText c two_ne_zero), hundredthsText, if_neg hdigit]
  | 1 =>
    obtain rfl : c * 10 = n := by rw [← hvalue, pow_one]
    have htext : (⟨c, (1 : Nat) - 2⟩ : Decimal).text = Decimal.fixedText c 1 := rfl
    rw [htext, if_pos (point_mem_fixedText c one_ne_zero), hundredthsText, if_pos (Nat.mul_mod_left _ _),
      Nat.mul_div_cancel _ (by decide)]
  | i + 2 =>
    obtain rfl : c * 10 ^ i * 10 * 10 = n := by rw [← hvalue, pow_add]; ring
    have htext : (⟨c, (i + 2 : Nat) - 2⟩ : Decimal).text = toString (c * 10 ^ i) := by
      rw [Nat.cast_add, Nat.cast_ofNat, add_sub_cancel_right]
      rfl
    rw [htext, if_neg (point_notMem_toString _), hundredthsText, if_pos (Nat.mul_mod_left _ _),
      Nat.mul_div_cancel _ (by decide), fixedText_mul_ten]

example : hundredthsText 1205 = "12.05" ∧ hundredthsText 470 = "4.7" ∧ hundredthsText 1200 = "12.0" := by
  decide +kernel

/-! ## The clause -/

/-- **What is shown is computed from the magnitude**, and has the sign of the mean. -/
theorem shownValue_eq (q : Quantity Binary64) : shownValue q = hundredths (withSign q.measure.mean.isNegative
    (abs q.measure.mean / (MetricPrefix.ofMagnitude (abs q.measure.mean)).factor)) := by
  rw [← withSign_div _ (isNegative_abs _) (MetricPrefix.isNegative_factor _), withSign_abs,
    MetricPrefix.ofMagnitude_abs]
  rfl

/-- **The number shown before the prefix is between one and a thousand**: a count of hundredths with the
sign of the mean. It is a thousand where the mean is less than a thousand factors by half a hundredth of
one at most, and less than a thousand everywhere else. -/
theorem valueClause_eq (q : Quantity Binary64) (hlow : MetricPrefix.pico.factor ≤ abs q.measure.mean)
    (hhigh : abs q.measure.mean < ofRat 999000000000000) :
    ∃ n : Nat, 100 ≤ n ∧ n ≤ 100000
      ∧ valueClause q = signText q.measure.mean.isNegative ++ hundredthsText n
          ++ (MetricPrefix.ofMagnitude q.measure.mean).symbol ++ q.kind.unitLabel
      ∧ (n = 100000 ↔ ofRat (199999 / 2)
          ≤ abs q.measure.mean / (MetricPrefix.ofMagnitude q.measure.mean).factor * ofRat 100) := by
  have hgreatest : (ofRat 999000000000000).isFinite = true
      ∧ (ofRat 999000000000000).value = 999000000000000 := by
    exact_mod_cast ofRat_natCast 0x430c64ae810b8000 999000000000000 (by decide) (by decide)
  have hmiddle : (ofRat (199999 / 2)).value = 199999 / 2 := by
    have hexact := rounded_div (n := 199999) (k := 1) (by decide) (by decide)
    exact_mod_cast hexact
  rw [valueClause, ← MetricPrefix.ofMagnitude_abs q.measure.mean, shownValue_eq]
  have hsign := isNegative_abs q.measure.mean
  generalize abs q.measure.mean = magnitude at hlow hhigh hsign ⊢
  obtain ⟨hnum, hnum', hless⟩ := lt_iff.mp hhigh
  have hfinite : magnitude.isFinite = true :=
    isFinite_of_mem (MetricPrefix.abs_factor_sub_le .pico).1 hgreatest.1 hlow
      (le_iff.mpr ⟨hnum, hnum', hless.le⟩)
  rw [hgreatest.2] at hless
  obtain ⟨hquotient, hleast, hmost⟩ :=
    MetricPrefix.quotient_mem hsign hfinite (le_iff.mp hlow).2.2 (by linarith)
  have hquotientSign :=
    isNegative_div hsign (MetricPrefix.isNegative_factor (MetricPrefix.ofMagnitude magnitude))
  generalize MetricPrefix.ofMagnitude magnitude = p at hquotient hleast hmost hquotientSign ⊢
  obtain ⟨n, hn, hn', hhundredths, hcount⟩ :=
    hundredths_withSign q.measure.mean.isNegative hquotientSign hquotient hleast hmost
  refine ⟨n, hn, hn', ?_, ?_⟩
  · rw [hhundredths, withPoint_hundredths _ hn (hn'.trans (by decide))]
  · have hlast := hcount 99999
    norm_num at hlast
    have hproduct := (isNearest_mul hquotient hundred_eq.1).isNaN
    have hnumber : (ofRat (199999 / 2)).isNaN = false := rfl
    rw [le_iff, hmiddle, and_iff_right hnumber, and_iff_right hproduct, ← hlast]
    omega

/-- A voltage without spread. -/
def exactVoltage (mean : Binary64) : Quantity Binary64 :=
  .plain .voltage ⟨mean, some 0, ⟨mean, mean⟩⟩ Kind.voltage_ne_resistance

theorem valueClause_eq_exactVoltage :
    MetricPrefix.pico.factor ≤ abs (ofRat (-4700)) ∧ abs (ofRat (-4700)) < ofRat 999000000000000
      ∧ ∃ n : Nat, 100 ≤ n ∧ n ≤ 100000
        ∧ valueClause (exactVoltage (ofRat (-4700))) = signText true ++ hundredthsText n
            ++ (MetricPrefix.ofMagnitude (ofRat (-4700))).symbol ++ "V"
        ∧ (n = 100000 ↔ ofRat (199999 / 2) ≤ abs (ofRat (-4700))
            / (MetricPrefix.ofMagnitude (ofRat (-4700))).factor * ofRat 100) := by
  have hlow : MetricPrefix.pico.factor ≤ abs (ofRat (-4700)) := by decide +kernel
  have hhigh : abs (ofRat (-4700)) < ofRat 999000000000000 := by decide +kernel
  exact ⟨hlow, hhigh, valueClause_eq (exactVoltage (ofRat (-4700))) hlow hhigh⟩

/-- **A thousand is shown** where the next prefix has not been reached: a voltage of 999.996 volts. -/
theorem valueClause_thousand :
    MetricPrefix.pico.factor ≤ abs (ofRat (999996 / 1000))
      ∧ abs (ofRat (999996 / 1000)) < ofRat 999000000000000
      ∧ Quantity.ofTolerance .voltage (ofRat (999996 / 1000)) 0 = .ok (exactVoltage (ofRat (999996 / 1000)))
      ∧ valueClause (exactVoltage (ofRat (999996 / 1000))) = "1000.0V" := by
  refine ⟨by decide +kernel, by decide +kernel, by decide +kernel, ?_⟩
  have hmean : ofRat (999996 / 1000) = signed false 0x408f3ff7ced91687 (by decide) := by decide +kernel
  have hplace : leadingPlace (unitsAt 0x408f3ff7ced91687) = (2 : Nat) :=
    leadingPlace_eq (by decide +kernel) (by decide +kernel)
  have hdigits : roundSignificant 12 (signed false 0x408f3ff7ced91687 (by decide))
      = signed false 0x408f3ff7ced91687 (by decide) := by
    refine (roundSignificant_signed 12 false _).trans ?_
    rewrite [hplace]
    decide +kernel
  have hprefix : MetricPrefix.ofMagnitude (ofRat (999996 / 1000)) = .one := by
    rewrite [MetricPrefix.ofMagnitude, hmean, Binary64.abs, hdigits]
    decide +kernel
  have hshown : hundredths (ofRat (999996 / 1000) / MetricPrefix.one.factor)
      = signed false (rankOf ((100000 : Nat) / 100)) (rankOf_le _) := by decide +kernel
  have hclause : valueClause (exactVoltage (ofRat (999996 / 1000))) =
    withPoint (hundredths (ofRat (999996 / 1000) / (MetricPrefix.ofMagnitude (ofRat (999996 / 1000))).factor))
      ++ (MetricPrefix.ofMagnitude (ofRat (999996 / 1000))).symbol ++ "V" := rfl
  rewrite [hclause, hprefix, hshown, withPoint_hundredths false (by decide) (by decide)]
  decide +kernel

end Rendering

end WorstCase
