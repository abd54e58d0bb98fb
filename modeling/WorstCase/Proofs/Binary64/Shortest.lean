import WorstCase.Proofs.Binary64.Decimals
import WorstCase.Proofs.Binary64.Precision

/-!
# The shortest decimal of a number

A decimal reads back to a magnitude if it lies between the middles towards the neighbours, and those count
for even ranks only. That is what rounding does (`lt_nearestRank_iff`), so reading back means being rounded
to the magnitude (`readsBack_iff`).

The search for the shortest decimal goes from the place of the leading digit to the right. Where a number is
what a decimal with two places is rounded to, it finds that decimal and no other: no further place is
searched, since that decimal reads back, and no other decimal of these places does, since they are a
hundredth apart at least (`eq_of_readsBack`). So the number is printed as that decimal
(`shortest_hundredths`).
-/

namespace WorstCase.Binary64

variable {num den n rank count more : Nat} {place : Int} {q : Rat}

/-! ## Reading back -/

/-- A quotient is beyond the middles of all lower binades. -/
theorem IsSpacing.four_mul_le {k k' : Nat} (hs : IsSpacing k (num / den)) (hden : 0 < den) (h : k' < k) :
    4 * binade * den <<< k' ≤ 2 * num :=
  calc 4 * binade * den <<< k' = 2 * (binade * den <<< (k' + 1)) := by
        rw [Nat.shiftLeft_succ]
        ring
    _ ≤ 2 * (binade * den <<< k) := by
        rw [Nat.shiftLeft_eq, Nat.shiftLeft_eq den k]
        gcongr
        · decide
        · exact h
    _ ≤ 2 * num := by
        rw [mul_shiftLeft]
        exact Nat.mul_le_mul_left 2
          ((Nat.le_div_iff_mul_le hden).mp (hs.normal.resolve_left (Nat.ne_of_gt (Nat.zero_lt_of_lt h))))

/-- It is below the magnitudes of all higher binades. -/
theorem IsSpacing.two_mul_lt {k k' c : Nat} (hs : IsSpacing k (num / den)) (hden : 0 < den) (h : k < k')
    (hc : binade ≤ c) : 2 * num < 2 * c * den <<< k' :=
  calc 2 * num < 2 * ((2 * binade) <<< k * den) :=
        Nat.mul_lt_mul_of_pos_left ((Nat.div_lt_iff_lt_mul hden).mp hs.below) two_pos
    _ = 2 * (binade * den <<< (k + 1)) := by
        rw [Nat.shiftLeft_eq, Nat.shiftLeft_eq]
        ring
    _ ≤ 2 * (c * den <<< k') := by
        rw [Nat.shiftLeft_eq, Nat.shiftLeft_eq den k']
        gcongr
        · decide
        · exact h
    _ = 2 * c * den <<< k' := (mul_assoc _ _ _).symm

/-- **A quotient is rounded up past a magnitude** when it is beyond the middle between that and the next
one, or is the middle and the rank is odd. -/
theorem lt_nearestRank_iff (hden : 0 < den) : n < nearestRank num den
    ↔ (unitsAt n + unitsAt (n + 1)) * den < 2 * num
      ∨ (unitsAt n + unitsAt (n + 1)) * den = 2 * num ∧ n % 2 = 1 := by
  have hs := isSpacing_log2 (num / den)
  rw [nearestRank_eq hs]
  generalize Nat.log2 (num / den) - 52 = k at hs
  obtain ⟨k', c, hc, rfl⟩ := exists_isCount n
  have hbelow := hc.below
  have hmiddle : (unitsAt (k' * binade + c) + unitsAt (k' * binade + c + 1)) * den
      = (2 * c + 1) * den <<< k' := by
    rw [add_assoc, unitsAt_count hc.normal (Nat.le_of_lt hbelow),
      unitsAt_count (hc.normal.imp_right Nat.le_succ_of_le) hbelow, middle_eq]
  have hparity : (k' * binade + c) % 2 = c % 2 := by
    simp only [binade]
    omega
  rw [hmiddle, hparity]
  have hpos := shiftLeft_pos hden k'
  rcases lt_trichotomy k' k with hlt | rfl | hgt
  · -- the magnitude is of a lower binade than the quotient
    have hk : k ≠ 0 := Nat.ne_of_gt (Nat.zero_lt_of_lt hlt)
    have hup := hs.le_roundDiv hden hk
    have hrank : k' * binade + 2 * binade ≤ k * binade + binade := by
      rw [← Nat.add_mul, ← Nat.succ_mul]
      exact Nat.mul_le_mul_right _ (by omega)
    have hbeyond := hs.four_mul_le hden hlt
    have hbelow' : (2 * c + 1) * den <<< k' < 4 * binade * den <<< k' :=
      Nat.mul_lt_mul_of_pos_right (by omega) hpos
    exact iff_of_true (by omega) (.inl (by omega))
  · rw [Nat.add_lt_add_iff_left]
    exact lt_roundDiv_iff hpos
  · -- the magnitude is of a higher binade
    have hk' : k' ≠ 0 := Nat.ne_of_gt (Nat.zero_lt_of_lt hgt)
    have hnormal := hc.normal.resolve_left hk'
    have hdown := hs.roundDiv_le hden
    have hrank : k * binade + 2 * binade ≤ k' * binade + binade := by
      rw [← Nat.add_mul, ← Nat.succ_mul]
      exact Nat.mul_le_mul_right _ (by omega)
    have hbelow' := hs.two_mul_lt hden hgt hnormal
    have hmiddle' : 2 * c * den <<< k' < (2 * c + 1) * den <<< k' :=
      Nat.mul_lt_mul_of_pos_right (by omega) hpos
    exact iff_of_false (by omega) (by omega)

/-- So is a rational. -/
theorem lt_rankOf_iff (hq : 0 ≤ q) (hn : n < infinityRank) : n < rankOf q
    ↔ (unitsAt n + unitsAt (n + 1) : Rat) < 2 * (q * unitsPerOne)
      ∨ (unitsAt n + unitsAt (n + 1) : Rat) = 2 * (q * unitsPerOne) ∧ n % 2 = 1 := by
  have hden : (0 : Rat) < q.den := Nat.cast_pos.mpr q.den_pos
  have hnum : (q.num.natAbs * unitsPerOne : Rat) = q * unitsPerOne * q.den := by
    rw [natAbs_num_eq hq]
    ring
  rw [rankOf, lt_min_iff, and_iff_left hn, lt_nearestRank_iff q.den_pos]
  have hlt : (unitsAt n + unitsAt (n + 1)) * q.den < 2 * (q.num.natAbs * unitsPerOne)
      ↔ (unitsAt n + unitsAt (n + 1) : Rat) < 2 * (q * unitsPerOne) := by
    rw [← mul_lt_mul_iff_left₀ hden, mul_assoc, ← hnum]
    exact_mod_cast Iff.rfl
  have heq : (unitsAt n + unitsAt (n + 1)) * q.den = 2 * (q.num.natAbs * unitsPerOne)
      ↔ (unitsAt n + unitsAt (n + 1) : Rat) = 2 * (q * unitsPerOne) := by
    rw [← mul_left_inj' hden.ne', mul_assoc, ← hnum]
    exact_mod_cast Iff.rfl
  rw [hlt, heq]

/-- A grid point is compared with a magnitude. -/
theorem gridQuotient_le_iff (units n : Nat) (place : Int) :
    ((gridQuotient units place).1 ≤ n * (gridQuotient units place).2
        ↔ (units : Rat) ≤ n * 10 ^ place * unitsPerOne)
      ∧ (n * (gridQuotient units place).2 ≤ (gridQuotient units place).1
        ↔ (n * 10 ^ place * unitsPerOne : Rat) ≤ units) := by
  obtain ⟨hden, hquotient⟩ := gridQuotient_div units place
  generalize gridQuotient units place = grid at hden hquotient
  obtain ⟨num, den⟩ := grid
  have hpos : (0 : Rat) < den := Nat.cast_pos.mpr hden
  have hstep : (0 : Rat) < 10 ^ place := by positivity
  have hone := unitsPerOne_pos
  dsimp only at hquotient ⊢
  constructor
  · rw [← Nat.cast_le (α := Rat), Nat.cast_mul, ← div_le_iff₀ hpos, hquotient, div_le_iff₀ hstep,
      div_le_iff₀ hone]
  · rw [← Nat.cast_le (α := Rat), Nat.cast_mul, ← le_div_iff₀ hpos, hquotient, le_div_iff₀ hstep,
      le_div_iff₀ hone]

/-- **A decimal reads back to a magnitude** exactly when it is rounded to it. -/
theorem readsBack_iff (hpos : 0 < rank) (hfinite : rank < infinityRank) :
    readsBack rank count place = true ↔ rankOf (Decimal.value ⟨count, place⟩) = rank := by
  obtain ⟨pred, rfl⟩ := Nat.exists_eq_succ_of_ne_zero hpos.ne'
  have hvalue : Decimal.value ⟨count, place⟩ = count * 10 ^ place := rfl
  have hnonneg : (0 : Rat) ≤ count * 10 ^ place := by positivity
  have hends : rankOf (Decimal.value ⟨count, place⟩) = pred + 1
      ↔ pred < rankOf (count * 10 ^ place) ∧ ¬pred + 1 < rankOf (count * 10 ^ place) := by
    rw [hvalue]
    omega
  rw [hends, lt_rankOf_iff hnonneg (by omega), lt_rankOf_iff hnonneg hfinite]
  obtain ⟨hlow, hlow'⟩ := gridQuotient_le_iff (unitsAt pred + unitsAt (pred + 1)) (2 * count) place
  obtain ⟨hhigh, hhigh'⟩ :=
    gridQuotient_le_iff (unitsAt (pred + 1) + unitsAt (pred + 1 + 1)) (2 * count) place
  have htwice : ((2 * count : Nat) * 10 ^ place * unitsPerOne : Rat)
      = 2 * (count * 10 ^ place * unitsPerOne) := by
    push_cast
    ring
  rw [htwice, Nat.cast_add] at hlow hlow' hhigh hhigh'
  rw [readsBack, Nat.succ_eq_add_one, Nat.add_sub_cancel]
  by_cases heven : (pred + 1) % 2 = 0
  · have hodd : pred % 2 = 1 := by omega
    rw [if_pos heven, Bool.and_eq_true, decide_eq_true_iff, decide_eq_true_iff, hlow, hhigh', hodd,
      heven, and_iff_left rfl, ← le_iff_lt_or_eq]
    simp
  · have heven' : ¬ pred % 2 = 1 := by omega
    have hodd : (pred + 1) % 2 = 1 := by omega
    rw [if_neg heven, Bool.and_eq_true, decide_eq_true_iff, decide_eq_true_iff, ← not_le, hlow',
      ← not_le, hhigh, hodd, and_iff_left rfl, ← le_iff_lt_or_eq, iff_false_intro heven', and_false,
      or_false, not_le]

/-- A neighbour that is found reads back. -/
theorem readsBack_of_gridNeighbour? (h : gridNeighbour? rank place = some count) :
    readsBack rank count place = true := by
  unfold gridNeighbour? at h
  dsimp only at h
  split at h
  · rename_i hbelow habove
    split at h <;>
    · cases h
      assumption
  · rename_i hbelow _
    cases h
    exact hbelow
  · rename_i _ habove
    cases h
    exact habove
  · cases h

/-- A neighbour that reads back is found. -/
theorem gridNeighbour?_ne_none
    (h : let below := (gridQuotient (unitsAt rank) place).1 / (gridQuotient (unitsAt rank) place).2
      readsBack rank below place = true ∨ readsBack rank (below + 1) place = true) :
    gridNeighbour? rank place ≠ none := by
  unfold gridNeighbour?
  dsimp only at h ⊢
  rcases h with h | h
  · rw [h]
    cases readsBack rank _ place <;> exact nofun
  · rw [h]
    cases readsBack rank _ place <;> exact nofun

/-! ## Two places -/

theorem isFinite_ofRat : (ofRat q).isFinite = true ↔ rankOf q < infinityRank := decide_eq_true_iff

/-- **Different counts of hundredths are rounded to different numbers.** -/
theorem rounded_hundredths_lt {m : Nat} (hsmall : m ≤ 10 ^ 14) (h : m < n) :
    rounded (m / 100) < rounded (n / 100) := by
  have hlarge : (m : Rat) ≤ 10 ^ 14 := by exact_mod_cast hsmall
  have hstep : (m : Rat) + 1 ≤ n := by exact_mod_cast h
  exact rounded_lt_rounded (by positivity) (by linarith) (by linarith)

/-- **A count of hundredths is next to what is nearest to it**: it is one of the two counts around that. -/
theorem eq_or_eq_succ_of_rounded {below : Nat} (hsmall : n ≤ 10 ^ 14)
    (hbelow : below ≤ rounded (n / 100) * 100) (habove : rounded (n / 100) * 100 < below + 1) :
    n = below ∨ n = below + 1 := by
  have hlarge : (n : Rat) ≤ 10 ^ 14 := by exact_mod_cast hsmall
  have hself : rounded (rounded (n / 100)) = rounded (n / 100) :=
    (isNearest_value (x := ofRat (n / 100)) rfl).value.symm
  have hnonneg : 0 ≤ rounded (n / 100) := by
    rw [rounded_of_nonneg (by positivity)]
    exact div_nonneg (Nat.cast_nonneg _) unitsPerOne_pos.le
  by_contra hne
  rw [not_or] at hne
  -- otherwise the two are a hundredth apart, and are not rounded to the same number
  rcases Nat.lt_or_ge n below with hlt | hge
  · have hstep : (n : Rat) + 1 ≤ below := by exact_mod_cast hlt
    have hless := rounded_lt_rounded (p := n / 100) (q := rounded (n / 100)) (by positivity)
      (by linarith) (by linarith)
    exact hless.ne hself.symm
  · have hstep : (below : Rat) + 2 ≤ n := by exact_mod_cast (show below + 2 ≤ n by omega)
    have hless := rounded_lt_rounded (p := rounded (n / 100)) (q := n / 100) hnonneg
      (by linarith) (by linarith)
    exact hless.ne hself

section Hundredths

variable (hn : 100 ≤ n) (hsmall : n ≤ 10 ^ 14)

include hn hsmall

/-- The decimal is rounded to no less than one, and to what is in range. -/
theorem rounded_hundredths_mem : 1 ≤ rounded (n / 100) ∧ rounded (n / 100 : Rat) ≤ 10 ^ 12 := by
  have hone : (100 : Rat) ≤ n := by exact_mod_cast hn
  have hlarge : (n : Rat) ≤ 10 ^ 14 := by exact_mod_cast hsmall
  have hleast := div_le_rounded (n := 1) (k := 0) (q := n / 100) (by decide) (by decide)
  have hgreatest := rounded_le_div (n := 10 ^ 12) (k := 0) (q := n / 100) (by decide) (by decide)
  rw [pow_zero, div_one, Nat.cast_one] at hleast
  rw [pow_zero, div_one, Nat.cast_pow, Nat.cast_ofNat] at hgreatest
  exact ⟨hleast (by linarith), hgreatest (by linarith)⟩

theorem rankOf_hundredths_mem : 0 < rankOf (n / 100) ∧ rankOf (n / 100 : Rat) < infinityRank := by
  obtain ⟨hone, -⟩ := rounded_hundredths_mem hn hsmall
  constructor
  · refine Nat.pos_of_ne_zero fun hzero => ?_
    rw [rounded_of_nonneg (by positivity), hzero, unitsAt_eq_zero.mpr rfl, Nat.cast_zero,
      zero_div] at hone
    norm_num at hone
  · have hnearest : (ofRat (n / 100)).IsNearest (n / 100) := ⟨rfl, rfl⟩
    have hle : (n / 100 : Rat) ≤ 2 ^ 52 := by
      have hcast : (n : Rat) ≤ 10 ^ 14 := by exact_mod_cast hsmall
      linarith
    exact isFinite_ofRat.mp (hnearest.isFinite_of_le (by positivity) hle)

/-- **No other decimal of so few places** reads back to the same number. -/
theorem eq_of_readsBack (hplace : -2 ≤ place)
    (h : readsBack (rankOf (n / 100)) count place = true) :
    Decimal.value ⟨count, place⟩ = n / 100 := by
  obtain ⟨hpos, hfinite⟩ := rankOf_hundredths_mem hn hsmall
  have hrank := (readsBack_iff hpos hfinite).mp h
  -- the decimal is a count of hundredths as well
  obtain ⟨k, hk⟩ := Int.eq_ofNat_of_zero_le (show 0 ≤ place + 2 by omega)
  have hvalue : Decimal.value ⟨count, place⟩ = (count * 10 ^ k : Nat) / 100 := by
    rw [Decimal.value, eq_sub_of_add_eq hk, zpow_sub₀ (by norm_num), zpow_natCast, zpow_ofNat]
    push_cast
    ring
  rw [hvalue] at hrank ⊢
  generalize count * 10 ^ k = other at hrank ⊢
  have hsame : rounded (other / 100) = rounded (n / 100) := by
    rw [rounded_of_nonneg (by positivity), rounded_of_nonneg (by positivity), hrank]
  rcases lt_trichotomy other n with hlt | rfl | hgt
  · exact absurd hsame (rounded_hundredths_lt (hlt.le.trans hsmall) hlt).ne
  · rfl
  · exact absurd hsame (rounded_hundredths_lt hsmall hgt).ne'

/-- The decimal is a neighbour of the number on its grid, so that the search does not go on. -/
theorem gridNeighbour?_hundredths : gridNeighbour? (rankOf (n / 100)) (-2) ≠ none := by
  obtain ⟨hpos, hfinite⟩ := rankOf_hundredths_mem hn hsmall
  have hvalue : Decimal.value ⟨n, -2⟩ = n / 100 := by
    show (n * 10 ^ (-2 : Int) : Rat) = n / 100
    norm_num [div_eq_mul_inv]
  have hback : readsBack (rankOf (n / 100)) n (-2) = true := by
    rw [readsBack_iff hpos hfinite, hvalue]
  refine gridNeighbour?_ne_none ?_
  dsimp only
  obtain ⟨hden, hquotient⟩ := gridQuotient_div (unitsAt (rankOf (n / 100))) (-2)
  generalize gridQuotient (unitsAt (rankOf (n / 100))) (-2) = grid at hden hquotient ⊢
  obtain ⟨num, den⟩ := grid
  rw [← rounded_of_nonneg (by positivity)] at hquotient
  dsimp only at hden hquotient ⊢
  have hdenpos : (0 : Rat) < den := Nat.cast_pos.mpr hden
  have hscaled : (num / den : Rat) = rounded (n / 100) * 100 := by
    rw [hquotient, zpow_neg, div_inv_eq_mul]
    norm_num
  have hbelow : ((num / den : Nat) : Rat) ≤ rounded (n / 100) * 100 := hscaled ▸ Nat.cast_div_le
  have habove : rounded (n / 100) * 100 < (num / den : Nat) + 1 := by
    rw [← hscaled, div_lt_iff₀ hdenpos, mul_comm]
    exact_mod_cast Nat.lt_mul_div_succ num hden
  have hcases := eq_or_eq_succ_of_rounded hsmall hbelow habove
  generalize num / den = below at hcases ⊢
  rcases hcases with rfl | rfl
  · exact .inl hback
  · exact .inr hback

/-- **The search finds the decimal** if it starts early enough. -/
theorem shortestFrom_hundredths {j : Nat} (hj : j < more) :
    (shortestFrom (rankOf (n / 100)) more (j - 2)).value = n / 100
      ∧ -2 ≤ (shortestFrom (rankOf (n / 100)) more (j - 2)).exponent := by
  induction more generalizing j with
  | zero => omega
  | succ more ih =>
    rw [shortestFrom]
    cases hneighbour : gridNeighbour? (rankOf (n / 100)) (j - 2) with
    | some count =>
      have hplace : (-2 : Int) ≤ j - 2 := by omega
      exact ⟨eq_of_readsBack hn hsmall hplace (readsBack_of_gridNeighbour? hneighbour), hplace⟩
    | none =>
      obtain ⟨i, rfl⟩ : ∃ i, j = i + 1 := by
        refine Nat.exists_eq_succ_of_ne_zero ?_
        rintro rfl
        exact gridNeighbour?_hundredths hn hsmall hneighbour
      have hnext : ((i + 1 : Nat) : Int) - 2 - 1 = i - 2 := by omega
      rw [hnext]
      exact ih (by omega)

/-- The search starts at the leading digit, which is early enough. -/
theorem leadingPlace_hundredths :
    ∃ j : Nat, j < 16 ∧ leadingPlace (unitsAt (rankOf (n / 100))) = j - 2 := by
  obtain ⟨hpos, -⟩ := rankOf_hundredths_mem hn hsmall
  obtain ⟨hone, hlarge⟩ := rounded_hundredths_mem hn hsmall
  obtain ⟨hlow, hhigh⟩ := leadingPlace_mem
    (Nat.pos_of_ne_zero fun hzero => hpos.ne' (unitsAt_eq_zero.mp hzero))
  generalize leadingPlace (unitsAt (rankOf (n / 100))) = lead at hlow hhigh
  rw [← rounded_of_nonneg (by positivity)] at hlow hhigh
  have hten : (1 : Rat) < 10 := by norm_num
  have hlead : 0 < lead + 1 := by
    rw [← zpow_lt_zpow_iff_right₀ hten, zpow_zero]
    exact hone.trans_lt hhigh
  have hlead' : lead ≤ 12 := by
    rw [← zpow_le_zpow_iff_right₀ hten]
    exact_mod_cast hlow.trans hlarge
  obtain ⟨j, hj⟩ := Int.eq_ofNat_of_zero_le (show 0 ≤ lead + 2 by omega)
  exact ⟨j, by omega, by omega⟩

end Hundredths

/-! ## Trailing zeros -/

/-- **Without trailing zeros a decimal is the same**, if there are not too many of them. -/
theorem dropZeros_eq (steps : Nat) {d : Decimal} (hpos : 0 < d.coefficient)
    (hsmall : d.coefficient < 10 ^ steps) :
    (dropZeros steps d).value = d.value ∧ (dropZeros steps d).coefficient % 10 ≠ 0
      ∧ d.exponent ≤ (dropZeros steps d).exponent := by
  induction steps generalizing d with
  | zero => omega
  | succ steps ih =>
    rw [dropZeros]
    split
    · rename_i hzero
      have hten : d.coefficient = d.coefficient / 10 * 10 := by omega
      have hvalue : Decimal.value ⟨d.coefficient / 10, d.exponent + 1⟩ = d.value := by
        rw [Decimal.value, Decimal.value, zpow_add_one₀ (by norm_num)]
        conv_rhs => rw [hten]
        push_cast
        ring
      obtain ⟨hdropped, hdigit, hexponent⟩ :=
        ih (d := ⟨d.coefficient / 10, d.exponent + 1⟩) (by show 0 < _ / 10; omega)
          (by show _ / 10 < _; rw [pow_succ] at hsmall; omega)
      dsimp only at hexponent
      exact ⟨hdropped.trans hvalue, hdigit, by omega⟩
    · rename_i hlast
      rw [not_and] at hlast
      exact ⟨rfl, hlast hpos.ne', le_rfl⟩

/-- The search for the shortest decimal starts at the leading digit. -/
theorem shortest_of_pos (hpos : 0 < rank) :
    shortest rank = dropZeros 17 (shortestFrom rank 16 (leadingPlace (unitsAt rank))) :=
  if_neg hpos.ne'

/-- **A number that is nearest to a decimal with two places is printed as that decimal**, without
trailing zeros. -/
theorem shortest_hundredths (hn : 100 ≤ n) (hsmall : n ≤ 10 ^ 14) :
    ∃ c j : Nat, shortest (rankOf (n / 100)) = ⟨c, j - 2⟩ ∧ c * 10 ^ j = n ∧ c % 10 ≠ 0 := by
  obtain ⟨hpos, -⟩ := rankOf_hundredths_mem hn hsmall
  obtain ⟨i, hi, hlead⟩ := leadingPlace_hundredths hn hsmall
  obtain ⟨hvalue, hplace⟩ := shortestFrom_hundredths hn hsmall hi
  rw [shortest_of_pos hpos, hlead]
  generalize shortestFrom (rankOf (n / 100)) 16 (i - 2) = found at hvalue hplace ⊢
  -- a decimal of two places or fewer counts hundredths
  have hcount : ∀ d : Decimal, -2 ≤ d.exponent → d.value = n / 100 →
      ∃ j : Nat, d.exponent = j - 2 ∧ d.coefficient * 10 ^ j = n := by
    intro d hd hvalue
    obtain ⟨j, hj⟩ := Int.eq_ofNat_of_zero_le (show 0 ≤ d.exponent + 2 by omega)
    refine ⟨j, eq_sub_of_add_eq hj, ?_⟩
    rw [Decimal.value, eq_sub_of_add_eq hj, zpow_sub₀ (by norm_num), zpow_natCast, zpow_ofNat,
      ← mul_div_assoc, div_eq_div_iff (by norm_num) (by norm_num)] at hvalue
    have hcast : (d.coefficient * 10 ^ j : Rat) = n := by linarith
    exact_mod_cast hcast
  obtain ⟨j, -, hj⟩ := hcount found hplace hvalue
  have hcoefficient : 0 < found.coefficient := by
    refine Nat.pos_of_ne_zero fun hzero => ?_
    rw [hzero, zero_mul] at hj
    omega
  have hfew : found.coefficient < 10 ^ 17 := by
    calc found.coefficient ≤ found.coefficient * 10 ^ j := Nat.le_mul_of_pos_right _ (by positivity)
      _ = n := hj
      _ ≤ 10 ^ 14 := hsmall
      _ < 10 ^ 17 := by decide
  obtain ⟨hdropped, hdigit, hexponent⟩ := dropZeros_eq 17 hcoefficient hfew
  generalize dropZeros 17 found = d at hdropped hdigit hexponent ⊢
  obtain ⟨k, hk, hn'⟩ := hcount d (hplace.trans hexponent) (hdropped.trans hvalue)
  obtain ⟨c, exponent⟩ := d
  obtain rfl : exponent = k - 2 := hk
  exact ⟨c, k, rfl, hn', hdigit⟩

end WorstCase.Binary64
