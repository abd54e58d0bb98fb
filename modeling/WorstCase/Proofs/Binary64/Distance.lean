import WorstCase.Proofs.Binary64.Between

/-!
# How far numbers are from what they are nearest to

A rounded result is called nearest because no number is nearer
(`IsNearest.abs_sub_le`). Between two neighbouring magnitudes, `nearestRank`
decides by their middle: what is rounded up is not below it, and what is not
rounded up is not beyond it.

Two things follow that the order alone does not give. Where a number lies
strictly between two others, their middle is not rounded onto the upper one
(`midpoint_ne`). And numbers that differ lie so far apart, measured by either of
them, that the difference does not vanish when it is rounded, nor when it is
divided by one of them (`value_sub_div_ne_zero`). So the spread of a bound around
a mean is zero only where the two are the same number (`spread_cases`).
-/

namespace WorstCase.Binary64

variable {k num den n rank rank' count : Nat} {x y a b c : Binary64} {p q r : Rat}

/-! ## Neighbouring magnitudes -/

/-- A count of spacings that rounding may lead to is a magnitude, also where it is
the start of the next binade. -/
theorem unitsAt_count (hnormal : k = 0 ∨ binade ≤ count) (hbelow : count ≤ 2 * binade) :
    unitsAt (k * binade + count) = count <<< k := by
  rcases Nat.lt_or_eq_of_le hbelow with hlt | rfl
  · exact (IsCount.mk hnormal hlt).unitsAt_eq
  · have hnext : IsCount (k + 1) binade := ⟨.inr (Nat.le_refl _), by decide⟩
    have hrank : k * binade + 2 * binade = (k + 1) * binade + binade := by ring
    rw [hrank, hnext.unitsAt_eq, Nat.shiftLeft_succ_inside]

/-- Twice the middle of two neighbouring magnitudes, in the spacing of their
binade. -/
theorem middle_eq (n k den : Nat) :
    (n <<< k + (n + 1) <<< k) * den = (2 * n + 1) * den <<< k := by
  simp only [Nat.shiftLeft_eq]
  ring

/-- **What is rounded up is beyond the middle** between a magnitude and the
next, or is the middle. -/
theorem middle_le_of_lt (hden : 0 < den) (h : n < nearestRank num den) :
    (unitsAt n + unitsAt (n + 1)) * den ≤ 2 * num := by
  have hs := isSpacing_log2 (num / den)
  rw [nearestRank_eq hs] at h
  generalize Nat.log2 (num / den) - 52 = k at hs h
  have hpos := shiftLeft_pos hden k
  have hlow := hs.le_roundDiv hden
  have hhigh := hs.roundDiv_le hden
  generalize hcount : roundDiv .toEven num (den <<< k) = count at h hlow hhigh
  have hnext : unitsAt (n + 1) ≤ count <<< k := by
    rw [← unitsAt_count (or_iff_not_imp_left.mpr hlow) hhigh]
    exact unitsAt_le_unitsAt.mpr h
  by_cases hstart : k = 0 ∨ binade < count
  · -- the lesser magnitude is a count of the same spacing
    obtain ⟨pred, rfl⟩ : ∃ pred, count = pred + 1 := by
      refine Nat.exists_eq_succ_of_ne_zero ?_
      rintro rfl
      rcases hstart with rfl | hstart
      · omega
      · omega
    have hthis : unitsAt n ≤ pred <<< k := by
      rw [← unitsAt_count (hstart.imp_right Nat.le_of_lt_succ) (by omega)]
      exact unitsAt_le_unitsAt.mpr (by omega)
    calc (unitsAt n + unitsAt (n + 1)) * den
        ≤ (pred <<< k + (pred + 1) <<< k) * den := Nat.mul_le_mul_right _ (by omega)
      _ = (2 * pred + 1) * den <<< k := middle_eq pred k den
      _ ≤ 2 * num := by
        have hbeyond : pred < roundDiv .toEven num (den <<< k) := by omega
        exact ((lt_roundDiv_iff hpos).mp hbeyond).elim le_of_lt fun h => h.1.le
  · -- the greater magnitude starts the binade, which the quotient is in
    obtain ⟨hk, hle⟩ := not_or.mp hstart
    obtain rfl : count = binade := le_antisymm (not_lt.mp hle) (hlow hk)
    have hthis : unitsAt n ≤ unitsAt (n + 1) := unitsAt_le_unitsAt.mpr n.le_succ
    calc (unitsAt n + unitsAt (n + 1)) * den
        ≤ (2 * binade <<< k) * den := Nat.mul_le_mul_right _ (by omega)
      _ = 2 * (binade <<< k * den) := mul_assoc _ _ _
      _ ≤ 2 * num := Nat.mul_le_mul_left 2
        ((Nat.le_div_iff_mul_le hden).mp (hs.normal.resolve_left hk))

/-- **What is not rounded up is not beyond it.** -/
theorem le_middle_of_le (hden : 0 < den) (h : nearestRank num den ≤ n) :
    2 * num ≤ (unitsAt n + unitsAt (n + 1)) * den := by
  have hs := isSpacing_log2 (num / den)
  rw [nearestRank_eq hs] at h
  generalize Nat.log2 (num / den) - 52 = k at hs h
  have hpos := shiftLeft_pos hden k
  have hlow := hs.le_roundDiv hden
  have hhigh := hs.roundDiv_le hden
  generalize hcount : roundDiv .toEven num (den <<< k) = count at h hlow hhigh
  have hnormal : k = 0 ∨ binade ≤ count := or_iff_not_imp_left.mpr hlow
  have hthis : count <<< k ≤ unitsAt n := by
    rw [← unitsAt_count hnormal hhigh]
    exact unitsAt_le_unitsAt.mpr h
  rcases Nat.lt_or_eq_of_le hhigh with hlt | rfl
  · have hnext : (count + 1) <<< k ≤ unitsAt (n + 1) := by
      rw [← unitsAt_count (hnormal.imp_right Nat.le_succ_of_le) hlt]
      exact unitsAt_le_unitsAt.mpr (Nat.succ_le_succ h)
    calc 2 * num ≤ (2 * count + 1) * den <<< k := by
          have hnot : ¬count < roundDiv .toEven num (den <<< k) := by omega
          rw [lt_roundDiv_iff hpos, not_or, not_lt] at hnot
          exact hnot.1
      _ = (count <<< k + (count + 1) <<< k) * den := (middle_eq count k den).symm
      _ ≤ (unitsAt n + unitsAt (n + 1)) * den := Nat.mul_le_mul_right _ (by omega)
  · -- the quotient is below the next binade, where the lesser magnitude is
    have hnext : unitsAt n ≤ unitsAt (n + 1) := unitsAt_le_unitsAt.mpr n.le_succ
    calc 2 * num ≤ 2 * ((2 * binade) <<< k * den) :=
          Nat.mul_le_mul_left 2 (Nat.le_of_lt ((Nat.div_lt_iff_lt_mul hden).mp hs.below))
      _ = (2 * (2 * binade) <<< k) * den := (mul_assoc _ _ _).symm
      _ ≤ (unitsAt n + unitsAt (n + 1)) * den := Nat.mul_le_mul_right _ (by omega)

/-- A power of two is a magnitude. -/
theorem exists_unitsAt_eq_shiftLeft (k : Nat) : ∃ rank, unitsAt rank = 1 <<< k := by
  induction k with
  | zero => exact ⟨1, unitsAt_of_lt (by decide)⟩
  | succ k ih =>
    obtain ⟨rank, hrank⟩ := ih
    obtain ⟨double, -, hdouble⟩ := exists_unitsAt_eq_two_mul rank
    exact ⟨double, by rw [hdouble, hrank, Nat.shiftLeft_succ]⟩

/-- Below a magnitude of a binade after the first, the next one is half a spacing
away or more. -/
theorem unitsAt_le_of_lt (hcount : IsCount (k + 1) count) (h : rank < (k + 1) * binade + count) :
    unitsAt rank ≤ (2 * count - 1) <<< k := by
  have hnormal : binade ≤ count := hcount.normal.resolve_left k.succ_ne_zero
  have hbelow := hcount.below
  have hbinade : 0 < binade := by decide
  rcases Nat.lt_or_eq_of_le hnormal with hlt | rfl
  · have hpred := unitsAt_count (.inr (Nat.le_sub_one_of_lt hlt) : k + 1 = 0 ∨ binade ≤ count - 1)
      (by omega)
    calc unitsAt rank ≤ (count - 1) <<< (k + 1) :=
          hpred ▸ unitsAt_le_unitsAt.mpr (by omega)
      _ = (2 * (count - 1)) <<< k := Nat.shiftLeft_succ_inside _ _
      _ ≤ (2 * count - 1) <<< k := shiftLeft_le_shiftLeft (by omega) k
  · have hpred := unitsAt_count (.inr (by omega) : k = 0 ∨ binade ≤ 2 * binade - 1) (by omega)
    rw [Nat.succ_mul] at h
    exact hpred ▸ unitsAt_le_unitsAt.mpr (by omega)

/-- **Magnitudes lie apart** by no less than a part of either. -/
theorem exists_gap (h : rank < rank') :
    ∃ gap, 0 < unitsAt gap ∧ unitsAt rank + unitsAt gap ≤ unitsAt rank'
      ∧ unitsAt rank' ≤ 4 * binade * unitsAt gap := by
  obtain ⟨k, count, hcount, rfl⟩ := exists_isCount rank'
  have hbelow := hcount.below
  cases k with
  | zero =>
    have hlt : unitsAt rank < unitsAt (0 * binade + count) :=
      not_le.mp fun hle => h.not_ge (unitsAt_le_unitsAt.mp hle)
    rw [hcount.unitsAt_eq, Nat.shiftLeft_zero] at hlt ⊢
    refine ⟨1, ?_⟩
    rw [unitsAt_of_lt (show 1 < 2 * binade by decide)]
    exact ⟨Nat.one_pos, hlt, by omega⟩
  | succ k =>
    obtain ⟨gap, hgap⟩ := exists_unitsAt_eq_shiftLeft k
    have hbinade : 0 < binade := by decide
    have hnormal : binade ≤ count := hcount.normal.resolve_left k.succ_ne_zero
    refine ⟨gap, ?_⟩
    rw [hgap, hcount.unitsAt_eq, Nat.shiftLeft_succ_inside]
    refine ⟨shiftLeft_pos Nat.one_pos k, ?_, ?_⟩
    · calc unitsAt rank + 1 <<< k ≤ (2 * count - 1) <<< k + 1 <<< k :=
            Nat.add_le_add_right (unitsAt_le_of_lt hcount h) _
        _ = (2 * count) <<< k := by
            rw [Nat.shiftLeft_eq, Nat.shiftLeft_eq, Nat.shiftLeft_eq, ← Nat.add_mul,
              Nat.sub_add_cancel (by omega)]
    · rw [mul_shiftLeft, mul_one]
      exact shiftLeft_le_shiftLeft (by omega) k

/-! ## The nearest number -/

/-- Of two numbers, the one on whose side of the middle a third is has the lesser
distance from it. -/
theorem abs_sub_le_abs_sub (h : p ≤ q ∧ p + q ≤ 2 * r ∨ q ≤ p ∧ 2 * r ≤ p + q) :
    |q - r| ≤ |p - r| := by
  rcases h with ⟨hle, hmiddle⟩ | ⟨hle, hmiddle⟩
  · rw [abs_of_nonpos (show p - r ≤ 0 by linarith), abs_le]
    exact ⟨by linarith, by linarith⟩
  · rw [abs_of_nonneg (show 0 ≤ p - r by linarith), abs_le]
    exact ⟨by linarith, by linarith⟩

section Magnitude

variable (hq : 0 ≤ q)

include hq

theorem natAbs_num_eq : (q.num.natAbs : Rat) = q * q.den := by
  rw [← div_eq_iff (Nat.cast_ne_zero.mpr q.den_nz), ← abs_eq_natAbs_div_den, abs_of_nonneg hq]

theorem middle_le_of_lt_rankOf (h : n < rankOf q) :
    (unitsAt n + unitsAt (n + 1) : Rat) ≤ 2 * (q * unitsPerOne) := by
  have hmiddle := middle_le_of_lt q.den_pos (h.trans_le (min_le_left _ _))
  refine le_of_mul_le_mul_right ?_ (Nat.cast_pos.mpr q.den_pos)
  calc (unitsAt n + unitsAt (n + 1) : Rat) * q.den
      ≤ 2 * (q.num.natAbs * unitsPerOne) := by exact_mod_cast hmiddle
    _ = 2 * (q * unitsPerOne) * q.den := by rw [natAbs_num_eq hq]; ring

theorem le_middle_of_rankOf_le (h : rankOf q ≤ n) (hn : n < infinityRank) :
    2 * (q * unitsPerOne) ≤ (unitsAt n + unitsAt (n + 1) : Rat) := by
  have hrank : nearestRank (q.num.natAbs * unitsPerOne) q.den ≤ n :=
    (min_le_iff.mp h).resolve_right hn.not_ge
  have hmiddle := le_middle_of_le q.den_pos hrank
  refine le_of_mul_le_mul_right ?_ (Nat.cast_pos.mpr q.den_pos)
  calc 2 * (q * unitsPerOne) * q.den = 2 * (q.num.natAbs * unitsPerOne) := by
        rw [natAbs_num_eq hq]; ring
    _ ≤ (unitsAt n + unitsAt (n + 1) : Rat) * q.den := by exact_mod_cast hmiddle

/-- **The magnitude that a rational is rounded to is as near as any.** -/
theorem abs_sub_rankOf_le (hrank : rank ≤ infinityRank) :
    |(unitsAt (rankOf q) / unitsPerOne : Rat) - q| ≤ |(unitsAt rank / unitsPerOne : Rat) - q| := by
  have hcast {m n : Nat} (h : m ≤ n) : (unitsAt m : Rat) ≤ unitsAt n :=
    Nat.cast_le.mpr (unitsAt_le_unitsAt.mpr h)
  have hunits (m : Nat) : (unitsAt m / unitsPerOne : Rat) - q
      = (unitsAt m - q * unitsPerOne) / unitsPerOne := by
    rw [sub_div, mul_div_cancel_right₀ _ unitsPerOne_pos.ne']
  rw [hunits, hunits, abs_div, abs_div]
  refine div_le_div_of_nonneg_right (abs_sub_le_abs_sub ?_) (abs_nonneg _)
  rcases lt_trichotomy rank (rankOf q) with hlt | rfl | hgt
  · obtain ⟨pred, hpred⟩ := Nat.exists_eq_succ_of_ne_zero hlt.ne_bot
    have hmiddle := middle_le_of_lt_rankOf hq (hpred ▸ pred.lt_succ_self)
    rw [← Nat.succ_eq_add_one, ← hpred] at hmiddle
    have hle := hcast (Nat.le_of_lt_succ (hpred ▸ hlt))
    exact .inl ⟨hcast hlt.le, by linarith⟩
  · rcases le_total (unitsAt (rankOf q) : Rat) (q * unitsPerOne) with h | h
    · exact .inl ⟨le_rfl, by linarith⟩
    · exact .inr ⟨le_rfl, by linarith⟩
  · have hmiddle := le_middle_of_rankOf_le hq le_rfl (hgt.trans_le hrank)
    have hle := hcast (Nat.succ_le_of_lt hgt)
    exact .inr ⟨hcast hgt.le, by linarith⟩

end Magnitude

/-- The magnitude of a number is that of a rank. -/
theorem exists_abs_value_eq (x : Binary64) :
    ∃ rank ≤ infinityRank, |x.value| = unitsAt rank / unitsPerOne := by
  rw [← value_abs]
  cases x with
  | nan => exact ⟨0, Nat.zero_le _, by simp [abs, value, unitsAt_eq_zero.mpr]⟩
  | signed negative rank hrank => exact ⟨rank, hrank, rfl⟩

/-- **A nearest number is as near as any number.** -/
theorem IsNearest.abs_sub_le (hx : x.IsNearest q) (y : Binary64) :
    |x.value - q| ≤ |y.value - q| := by
  have hnonneg {q : Rat} (hq : 0 ≤ q) (y : Binary64) : |rounded q - q| ≤ |y.value - q| := by
    obtain ⟨rank, hrank, hy⟩ := exists_abs_value_eq y
    calc |rounded q - q| ≤ |(|y.value| - q)| := by
          rw [rounded_of_nonneg hq, hy]
          exact abs_sub_rankOf_le hq hrank
      _ ≤ |y.value - q| := by
          conv_lhs => rw [← abs_of_nonneg hq]
          exact abs_abs_sub_abs_le y.value q
  rw [hx.value]
  rcases le_total 0 q with hq | hq
  · exact hnonneg hq y
  · have h := hnonneg (neg_nonneg.mpr hq) (-y)
    rwa [rounded_neg, value_neg, ← neg_sub', ← neg_sub', abs_neg, abs_neg] at h

/-- A rational that another number is nearer to is not what it is rounded to. -/
theorem IsNearest.value_ne (hx : x.IsNearest r) (c : Binary64) (h : |c.value - r| < |q - r|) :
    x.value ≠ q := by
  rintro rfl
  exact (hx.abs_sub_le c).not_gt h

/-- What is at least a number in magnitude is rounded to what is. -/
theorem IsNearest.le_abs_value (hx : x.IsNearest q) (hy : y.isNaN = false) (h : y.value ≤ |q|) :
    y.value ≤ |x.value| := by
  have hnum := isNearest_value hy
  rcases abs_choice q with hq | hq
  · exact (hnum.value_le_value hx (hq ▸ h)).trans (le_abs_self _)
  · have hle := hnum.value_le_value hx.neg (hq ▸ h)
    rw [value_neg] at hle
    exact hle.trans (neg_le_abs _)

/-! ## The middle -/

@[simp] theorem isNaN_abs (x : Binary64) : (abs x).isNaN = x.isNaN := by
  cases x <;> rfl

/-- In the first two binades, ranks are units. -/
theorem value_signed_of_lt (hrank : rank < 2 * binade) (hle : rank ≤ infinityRank) :
    (signed false rank hle).value = rank / unitsPerOne := by
  show ((unitsAt rank : Int) : Rat) / unitsPerOne = _
  rw [unitsAt_of_lt hrank, Int.cast_natCast]

/-- In the first two binades the numbers are the whole numbers of units. -/
theorem exists_value_eq_units {units : Int} (h : units.natAbs < 2 * binade) :
    ∃ x : Binary64, x.isFinite = true ∧ x.value = units / unitsPerOne := by
  have hbinade : 2 * binade < infinityRank := by decide
  refine ⟨signed (decide (units < 0)) units.natAbs (by omega), decide_eq_true (by omega), ?_⟩
  have hself : signedUnits (decide (units < 0)) units.natAbs = units := by
    rw [signedUnits, unitsAt_of_lt h]
    split <;> rename_i hneg <;> rw [decide_eq_true_iff] at hneg <;> omega
  rw [value, hself]

/-- What is rounded to a number in the first two binades has fewer units than these
binades. -/
theorem IsNearest.natAbs_lt {units : Int} (hx : x.IsNearest (units / unitsPerOne))
    (h : abs x < leastNormal * ofRat 2) : units.natAbs < 2 * binade := by
  have hstart : unitsAt (2 * binade) = 2 * binade := by decide
  by_contra hbeyond
  refine (lt_iff.mp h).2.2.not_ge ?_
  rw [value_abs, leastNormal_mul_two]
  refine hx.le_abs_value rfl ?_
  show ((unitsAt (2 * binade) : Int) : Rat) / unitsPerOne ≤ _
  rw [hstart, abs_div, abs_of_pos unitsPerOne_pos, ← Int.cast_abs, Int.abs_eq_natAbs,
    div_le_div_iff_of_pos_right unitsPerOne_pos, Int.cast_le]
  omega

/-- So a sum that is there is exact. -/
theorem value_add_of_abs_lt (ha : a.isFinite = true) (hb : b.isFinite = true)
    (h : abs (a + b) < leastNormal * ofRat 2) :
    (a + b).isFinite = true ∧ (a + b).value = a.value + b.value := by
  obtain ⟨n, r, hr, rfl, -⟩ := exists_of_isFinite ha
  obtain ⟨m, s, hs, rfl, -⟩ := exists_of_isFinite hb
  have hnearest := isNearest_add ha hb
  have hunits : value (signed n r hr) + value (signed m s hs)
      = (signedUnits n r + signedUnits m s : Int) / unitsPerOne := by
    rw [value, value, ← add_div, Int.cast_add]
  rw [hunits] at hnearest ⊢
  obtain ⟨c, hc, hvalue⟩ := exists_value_eq_units (hnearest.natAbs_lt h)
  rw [← hvalue] at hnearest ⊢
  exact hnearest.eq_value hc

/-- Below a number and beyond the middle between the two, one is nearer to it. -/
theorem abs_sub_lt_abs_sub (hlt : p < q) (hmiddle : 2 * r < p + q) : |p - r| < |q - r| := by
  rw [abs_of_pos (show 0 < q - r by linarith), abs_lt]
  exact ⟨by linarith, by linarith⟩

section Strict

variable (ha : a.isFinite = true) (hb : b.isFinite = true) (hac : a < c) (hcb : c < b)

include ha hb hac hcb

/-- Where the sum is halved exactly, it would be twice the upper number, but twice
the number in between is nearer to it. Where it is not, it is exact itself. -/
theorem half_sum_ne (hahalf : abs a ≤ greatest / ofRat 2) (hbhalf : abs b ≤ greatest / ofRat 2) :
    ((a + b) / ofRat 2).value ≠ b.value := by
  obtain ⟨hanum, hcnum, hac⟩ := lt_iff.mp hac
  obtain ⟨-, hbnum, hcb⟩ := lt_iff.mp hcb
  by_cases hsmall : abs (a + b) < leastNormal * ofRat 2
  · obtain ⟨hfinite, hsum⟩ := value_add_of_abs_lt ha hb hsmall
    have hhalf := isNearest_div_two hfinite
    rw [hsum] at hhalf
    exact hhalf.value_ne c (abs_sub_lt_abs_sub hcb (by linarith))
  · have hle : a ≤ b := le_iff.mpr ⟨hanum, hbnum, (hac.trans hcb).le⟩
    obtain ⟨hfinite, -⟩ := value_add_mem ha hb hle hahalf hbhalf
    have hchalf : abs c ≤ greatest / ofRat 2 := by
      rw [le_iff, isNaN_abs, value_abs] at hahalf hbhalf ⊢
      exact ⟨hcnum, hahalf.2.1,
        (abs_le_max_abs_abs hac.le hcb.le).trans (max_le hahalf.2.2 hbhalf.2.2)⟩
    obtain ⟨double, -, hdouble⟩ := exists_value_eq_two_mul hchalf
    rw [(value_div_two hfinite hsmall).2]
    intro hupper
    refine (isNearest_add ha hb).value_ne double (q := 2 * b.value) ?_ (by linarith)
    exact abs_sub_lt_abs_sub (by linarith) (by linarith)

/-- A large upper bound has its half nearer to the sum. -/
theorem add_half_ne (hsmall : abs a < leastNormal * ofRat 2)
    (hhalves : ¬(abs a ≤ greatest / ofRat 2 ∧ abs b ≤ greatest / ofRat 2)) :
    (a + b / ofRat 2).value ≠ b.value := by
  have hle := ((lt_iff.mp hac).2.2.trans (lt_iff.mp hcb).2.2).le
  obtain ⟨hlarge, hless⟩ := four_mul_abs_value_lt hb hsmall hhalves
  obtain ⟨hfinite, hhalf⟩ := value_div_two hb hlarge
  have hpos := four_mul_abs_lt hle hless
  have hnonneg := abs_nonneg a.value
  have habs := le_abs_self a.value
  refine (isNearest_add ha hfinite).value_ne (b / ofRat 2) ?_
  exact abs_sub_lt_abs_sub (by linarith) (by linarith)

/-- So has a large lower bound. -/
theorem half_add_ne (hsmall : abs b < leastNormal * ofRat 2)
    (hhalves : ¬(abs a ≤ greatest / ofRat 2 ∧ abs b ≤ greatest / ofRat 2)) :
    (a / ofRat 2 + b).value ≠ b.value := by
  have hle := ((lt_iff.mp hac).2.2.trans (lt_iff.mp hcb).2.2).le
  obtain ⟨hlarge, hless⟩ := four_mul_abs_value_lt ha hsmall fun hboth => hhalves hboth.symm
  obtain ⟨hfinite, hhalf⟩ := value_div_two ha hlarge
  rw [← abs_neg b.value, ← abs_neg a.value] at hless
  have hneg := four_mul_abs_lt (neg_le_neg hle) hless
  have hnonneg := abs_nonneg (-b.value)
  have habs := le_abs_self (-b.value)
  have habs' := neg_abs_le (-b.value)
  refine (isNearest_add hfinite hb).value_ne (a / ofRat 2) ?_
  exact abs_sub_lt_abs_sub (by linarith) (by linarith)

/-- Other bounds are halved exactly. -/
theorem half_add_half_ne (halarge : ¬abs a < leastNormal * ofRat 2)
    (hblarge : ¬abs b < leastNormal * ofRat 2) :
    (a / ofRat 2 + b / ofRat 2).value ≠ b.value := by
  have hac := (lt_iff.mp hac).2.2
  have hcb := (lt_iff.mp hcb).2.2
  obtain ⟨hafinite, hahalf⟩ := value_div_two ha halarge
  obtain ⟨hbfinite, hbhalf⟩ := value_div_two hb hblarge
  refine (isNearest_add hafinite hbfinite).value_ne c ?_
  exact abs_sub_lt_abs_sub hcb (by linarith)

/-- **The middle of two numbers is not the upper one** where a number lies
strictly between them. -/
theorem midpoint_ne : (midpoint a b).value ≠ b.value := by
  refine midpoint_cases (P := fun m => m.value ≠ b.value) ?_ ?_ ?_ ?_
  · exact half_sum_ne ha hb hac hcb
  · exact add_half_ne ha hb hac hcb
  · exact half_add_ne ha hb hac hcb
  · exact half_add_half_ne ha hb hac hcb

end Strict

/-! ## Numbers lie apart -/

/-- A positive number by which two numbers lie apart, and that is not too small a
part of the second one. -/
structure IsGap (gap x y : Binary64) : Prop where
  isNaN : gap.isNaN = false
  pos : 0 < gap.value
  le_distance : gap.value ≤ |x.value - y.value|
  le_mul : |y.value| ≤ 4 * binade * gap.value

theorem exists_isGap_of_abs_lt (h : |x.value| < |y.value|) : ∃ gap, IsGap gap x y := by
  obtain ⟨rank, -, hx⟩ := exists_abs_value_eq x
  obtain ⟨rank', hrank', hy⟩ := exists_abs_value_eq y
  rw [hx, hy, div_lt_div_iff_of_pos_right unitsPerOne_pos, Nat.cast_lt] at h
  have hlt : rank < rank' := not_le.mp fun hle => h.not_ge (unitsAt_le_unitsAt.mpr hle)
  obtain ⟨gap, hpos, hgap, hle⟩ := exists_gap hlt
  have hinfinity : gap ≤ infinityRank := (unitsAt_le_unitsAt.mp (by omega)).trans hrank'
  have hvalue : (signed false gap hinfinity).value = unitsAt gap / unitsPerOne := rfl
  refine ⟨signed false gap hinfinity, rfl, ?_, ?_, ?_⟩
  · rw [hvalue]
    exact div_pos (Nat.cast_pos.mpr hpos) unitsPerOne_pos
  · have hgap : (unitsAt rank + unitsAt gap : Rat) ≤ unitsAt rank' := by exact_mod_cast hgap
    calc (signed false gap hinfinity).value ≤ |y.value| - |x.value| := by
          rw [hvalue, hx, hy, ← sub_div]
          exact div_le_div_of_nonneg_right (by linarith) unitsPerOne_pos.le
      _ ≤ |y.value - x.value| := abs_sub_abs_le_abs_sub _ _
      _ = |x.value - y.value| := abs_sub_comm _ _
  · rw [hvalue, hy, ← mul_div_assoc]
    refine div_le_div_of_nonneg_right ?_ unitsPerOne_pos.le
    exact_mod_cast hle

/-- **Numbers that differ lie apart** by no less than a part of either. -/
theorem exists_isGap (hy : y.isNaN = false) (h : x.value ≠ y.value) :
    ∃ gap, IsGap gap x y := by
  rcases lt_trichotomy |x.value| |y.value| with hlt | heq | hgt
  · exact exists_isGap_of_abs_lt hlt
  · -- opposite numbers are further apart than either is from zero
    have hopposite : x.value = -y.value := (abs_eq_abs.mp heq).resolve_left h
    have hpos : 0 < |y.value| := by
      refine abs_pos.mpr fun hzero => h ?_
      rw [hopposite, hzero, neg_zero]
    have hbinade : (1 : Rat) ≤ 4 * binade := by
      have hnat : 1 ≤ 4 * binade := by decide
      exact_mod_cast hnat
    have hdistance : |x.value - y.value| = 2 * |y.value| := by
      rw [hopposite, ← neg_add', abs_neg, ← two_mul, abs_mul, abs_two]
    have habs := value_abs y
    refine ⟨abs y, (isNaN_abs y).trans hy, habs ▸ hpos, ?_, ?_⟩
    · rw [habs, hdistance]
      linarith
    · rw [habs]
      exact le_mul_of_one_le_left hpos.le hbinade
  · obtain ⟨gap, hgap⟩ := exists_isGap_of_abs_lt hgt
    exact ⟨gap, hgap.isNaN, hgap.pos, abs_sub_comm x.value y.value ▸ hgap.le_distance,
      hgt.le.trans hgap.le_mul⟩

/-- Zero is not rounded. -/
theorem IsNearest.value_eq_zero (hx : x.IsNearest 0) : x.value = 0 := by
  rw [← value_zero] at hx ⊢
  exact (hx.eq_value rfl).2

/-- **A difference is zero only of like numbers**, however close they are. -/
theorem value_sub_eq_zero (hx : x.isFinite = true) (hy : y.isFinite = true) :
    (x - y).value = 0 ↔ x.value = y.value := by
  have hnearest := isNearest_sub hx hy
  constructor
  · intro hzero
    by_contra hne
    obtain ⟨gap, hgap⟩ := exists_isGap (isNaN_of_isFinite hy) hne
    have hle := hnearest.le_abs_value hgap.isNaN hgap.le_distance
    rw [hzero, abs_zero] at hle
    exact hle.not_gt hgap.pos
  · intro heq
    rw [heq, sub_self] at hnearest
    exact hnearest.value_eq_zero

/-- **A difference of numbers, divided by one of them, does not vanish.** -/
theorem value_sub_div_ne_zero (hx : x.isFinite = true) (hy : y.isFinite = true)
    (hdiff : (x - y).isFinite = true) (hzero : y.value ≠ 0) (h : x.value ≠ y.value) :
    ((x - y) / y).value ≠ 0 := by
  obtain ⟨gap, hgap⟩ := exists_isGap (isNaN_of_isFinite hy) h
  have hfar := (isNearest_sub hx hy).le_abs_value hgap.isNaN hgap.le_distance
  have hone : (1 : Nat) < 2 * binade := by decide
  have hleast := value_signed_of_lt hone (by decide)
  have hunits : (4 * binade : Rat) ≤ unitsPerOne := by
    have hnat : 4 * binade ≤ unitsPerOne := by decide
    exact_mod_cast hnat
  have hquotient : (signed false 1 (by decide)).value ≤ |((x - y) / y).value| := by
    refine (isNearest_div hdiff hy hzero).le_abs_value rfl ?_
    rw [hleast, Nat.cast_one, abs_div, div_le_div_iff₀ unitsPerOne_pos (abs_pos.mpr hzero), one_mul]
    calc |y.value| ≤ 4 * binade * gap.value := hgap.le_mul
      _ ≤ unitsPerOne * gap.value := mul_le_mul_of_nonneg_right hunits hgap.pos.le
      _ ≤ |(x - y).value| * unitsPerOne := by
        rw [mul_comm]
        exact mul_le_mul_of_nonneg_right hfar unitsPerOne_pos.le
  rw [hleast, Nat.cast_one] at hquotient
  exact abs_pos.mp ((one_div_pos.mpr unitsPerOne_pos).trans_le hquotient)

/-! ## Spreads -/

/-- Only the zeros have the value zero. -/
theorem value_eq_zero (hx : x.isNaN = false) : x.value = 0 ↔ x.isZero = true := by
  cases x with
  | nan => cases hx
  | signed n r hr =>
    rw [value, div_eq_zero_iff, or_iff_left unitsPerOne_pos.ne', isZero, beq_iff_eq]
    cases n <;> simp [signedUnits, unitsAt_eq_zero]

/-- **What the magnitude of a quotient may be**: none of zero by zero, infinite, or
nearest to the exact one. -/
theorem abs_div_cases (hx : x.isNaN = false) (hy : y.isFinite = true) :
    x.value = 0 ∧ y.value = 0 ∧ abs (x / y) = nan
      ∨ abs (x / y) = infinity false
      ∨ x.isFinite = true ∧ y.value ≠ 0 := by
  rw [value_eq_zero hx, Ne, value_eq_zero (isNaN_of_isFinite hy)]
  obtain ⟨m, s, hs, rfl, hs'⟩ := exists_of_isFinite hy
  cases x with
  | nan => cases hx
  | signed n r hr =>
    show _ ∧ _ ∧ abs (div _ _) = _ ∨ abs (div _ _) = _ ∨ _
    by_cases hinfinite : r = infinityRank
    · rw [div, if_pos hinfinite, if_neg hs']
      exact .inr (.inl rfl)
    · rw [div, if_neg hinfinite, if_neg hs']
      by_cases hs0 : s = 0
      · by_cases hr0 : r = 0
        · rw [if_pos hs0, if_pos hr0]
          exact .inl ⟨beq_iff_eq.mpr hr0, beq_iff_eq.mpr hs0, rfl⟩
        · rw [if_pos hs0, if_neg hr0]
          exact .inr (.inl rfl)
      · exact .inr (.inr ⟨decide_eq_true (lt_of_le_of_ne hr hinfinite),
          fun hzero => hs0 (beq_iff_eq.mp hzero)⟩)

/-- **The spread of a number around another one**, as a fraction of that, unless it
is above 100 %. Where both are zero there is none. -/
theorem spread_cases (hx : x.isFinite = true) (hy : y.isFinite = true)
    (hwide : ¬1 < abs ((x - y) / y)) :
    x.value = 0 ∧ y.value = 0 ∧ abs ((x - y) / y) = nan
      ∨ y.value ≠ 0 ∧ (abs ((x - y) / y)).isNaN = false
        ∧ ((abs ((x - y) / y)).value = 0 ↔ y.value = x.value) := by
  have hdiff := isNearest_sub hx hy
  rcases abs_div_cases hdiff.isNaN hy with ⟨hzero, hy0, hnan⟩ | hinfinite | ⟨hfinite, hy0⟩
  · exact .inl ⟨((value_sub_eq_zero hx hy).mp hzero).trans hy0, hy0, hnan⟩
  · rw [hinfinite] at hwide
    exact absurd (show (1 : Binary64) < infinity false by decide) hwide
  · have hquotient := isNearest_div hfinite hy hy0
    rw [isNaN_abs, value_abs, abs_eq_zero]
    refine .inr ⟨hy0, hquotient.isNaN, fun hzero => ?_, fun heq => ?_⟩
    · by_contra hne
      exact value_sub_div_ne_zero hx hy hfinite hy0 (Ne.symm hne) hzero
    · rw [(value_sub_eq_zero hx hy).mpr heq.symm, zero_div] at hquotient
      exact hquotient.value_eq_zero

end WorstCase.Binary64
