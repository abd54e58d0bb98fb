import WorstCase.Proofs.Binary64.Value

/-!
# Results that stay between numbers

A rounded result may leave the place of the exact one, but not pass a number on
its way: what lies between two numbers is rounded to a number between them
(`IsNearest.mem`). So a computed mean lies within the bounds it was computed
from, and computed bounds lie on the two sides of their mean.

The mean asks for more than that, since its sum or its halves might be out of
range. `midpoint` halves first where the sum might overflow, and halving loses
digits only below `2 * leastNormal`; above it, and for doubling up to half of
`greatest`, the result is a number already (`value_div_two`,
`exists_value_eq_two_mul`).
-/

namespace WorstCase.Binary64

variable {x y a b c d : Binary64} {p q : Rat}

/-- **What lies between two numbers is rounded to a number between them.** -/
theorem IsNearest.mem (hx : x.IsNearest q) (ha : a.isNaN = false) (hb : b.isNaN = false)
    (haq : a.value ≤ q) (hqb : q ≤ b.value) : a ≤ x ∧ x ≤ b :=
  ⟨(isNearest_value ha).le hx haq, hx.le (isNearest_value hb) hqb⟩

/-- A finite number is what is nearest to its value. -/
theorem IsNearest.eq_value (hx : x.IsNearest y.value) (hy : y.isFinite = true) :
    x.isFinite = true ∧ x.value = y.value := by
  have hnum := isNaN_of_isFinite hy
  obtain ⟨hle, hge⟩ := hx.mem hnum hnum le_rfl le_rfl
  exact ⟨isFinite_of_mem hy hy hle hge, le_antisymm (le_iff.mp hge).2.2 (le_iff.mp hle).2.2⟩

/-! ## Doubling and halving -/

/-- A whole number that is the value of a number is not rounded. -/
theorem ofRat_natCast (rank n : Nat) (hrank : rank < infinityRank)
    (h : unitsAt rank = n * unitsPerOne) : (ofRat n).isFinite = true ∧ (ofRat n).value = n := by
  have hvalue : (signed false rank hrank.le).value = n := by
    show ((unitsAt rank : Int) : Rat) / unitsPerOne = n
    rw [h, Int.cast_natCast, Nat.cast_mul, mul_div_cancel_right₀ _ unitsPerOne_pos.ne']
  have hnearest : (ofRat n).IsNearest (signed false rank hrank.le).value := by
    rw [hvalue]
    exact ⟨rfl, rfl⟩
  obtain ⟨hfinite, heq⟩ := hnearest.eq_value (decide_eq_true hrank)
  exact ⟨hfinite, heq.trans hvalue⟩

theorem isFinite_two : (ofRat 2).isFinite = true := by
  exact_mod_cast (ofRat_natCast 0x4000000000000000 2 (by decide) (by decide)).1

theorem value_two : (ofRat 2).value = 2 := by
  exact_mod_cast (ofRat_natCast 0x4000000000000000 2 (by decide) (by decide)).2

theorem isFinite_four : (ofRat 4).isFinite = true := by
  exact_mod_cast (ofRat_natCast 0x4010000000000000 4 (by decide) (by decide)).1

theorem value_four : (ofRat 4).value = 4 := by
  exact_mod_cast (ofRat_natCast 0x4010000000000000 4 (by decide) (by decide)).2

theorem isNearest_div_two (hx : x.isFinite = true) : (x / ofRat 2).IsNearest (x.value / 2) := by
  have hnearest := isNearest_div hx isFinite_two (by rw [value_two]; exact two_ne_zero)
  rwa [value_two] at hnearest

theorem signed_le_signed {r s : Nat} {hr : r ≤ infinityRank} {hs : s ≤ infinityRank} :
    signed false r hr ≤ signed false s hs ↔ r ≤ s := by
  show decide (place false r ≤ place false s) = true ↔ _
  simp [place]

theorem signed_lt_signed {r s : Nat} {hr : r ≤ infinityRank} {hs : s ≤ infinityRank} :
    signed false r hr < signed false s hs ↔ r < s := by
  show decide (place false r < place false s) = true ↔ _
  simp [place]

theorem greatest_div_two :
    greatest / ofRat 2 = signed false (infinityRank - 1 - binade) (by decide) := by
  decide +kernel

theorem leastNormal_mul_two :
    leastNormal * ofRat 2 = signed false (2 * binade) (by decide) := by
  decide +kernel

theorem value_eq_two_mul {negative : Bool} {rank double : Nat} {hrank : rank ≤ infinityRank}
    {hdouble : double ≤ infinityRank} (h : unitsAt double = 2 * unitsAt rank) :
    (signed negative double hdouble).value = 2 * (signed negative rank hrank).value := by
  rw [value, value, ← mul_div_assoc]
  cases negative <;> simp [signedUnits, h]

/-- **What is at most half the greatest number has a double.** -/
theorem exists_value_eq_two_mul (h : abs x ≤ greatest / ofRat 2) :
    ∃ y : Binary64, y.isFinite = true ∧ y.value = 2 * x.value := by
  rw [greatest_div_two] at h
  cases x with
  | nan => cases (le_iff.mp h).1
  | signed n r hr =>
    have hbinade : binade < infinityRank := by decide
    have hrank : r ≤ infinityRank - 1 - binade := signed_le_signed.mp h
    obtain ⟨double, hle, hdouble⟩ := exists_unitsAt_eq_two_mul r
    exact ⟨.signed n double (by omega), decide_eq_true (by omega), value_eq_two_mul hdouble⟩

/-- **Halving a number of full precision loses nothing**, unless the half has
less of it. -/
theorem value_div_two (hx : x.isFinite = true) (h : ¬abs x < leastNormal * ofRat 2) :
    (x / ofRat 2).isFinite = true ∧ (x / ofRat 2).value = x.value / 2 := by
  rw [leastNormal_mul_two] at h
  obtain ⟨n, r, hr, rfl, hr'⟩ := exists_of_isFinite hx
  have hrank : 2 * binade ≤ r := not_lt.mp fun hlt => h (signed_lt_signed.mpr hlt)
  obtain ⟨half, rfl⟩ := Nat.exists_eq_add_of_le' (show binade ≤ r by omega)
  have hhalf : half ≤ infinityRank := by omega
  have hdouble : unitsAt (half + binade) = 2 * unitsAt half := unitsAt_add_binade (by omega)
  have hvalue : (signed n (half + binade) hr).value = 2 * (signed n half hhalf).value :=
    value_eq_two_mul hdouble
  have hnearest := isNearest_div_two hx
  rw [hvalue, mul_div_cancel_left₀ _ two_ne_zero] at hnearest
  rw [hvalue, mul_div_cancel_left₀ _ two_ne_zero]
  exact hnearest.eq_value (decide_eq_true (by omega))

/-! ## The middle -/

/-- Where halving one of two numbers would lose digits and doubling one of them
would overflow, the other one is not small and more than four times as great. -/
theorem four_mul_abs_value_lt (hy : y.isFinite = true) (hx : abs x < leastNormal * ofRat 2)
    (h : ¬(abs x ≤ greatest / ofRat 2 ∧ abs y ≤ greatest / ofRat 2)) :
    ¬abs y < leastNormal * ofRat 2 ∧ 4 * |x.value| < |y.value| := by
  have hratio : 4 * (leastNormal * ofRat 2).value ≤ (greatest / ofRat 2).value := by
    have htriple : (signed false (3 * binade) (by decide)).value
      = 2 * (signed false (2 * binade) (by decide)).value := value_eq_two_mul (by decide)
    have hquadruple : (signed false (4 * binade) (by decide)).value
      = 2 * (signed false (3 * binade) (by decide)).value := value_eq_two_mul (by decide)
    have hle : signed false (4 * binade) (by decide) ≤ greatest / ofRat 2 := by
      rw [greatest_div_two]
      exact signed_le_signed.mpr (by decide)
    have hle := (le_iff.mp hle).2.2
    rw [leastNormal_mul_two]
    linarith
  have hsmall := (lt_iff.mp hx).2.2
  rw [value_abs] at hsmall
  have hnonneg := abs_nonneg x.value
  have hhalf : abs x ≤ greatest / ofRat 2 := by
    rw [le_iff, value_abs]
    exact ⟨(lt_iff.mp hx).1, by rw [greatest_div_two]; rfl, by linarith⟩
  have hlarge : (greatest / ofRat 2).value < |y.value| := by
    refine lt_of_not_ge fun hle => h ⟨hhalf, ?_⟩
    rw [le_iff, value_abs]
    obtain ⟨n, r, hr, rfl, -⟩ := exists_of_isFinite hy
    exact ⟨rfl, by rw [greatest_div_two]; rfl, hle⟩
  refine ⟨fun hlt => ?_, by linarith⟩
  have hlt := (lt_iff.mp hlt).2.2
  rw [value_abs] at hlt
  linarith

/-- Of two numbers in order, the greater one is positive if its magnitude is
greater. -/
theorem four_mul_abs_lt (hle : p ≤ q) (h : 4 * |p| < |q|) : 4 * |p| < q := by
  have hp := abs_nonneg p
  have hneg := neg_abs_le p
  rcases abs_choice q with hq | hq <;> rw [hq] at h <;> linarith

/-- **The four ways to compute the middle**, and when each of them is taken. -/
theorem midpoint_cases {P : Binary64 → Prop}
    (half_sum : abs a ≤ greatest / ofRat 2 → abs b ≤ greatest / ofRat 2 → P ((a + b) / ofRat 2))
    (add_half : abs a < leastNormal * ofRat 2
      → ¬(abs a ≤ greatest / ofRat 2 ∧ abs b ≤ greatest / ofRat 2) → P (a + b / ofRat 2))
    (half_add : abs b < leastNormal * ofRat 2
      → ¬(abs a ≤ greatest / ofRat 2 ∧ abs b ≤ greatest / ofRat 2) → P (a / ofRat 2 + b))
    (half_add_half : ¬abs a < leastNormal * ofRat 2 → ¬abs b < leastNormal * ofRat 2
      → P (a / ofRat 2 + b / ofRat 2)) : P (midpoint a b) := by
  unfold midpoint
  dsimp only
  split
  · rename_i hhalves
    exact half_sum hhalves.1 hhalves.2
  · rename_i hhalves
    split
    · rename_i hsmall
      exact add_half hsmall hhalves
    · rename_i halarge
      split
      · rename_i hsmall
        exact half_add hsmall hhalves
      · rename_i hblarge
        exact half_add_half halarge hblarge

section Middle

variable (ha : a.isFinite = true) (hb : b.isFinite = true) (h : a ≤ b)

include ha hb h

/-- The sum of two numbers that have doubles lies between the doubles, and so is
in range. -/
theorem value_add_mem (hahalf : abs a ≤ greatest / ofRat 2) (hbhalf : abs b ≤ greatest / ofRat 2) :
    (a + b).isFinite = true ∧ 2 * a.value ≤ (a + b).value ∧ (a + b).value ≤ 2 * b.value := by
  have hle := (le_iff.mp h).2.2
  obtain ⟨c, hc, hca⟩ := exists_value_eq_two_mul hahalf
  obtain ⟨d, hd, hdb⟩ := exists_value_eq_two_mul hbhalf
  obtain ⟨hlow, hhigh⟩ := (isNearest_add ha hb).mem (isNaN_of_isFinite hc)
    (isNaN_of_isFinite hd) (by linarith) (by linarith)
  exact ⟨isFinite_of_mem hc hd hlow hhigh, hca ▸ (le_iff.mp hlow).2.2, hdb ▸ (le_iff.mp hhigh).2.2⟩

/-- So is its half between the numbers. -/
theorem half_sum_mem (hahalf : abs a ≤ greatest / ofRat 2) (hbhalf : abs b ≤ greatest / ofRat 2) :
    a ≤ (a + b) / ofRat 2 ∧ (a + b) / ofRat 2 ≤ b := by
  obtain ⟨hanum, hbnum, -⟩ := le_iff.mp h
  obtain ⟨hsum, hlow, hhigh⟩ := value_add_mem ha hb h hahalf hbhalf
  exact (isNearest_div_two hsum).mem hanum hbnum (by linarith) (by linarith)

/-- A lower bound too small to be halved is added as it is. -/
theorem add_half_mem (hsmall : abs a < leastNormal * ofRat 2)
    (hhalves : ¬(abs a ≤ greatest / ofRat 2 ∧ abs b ≤ greatest / ofRat 2)) :
    a ≤ a + b / ofRat 2 ∧ a + b / ofRat 2 ≤ b := by
  obtain ⟨hanum, hbnum, hle⟩ := le_iff.mp h
  obtain ⟨hlarge, hless⟩ := four_mul_abs_value_lt hb hsmall hhalves
  obtain ⟨hfinite, hhalf⟩ := value_div_two hb hlarge
  have hpos := four_mul_abs_lt hle hless
  have hnonneg := abs_nonneg a.value
  have habs := le_abs_self a.value
  exact (isNearest_add ha hfinite).mem hanum hbnum (by linarith) (by linarith)

/-- So is an upper bound. -/
theorem half_add_mem (hsmall : abs b < leastNormal * ofRat 2)
    (hhalves : ¬(abs a ≤ greatest / ofRat 2 ∧ abs b ≤ greatest / ofRat 2)) :
    a ≤ a / ofRat 2 + b ∧ a / ofRat 2 + b ≤ b := by
  obtain ⟨hanum, hbnum, hle⟩ := le_iff.mp h
  obtain ⟨hlarge, hless⟩ := four_mul_abs_value_lt ha hsmall fun hboth => hhalves hboth.symm
  obtain ⟨hfinite, hhalf⟩ := value_div_two ha hlarge
  rw [← abs_neg b.value, ← abs_neg a.value] at hless
  have hneg := four_mul_abs_lt (neg_le_neg hle) hless
  have hnonneg := abs_nonneg (-b.value)
  have habs := le_abs_self (-b.value)
  exact (isNearest_add hfinite hb).mem hanum hbnum (by linarith) (by linarith)

/-- Other bounds are halved. -/
theorem half_add_half_mem (halarge : ¬abs a < leastNormal * ofRat 2)
    (hblarge : ¬abs b < leastNormal * ofRat 2) :
    a ≤ a / ofRat 2 + b / ofRat 2 ∧ a / ofRat 2 + b / ofRat 2 ≤ b := by
  obtain ⟨hanum, hbnum, hle⟩ := le_iff.mp h
  obtain ⟨hafinite, hahalf⟩ := value_div_two ha halarge
  obtain ⟨hbfinite, hbhalf⟩ := value_div_two hb hblarge
  exact (isNearest_add hafinite hbfinite).mem hanum hbnum (by linarith) (by linarith)

/-- **The middle of two numbers lies between them**, in whichever of the four
ways it is computed. -/
theorem midpoint_mem : a ≤ midpoint a b ∧ midpoint a b ≤ b := by
  refine midpoint_cases (P := fun m => a ≤ m ∧ m ≤ b) ?_ ?_ ?_ ?_
  · exact half_sum_mem ha hb h
  · exact add_half_mem ha hb h
  · exact half_add_mem ha hb h
  · exact half_add_half_mem ha hb h

end Middle

/-! ## A spread around a mean -/

theorem isFinite_one : (1 : Binary64).isFinite = true := by decide

theorem isFinite_greatest : greatest.isFinite = true := by decide

theorem isNearest_one : (1 : Binary64).IsNearest 1 := by
  rw [← value_one]
  exact isNearest_value rfl

/-- Four more than the greatest number rounds to it. So what exceeds it by four at
most is in range. -/
theorem IsNearest.isFinite_of_abs_le (hx : x.IsNearest q) (h : |q| ≤ 4 + greatest.value) :
    x.isFinite = true := by
  have hgreatest : ofRat 4 + greatest = greatest := by decide +kernel
  have hsum := isNearest_add isFinite_four isFinite_greatest
  rw [value_four, hgreatest] at hsum
  obtain ⟨hlow, hhigh⟩ := abs_le.mp h
  exact isFinite_of_mem ((isFinite_neg _).trans isFinite_greatest) isFinite_greatest
    (hsum.neg.le hx hlow) (hx.le hsum hhigh)

section Spread

variable (hx : x.isFinite = true) (h : 0 ≤ x.value)

include hx h

/-- One and a spread is in range, and at least one. -/
theorem one_add_mem : (1 + x).isFinite = true ∧ 1 ≤ (1 + x).value := by
  have hsum := isNearest_add isFinite_one hx
  rw [value_one] at hsum
  have hle := value_le_greatest hx
  refine ⟨hsum.isFinite_of_abs_le (abs_le.mpr ⟨by linarith, by linarith⟩), ?_⟩
  rw [← value_one]
  exact isNearest_one.value_le_value hsum (by linarith)

/-- One without a spread is in range, and at most one. -/
theorem one_sub_mem : (1 - x).isFinite = true ∧ (1 - x).value ≤ 1 := by
  have hdifference := isNearest_sub isFinite_one hx
  rw [value_one] at hdifference
  have hle := value_le_greatest hx
  refine ⟨hdifference.isFinite_of_abs_le (abs_le.mpr ⟨by linarith, by linarith⟩), ?_⟩
  rw [← value_one]
  exact hdifference.value_le_value isNearest_one (by linarith)

end Spread

/-- **The bounds that a spread gives lie on the two sides of the mean.** Which
is on which depends on the sign of the mean. -/
theorem mem_spread (hx : x.isFinite = true) (hy : y.isFinite = true) (h : 0 ≤ y.value) :
    x * (1 - y) ≤ x ∧ x ≤ x * (1 + y) ∨ x * (1 + y) ≤ x ∧ x ≤ x * (1 - y) := by
  have hnum := isNearest_value (isNaN_of_isFinite hx)
  obtain ⟨hless, hle⟩ := one_sub_mem hy h
  obtain ⟨hmore, hge⟩ := one_add_mem hy h
  have hless := isNearest_mul hx hless
  have hmore := isNearest_mul hx hmore
  rcases le_total 0 x.value with hsign | hsign
  · exact .inl ⟨hless.le hnum (mul_le_of_le_one_right hsign hle),
      hnum.le hmore (le_mul_of_one_le_right hsign hge)⟩
  · exact .inr ⟨hmore.le hnum (by nlinarith), hnum.le hless (by nlinarith)⟩

/-- **Where one of the two bounds is out of range, the one further from zero
is.** -/
theorem isFinite_spread (hx : x.isFinite = true) (hy : y.isFinite = true) (h : 0 ≤ y.value)
    (hfar : (x * (1 + y)).isFinite = true) : (x * (1 - y)).isFinite = true := by
  obtain ⟨hless, hle⟩ := one_sub_mem hy h
  obtain ⟨hmore, hge⟩ := one_add_mem hy h
  have hopposite : -(1 + y).value ≤ (1 - y).value := by
    rw [← value_neg]
    exact (isNearest_add isFinite_one hy).neg.value_le_value (isNearest_sub isFinite_one hy)
      (by rw [value_one]; linarith)
  have hnear := isNearest_mul hx hless
  have hfarnear := isNearest_mul hx hmore
  have hfar' : (-(x * (1 + y))).isFinite = true := (isFinite_neg _).trans hfar
  rcases le_total 0 x.value with hsign | hsign
  · exact isFinite_of_mem hfar' hfar (hfarnear.neg.le hnear (by nlinarith))
      (hnear.le hfarnear (by nlinarith))
  · exact isFinite_of_mem hfar hfar' (hfarnear.le hnear (by nlinarith))
      (hnear.le hfarnear.neg (by nlinarith))

/-! ## Sums in range -/

theorem isFinite_infinity (negative : Bool) : (infinity negative).isFinite = false := rfl

/-- A sum in range is one of numbers in range. -/
theorem isFinite_of_isFinite_add (h : (x + y).isFinite = true) :
    x.isFinite = true ∧ y.isFinite = true := by
  change (add x y).isFinite = true at h
  cases x with
  | nan => cases h
  | signed n r hr =>
    cases y with
    | nan => cases h
    | signed m s hs =>
      have hr' : r ≠ infinityRank := by
        intro hr'
        rw [add, if_pos hr', apply_ite isFinite, isFinite_infinity] at h
        by_cases hopposite : s = infinityRank ∧ n ≠ m
        · rw [if_pos hopposite] at h
          cases h
        · rw [if_neg hopposite] at h
          cases h
      have hs' : s ≠ infinityRank := by
        intro hs'
        rw [add, if_neg hr', if_pos hs', isFinite_infinity] at h
        cases h
      exact ⟨decide_eq_true (lt_of_le_of_ne hr hr'), decide_eq_true (lt_of_le_of_ne hs hs')⟩

/-- **Sums in range are in the order of their summands.** -/
theorem add_le_add_of_isFinite (hlow : (a + b).isFinite = true) (hhigh : (c + d).isFinite = true)
    (hac : a ≤ c) (hbd : b ≤ d) : a + b ≤ c + d := by
  obtain ⟨ha, hb⟩ := isFinite_of_isFinite_add hlow
  obtain ⟨hc, hd⟩ := isFinite_of_isFinite_add hhigh
  exact (isNearest_add ha hb).le (isNearest_add hc hd)
    (add_le_add (le_iff.mp hac).2.2 (le_iff.mp hbd).2.2)

theorem neg_le_neg_of_le (h : x ≤ y) : -y ≤ -x := by
  rw [le_iff] at h ⊢
  rw [isNaN_neg, isNaN_neg, value_neg, value_neg]
  exact ⟨h.2.1, h.1, neg_le_neg h.2.2⟩

end WorstCase.Binary64
