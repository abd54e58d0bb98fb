import Mathlib
import WorstCase.Binary64.Arithmetic
import WorstCase.Proofs.Binary64.Nearest

/-!
# Floating point numbers as rationals

Every number but `nan` stands for a rational (`Binary64.value`), and numbers
are in the order of the rationals they stand for. Infinity stands for the
magnitude that would come next, which is enough where only the order counts.

An operation on finite numbers results in the number nearest to the exact
result (`isNearest_add` and those beside it). So a statement about the order of
computed bounds is one about rationals: `IsNearest.le` takes it over, because
rounding keeps the order (`rounded_mono`), and a bound that is a number already
counts as computed from its own value (`isNearest_value`).
-/

namespace WorstCase.Binary64

/-! ## Values -/

theorem unitsPerOne_pos : (0 : Rat) < unitsPerOne :=
  Nat.cast_pos.mpr (shiftLeft_pos Nat.one_pos 1074)

/-- **The rational that a number stands for.** -/
def value : Binary64 → Rat
  | .nan => 0
  | .signed negative rank _ => signedUnits negative rank / unitsPerOne

variable {x y a b : Binary64} {p q : Rat}

theorem signedUnits_zero (negative : Bool) : signedUnits negative 0 = 0 := by
  cases negative <;> rfl

theorem signedUnits_le_signedUnits {n m : Bool} {r s : Nat} :
    signedUnits n r ≤ signedUnits m s ↔ place n r ≤ place m s := by
  have hunits : unitsAt r ≤ unitsAt s ↔ r ≤ s := unitsAt_le_unitsAt
  have hunits' : unitsAt s ≤ unitsAt r ↔ s ≤ r := unitsAt_le_unitsAt
  have hr : unitsAt r = 0 ↔ r = 0 := unitsAt_eq_zero
  have hs : unitsAt s = 0 ↔ s = 0 := unitsAt_eq_zero
  cases n <;> cases m <;> simp [signedUnits, place] <;> omega

/-- **Numbers are in the order of their values.** -/
theorem le_iff : x ≤ y ↔ x.isNaN = false ∧ y.isNaN = false ∧ x.value ≤ y.value := by
  cases x with
  | nan => exact ⟨nofun, fun h => (nomatch h.1)⟩
  | signed n r hr =>
    cases y with
    | nan => exact ⟨nofun, fun h => (nomatch h.2.1)⟩
    | signed m s hs =>
      show decide (place n r ≤ place m s) = true ↔ _
      simp only [isNaN, value, true_and, decide_eq_true_eq,
        div_le_div_iff_of_pos_right unitsPerOne_pos, Int.cast_le, signedUnits_le_signedUnits]

theorem lt_iff : x < y ↔ x.isNaN = false ∧ y.isNaN = false ∧ x.value < y.value := by
  cases x with
  | nan => exact ⟨nofun, fun h => (nomatch h.1)⟩
  | signed n r hr =>
    cases y with
    | nan => exact ⟨nofun, fun h => (nomatch h.2.1)⟩
    | signed m s hs =>
      show decide (place n r < place m s) = true ↔ _
      simp only [isNaN, value, true_and, decide_eq_true_eq,
        div_lt_div_iff_of_pos_right unitsPerOne_pos, Int.cast_lt]
      rw [← not_le, ← not_le, signedUnits_le_signedUnits]

@[simp] theorem isNaN_neg (x : Binary64) : (-x).isNaN = x.isNaN := by
  cases x <;> rfl

@[simp] theorem isFinite_neg (x : Binary64) : (-x).isFinite = x.isFinite := by
  cases x <;> rfl

@[simp] theorem value_neg (x : Binary64) : (-x).value = -x.value := by
  cases x with
  | nan => exact neg_zero.symm
  | signed negative rank hrank =>
    show (signedUnits (!negative) rank : Rat) / unitsPerOne
      = -(signedUnits negative rank / unitsPerOne)
    cases negative <;> simp [signedUnits, neg_div]

theorem value_abs (x : Binary64) : (abs x).value = |x.value| := by
  cases x with
  | nan => exact abs_zero.symm
  | signed negative rank hrank =>
    have hx : value (signed negative rank hrank)
      = ((signedUnits negative rank : Int) : Rat) / unitsPerOne := rfl
    have habs : value (abs (signed negative rank hrank))
      = ((signedUnits false rank : Int) : Rat) / unitsPerOne := rfl
    rw [hx, habs, abs_div, abs_of_pos unitsPerOne_pos]
    cases negative <;> simp [signedUnits]

@[simp] theorem value_zero : (0 : Binary64).value = 0 := by
  show ((signedUnits false 0 : Int) : Rat) / unitsPerOne = 0
  simp [signedUnits_zero]

@[simp] theorem value_one : (1 : Binary64).value = 1 := by
  have hunits : unitsAt 0x3ff0000000000000 = unitsPerOne := by decide
  show ((unitsAt 0x3ff0000000000000 : Int) : Rat) / unitsPerOne = 1
  rw [hunits, Int.cast_natCast, div_self unitsPerOne_pos.ne']

/-! ## Finite numbers -/

theorem isNaN_of_isFinite (h : x.isFinite = true) : x.isNaN = false := by
  cases x with
  | nan => cases h
  | signed negative rank hrank => rfl

theorem exists_of_isFinite (h : x.isFinite = true) :
    ∃ negative rank hrank, x = signed negative rank hrank ∧ rank ≠ infinityRank := by
  cases x with
  | nan => cases h
  | signed negative rank hrank =>
    exact ⟨negative, rank, hrank, rfl, (of_decide_eq_true h).ne⟩

/-- **What lies between finite numbers is finite.** -/
theorem isFinite_of_mem (ha : a.isFinite = true) (hb : b.isFinite = true) (hax : a ≤ x)
    (hxb : x ≤ b) : x.isFinite = true := by
  cases x with
  | nan => cases (le_iff.mp hax).2.1
  | signed n r hr =>
    obtain ⟨m, s, hs, rfl, hs'⟩ := exists_of_isFinite ha
    obtain ⟨k, t, ht, rfl, ht'⟩ := exists_of_isFinite hb
    have hlow : place m s ≤ place n r := of_decide_eq_true hax
    have hhigh : place n r ≤ place k t := of_decide_eq_true hxb
    refine decide_eq_true ?_
    unfold place at hlow hhigh
    cases n <;> cases m <;> cases k <;> simp at hlow hhigh <;> omega

/-- No finite number exceeds the greatest one. -/
theorem value_le_greatest (h : x.isFinite = true) : x.value ≤ greatest.value := by
  obtain ⟨n, r, hr, rfl, hr'⟩ := exists_of_isFinite h
  have hplace : place n r ≤ place false (infinityRank - 1) := by
    unfold place
    cases n with
    | false => exact Int.ofNat_le.mpr (by omega)
    | true => simp
  have hle : signed n r hr ≤ greatest := decide_eq_true hplace
  exact (le_iff.mp hle).2.2

/-! ## Rounding -/

/-- The value of the nearest number. -/
def rounded (q : Rat) : Rat := (ofRat q).value

/-- The rank of the magnitude that is nearest to a rational's. -/
def rankOf (q : Rat) : Nat := min (nearestRank (q.num.natAbs * unitsPerOne) q.den) infinityRank

theorem nearestRank_congr {num den num' den' : Nat} (hden : 0 < den) (hden' : 0 < den')
    (h : num * den' = num' * den) : nearestRank num den = nearestRank num' den' :=
  Nat.le_antisymm (nearestRank_le_nearestRank hden hden' h.le)
    (nearestRank_le_nearestRank hden' hden h.ge)

theorem nearestRank_zero (den : Nat) : nearestRank 0 den = 0 := by
  simp [nearestRank, roundDiv]

theorem abs_eq_natAbs_div_den (q : Rat) : |q| = q.num.natAbs / q.den := by
  rw [Rat.abs_def, Rat.divInt_eq_div]
  rfl

/-- A quotient of units has the rank of the rational it is, however it is
written. -/
theorem rankOf_eq {num den : Nat} (hden : 0 < den) (h : |q| = num / (den * unitsPerOne)) :
    rankOf q = min (nearestRank num den) infinityRank := by
  have hcross : q.num.natAbs * unitsPerOne * den = num * q.den := by
    rw [abs_eq_natAbs_div_den, div_eq_div_iff (Nat.cast_ne_zero.mpr q.den_nz)
      (mul_pos (Nat.cast_pos.mpr hden) unitsPerOne_pos).ne'] at h
    have hnat : q.num.natAbs * (den * unitsPerOne) = num * q.den := by exact_mod_cast h
    rw [← hnat, Nat.mul_assoc, Nat.mul_comm unitsPerOne]
  rw [rankOf, nearestRank_congr q.den_pos hden hcross]

theorem rankOf_le_rankOf (h : |p| ≤ |q|) : rankOf p ≤ rankOf q := by
  rw [abs_eq_natAbs_div_den, abs_eq_natAbs_div_den,
    div_le_div_iff₀ (Nat.cast_pos.mpr p.den_pos) (Nat.cast_pos.mpr q.den_pos)] at h
  have hcross : p.num.natAbs * q.den ≤ q.num.natAbs * p.den := by exact_mod_cast h
  refine min_le_min_right _ (nearestRank_le_nearestRank p.den_pos q.den_pos ?_)
  rw [Nat.mul_right_comm, Nat.mul_right_comm _ unitsPerOne]
  exact Nat.mul_le_mul_right _ hcross

theorem rounded_of_nonneg (h : 0 ≤ q) : rounded q = unitsAt (rankOf q) / unitsPerOne := by
  show ((signedUnits (decide (q.num < 0)) (rankOf q) : Int) : Rat) / unitsPerOne = _
  rw [decide_eq_false (not_lt.mpr (Rat.num_nonneg.mpr h))]
  rfl

theorem rounded_of_nonpos (h : q ≤ 0) : rounded q = -(unitsAt (rankOf q) / unitsPerOne) := by
  rcases h.lt_or_eq with hneg | rfl
  · show ((signedUnits (decide (q.num < 0)) (rankOf q) : Int) : Rat) / unitsPerOne = _
    rw [decide_eq_true (Rat.num_neg.mpr hneg), ← neg_div]
    simp [signedUnits]
  · have hzero : rankOf 0 = 0 := by simp [rankOf, nearestRank_zero]
    rw [rounded_of_nonneg le_rfl, hzero]
    simp [unitsAt_of_lt (show 0 < 2 * binade by decide)]

/-- Rounding does not depend on the sign. -/
theorem rounded_neg (q : Rat) : rounded (-q) = -rounded q := by
  have hrank : rankOf (-q) = rankOf q := by
    rw [rankOf, Rat.neg_num, Rat.neg_den, Int.natAbs_neg]
    rfl
  rcases le_total 0 q with hq | hq
  · rw [rounded_of_nonpos (neg_nonpos.mpr hq), rounded_of_nonneg hq, hrank]
  · rw [rounded_of_nonneg (neg_nonneg.mpr hq), rounded_of_nonpos hq, hrank, neg_neg]

/-- **Rounding keeps the order.** -/
theorem rounded_mono : Monotone rounded := by
  intro p q h
  have hnonneg (n : Nat) : (0 : Rat) ≤ unitsAt n / unitsPerOne :=
    div_nonneg (Nat.cast_nonneg _) unitsPerOne_pos.le
  have hrank {p q : Rat} (h : |p| ≤ |q|) :
      (unitsAt (rankOf p) : Rat) / unitsPerOne ≤ unitsAt (rankOf q) / unitsPerOne :=
    div_le_div_of_nonneg_right
      (Nat.cast_le.mpr (unitsAt_le_unitsAt.mpr (rankOf_le_rankOf h))) unitsPerOne_pos.le
  rcases le_total 0 p with hp | hp
  · rw [rounded_of_nonneg hp, rounded_of_nonneg (hp.trans h)]
    exact hrank (abs_le_abs_of_nonneg hp h)
  · rcases le_total 0 q with hq | hq
    · rw [rounded_of_nonpos hp, rounded_of_nonneg hq]
      exact (neg_nonpos.mpr (hnonneg _)).trans (hnonneg _)
    · rw [rounded_of_nonpos hp, rounded_of_nonpos hq]
      exact neg_le_neg (hrank (abs_le_abs_of_nonpos hq h))

/-- **A number that is nearest to a rational.** Of the zeros, either is nearest
to what rounds to zero. -/
structure IsNearest (x : Binary64) (q : Rat) : Prop where
  isNaN : x.isNaN = false
  value : x.value = rounded q

theorem IsNearest.value_le_value (hx : x.IsNearest p) (hy : y.IsNearest q) (h : p ≤ q) :
    x.value ≤ y.value :=
  hx.value ▸ hy.value ▸ rounded_mono h

/-- **Nearest numbers are in the order of what they are nearest to.** -/
theorem IsNearest.le (hx : x.IsNearest p) (hy : y.IsNearest q) (h : p ≤ q) : x ≤ y :=
  le_iff.mpr ⟨hx.isNaN, hy.isNaN, hx.value_le_value hy h⟩

theorem IsNearest.neg (hx : x.IsNearest q) : (-x).IsNearest (-q) :=
  ⟨(isNaN_neg x).trans hx.isNaN, by rw [value_neg, hx.value, rounded_neg]⟩

theorem isNearest_ofUnits {negative : Bool} {num den : Nat} (hden : 0 < den)
    (h : (if negative then -q else q) = num / (den * unitsPerOne)) :
    (ofUnits negative num den).IsNearest q := by
  have hnonneg : (0 : Rat) ≤ num / (den * unitsPerOne) :=
    div_nonneg (Nat.cast_nonneg _) (mul_nonneg (Nat.cast_nonneg _) unitsPerOne_pos.le)
  refine ⟨rfl, ?_⟩
  show (signedUnits negative (min (nearestRank num den) infinityRank) : Rat) / unitsPerOne = _
  cases negative with
  | false =>
    simp only [Bool.false_eq_true, if_false] at h
    rw [rounded_of_nonneg (h ▸ hnonneg), rankOf_eq hden (by rw [abs_of_nonneg (h ▸ hnonneg), h])]
    rfl
  | true =>
    simp only [if_true] at h
    have hq : q ≤ 0 := neg_nonneg.mp (h ▸ hnonneg)
    rw [rounded_of_nonpos hq, rankOf_eq hden (by rw [abs_of_nonpos hq, h]), ← neg_div]
    simp [signedUnits]

theorem isNearest_ofSignedUnits (zeroNegative : Bool) (num : Int) {den : Nat} (hden : 0 < den) :
    (ofSignedUnits zeroNegative num den).IsNearest (num / (den * unitsPerOne)) := by
  unfold ofSignedUnits
  split
  · rename_i hzero
    have hself : zero zeroNegative = ofUnits zeroNegative 0 den := by
      simp [ofUnits, nearestRank_zero, ofRank, zero]
    rw [hself]
    refine isNearest_ofUnits hden ?_
    cases zeroNegative <;> simp [hzero]
  · refine isNearest_ofUnits hden ?_
    rcases lt_or_ge num 0 with hneg | hpos
    · have habs : (num.natAbs : Rat) = -num := by
        rw [Nat.cast_natAbs, abs_of_neg hneg, Int.cast_neg]
      simp [hneg, habs, neg_div]
    · have habs : (num.natAbs : Rat) = num := by
        rw [Nat.cast_natAbs, abs_of_nonneg hpos]
      simp [not_lt.mpr hpos, habs]

/-- **A number is nearest to its own value.** -/
theorem isNearest_value (h : x.isNaN = false) : x.IsNearest x.value := by
  cases x with
  | nan => cases h
  | signed negative rank hrank =>
    have hself : signed negative rank hrank = ofUnits negative (unitsAt rank) 1 := by
      have hnearest : nearestRank (unitsAt rank) 1 = rank := by
        simpa using nearestRank_unitsAt Nat.one_pos rank
      simp [ofUnits, ofRank, hnearest, hrank]
    rw [hself]
    refine isNearest_ofUnits Nat.one_pos ?_
    rw [← hself]
    cases negative <;> simp [value, signedUnits, neg_div]

/-! ## Arithmetic -/

section Arithmetic

variable (hx : x.isFinite = true) (hy : y.isFinite = true)

include hx hy

theorem isNearest_add : (x + y).IsNearest (x.value + y.value) := by
  obtain ⟨n, r, hr, rfl, hr'⟩ := exists_of_isFinite hx
  obtain ⟨m, s, hs, rfl, hs'⟩ := exists_of_isFinite hy
  show (add _ _).IsNearest _
  rw [add, if_neg hr', if_neg hs']
  have h := isNearest_ofSignedUnits (n && m) (signedUnits n r + signedUnits m s) Nat.one_pos
  rwa [Nat.cast_one, one_mul, Int.cast_add, add_div] at h

theorem isNearest_sub : (x - y).IsNearest (x.value - y.value) := by
  rw [sub_eq_add_neg x.value, ← value_neg]
  exact isNearest_add hx ((isFinite_neg y).trans hy)

theorem isNearest_mul : (x * y).IsNearest (x.value * y.value) := by
  obtain ⟨n, r, hr, rfl, hr'⟩ := exists_of_isFinite hx
  obtain ⟨m, s, hs, rfl, hs'⟩ := exists_of_isFinite hy
  show (mul _ _).IsNearest _
  rw [mul, if_neg (not_or.mpr ⟨hr', hs'⟩)]
  refine isNearest_ofUnits (shiftLeft_pos Nat.one_pos 1074) ?_
  rw [value, value, div_mul_div_comm]
  cases n <;> cases m <;> simp [signedUnits, neg_div]

theorem isNearest_div (hzero : y.value ≠ 0) : (x / y).IsNearest (x.value / y.value) := by
  obtain ⟨n, r, hr, rfl, hr'⟩ := exists_of_isFinite hx
  obtain ⟨m, s, hs, rfl, hs'⟩ := exists_of_isFinite hy
  have hrank : s ≠ 0 := by
    rintro rfl
    exact hzero (by simp [value, signedUnits_zero])
  have hunits : 0 < unitsAt s := Nat.pos_of_ne_zero fun h => hrank (unitsAt_eq_zero.mp h)
  have hunits' : (unitsAt s : Rat) ≠ 0 := Nat.cast_ne_zero.mpr hunits.ne'
  have hone : (unitsPerOne : Rat) ≠ 0 := unitsPerOne_pos.ne'
  show (div _ _).IsNearest _
  rw [div, if_neg hr', if_neg hs', if_neg hrank]
  refine isNearest_ofUnits hunits ?_
  rw [value, value, div_div_div_cancel_right₀ hone]
  cases n <;> cases m <;> simp [signedUnits] <;> field_simp

end Arithmetic

end WorstCase.Binary64
