import WorstCase.Binary64.Basic

/-!
# Rounding a magnitude

A quotient of units is rounded in two steps: its binade decides how far apart
the magnitudes lie there, and then the quotient, counted in that spacing, goes
to the nearest whole number. What is proved of rounding is proved of the two
steps in turn, and only two facts leave this module. Rounding keeps the order
(`nearestRank_le_nearestRank`), and it leaves a magnitude alone
(`nearestRank_unitsAt`). Together they say that a rounded result never passes a
number that the exact one does not pass, which is all that the order of bounds
needs.

The order is kept within a binade because a rounded quotient is above `n`
exactly when the quotient is beyond the middle between `n` and `n + 1`
(`lt_roundDiv_iff`), and from one binade to the next because rounding leads to
the start of the next one at most.
-/

namespace WorstCase

section Quotients

variable {num den num' den' n : Nat}

/-- A whole quotient is left alone. -/
theorem roundDiv_mul {tie : Tie} (n : Nat) (hden : 0 < den) : roundDiv tie (n * den) den = n := by
  simp [roundDiv, hden]

/-- **A rounded quotient is above a number** when the quotient is beyond the
middle between the number and the next, or is the middle and the next number is
even. -/
theorem lt_roundDiv_iff (hden : 0 < den) : n < roundDiv .toEven num den
    ↔ (2 * n + 1) * den < 2 * num ∨ (2 * n + 1) * den = 2 * num ∧ n % 2 = 1 := by
  have hmiddle : (2 * n + 1) * den = 2 * (n * den) + den := by
    rw [Nat.succ_mul, Nat.mul_assoc]
  have hnum : num / den * den + num % den = num := Nat.div_add_mod' num den
  have hrest : num % den < den := Nat.mod_lt _ hden
  unfold roundDiv
  rw [hmiddle]
  generalize num / den = q at hnum ⊢
  dsimp only
  have hless : n < q → n * den + den ≤ q * den := fun h =>
    Nat.succ_mul n den ▸ Nat.mul_le_mul_right den h
  have hmore : q < n → q * den + den ≤ n * den := fun h =>
    Nat.succ_mul q den ▸ Nat.mul_le_mul_right den h
  have hsame : n = q → n * den = q * den := fun h => congrArg (· * den) h
  split
  · omega
  · split <;> omega

/-- **Rounding keeps the order of quotients**, since whatever is beyond a
middle stays beyond it. -/
theorem roundDiv_le_roundDiv (hden : 0 < den) (hden' : 0 < den')
    (h : num * den' ≤ num' * den) : roundDiv .toEven num den ≤ roundDiv .toEven num' den' := by
  have hscale : 2 * num * den' ≤ 2 * num' * den := by
    rw [Nat.mul_assoc, Nat.mul_assoc]
    exact Nat.mul_le_mul_left 2 h
  have hkept (n : Nat) (hn : n < roundDiv .toEven num den) : n < roundDiv .toEven num' den' := by
    rw [lt_roundDiv_iff hden']
    rcases (lt_roundDiv_iff hden).mp hn with hbeyond | ⟨hmiddle, hodd⟩
    · left
      refine Nat.lt_of_mul_lt_mul_right (a := den) ?_
      calc (2 * n + 1) * den' * den = (2 * n + 1) * den * den' := Nat.mul_right_comm _ _ _
        _ < 2 * num * den' := Nat.mul_lt_mul_of_pos_right hbeyond hden'
        _ ≤ 2 * num' * den := hscale
    · have hreach : (2 * n + 1) * den' ≤ 2 * num' := by
        refine Nat.le_of_mul_le_mul_right ?_ hden
        calc (2 * n + 1) * den' * den = (2 * n + 1) * den * den' := Nat.mul_right_comm _ _ _
          _ = 2 * num * den' := by rw [hmiddle]
          _ ≤ 2 * num' * den := hscale
      exact (Nat.lt_or_eq_of_le hreach).imp_right fun heq => ⟨heq, hodd⟩
  exact Nat.le_of_not_lt fun hlt => Nat.lt_irrefl _ (hkept _ hlt)

end Quotients

/-! ## Shifts to the left -/

theorem shiftLeft_le_shiftLeft {m n : Nat} (h : m ≤ n) (k : Nat) : m <<< k ≤ n <<< k := by
  rw [Nat.shiftLeft_eq, Nat.shiftLeft_eq]
  exact Nat.mul_le_mul_right _ h

theorem mul_shiftLeft (m n k : Nat) : m * n <<< k = m <<< k * n := by
  rw [Nat.shiftLeft_eq, Nat.shiftLeft_eq, Nat.mul_right_comm, Nat.mul_assoc]

theorem shiftLeft_pos {n : Nat} (h : 0 < n) (k : Nat) : 0 < n <<< k := by
  rw [Nat.shiftLeft_eq]
  exact Nat.mul_pos h (Nat.two_pow_pos k)

namespace Binary64

/-! ## Spacings -/

/-- **The spacing of the binade of a magnitude** is `2 ^ k` units: the magnitude
is below the next binade, and not below this one unless the spacing is the
least. -/
structure IsSpacing (k units : Nat) : Prop where
  normal : k = 0 ∨ binade <<< k ≤ units
  below : units < (2 * binade) <<< k

/-- Every magnitude has a spacing. -/
theorem isSpacing_log2 (units : Nat) : IsSpacing (Nat.log2 units - 52) units := by
  have hbinade : binade = 1 <<< 52 := by decide
  constructor
  · by_cases hk : Nat.log2 units - 52 = 0
    · exact .inl hk
    right
    have hne : units ≠ 0 := by
      rintro rfl
      exact hk (by decide)
    calc binade <<< (Nat.log2 units - 52) = 2 ^ Nat.log2 units := by
          rw [hbinade, ← Nat.shiftLeft_add, Nat.one_shiftLeft, Nat.add_sub_cancel' (by omega)]
      _ ≤ units := Nat.log2_self_le hne
  · calc units < 2 ^ (Nat.log2 units + 1) := Nat.lt_log2_self
      _ ≤ 2 ^ (53 + (Nat.log2 units - 52)) := Nat.pow_le_pow_right (by decide) (by omega)
      _ = (2 * binade) <<< (Nat.log2 units - 52) := by
        rw [Nat.pow_add, ← Nat.shiftLeft_eq]
        rfl

variable {k k' units units' : Nat}

/-- Greater magnitudes lie further apart. -/
theorem IsSpacing.le (h : IsSpacing k units) (h' : IsSpacing k' units') (hle : units ≤ units') :
    k ≤ k' := by
  refine Nat.le_of_not_lt fun hlt => Nat.lt_irrefl units ?_
  calc units ≤ units' := hle
    _ < (2 * binade) <<< k' := h'.below
    _ = binade <<< (k' + 1) := by
      rw [Nat.add_comm, Nat.shiftLeft_add, Nat.shiftLeft_eq binade, Nat.mul_comm, Nat.pow_one]
    _ ≤ binade <<< k := by
      rw [Nat.shiftLeft_eq, Nat.shiftLeft_eq]
      exact Nat.mul_le_mul_left _ (Nat.pow_le_pow_right (by decide) hlt)
    _ ≤ units := h.normal.resolve_left (Nat.ne_of_gt (Nat.zero_lt_of_lt hlt))

theorem IsSpacing.unique (h : IsSpacing k units) (h' : IsSpacing k' units) : k = k' :=
  Nat.le_antisymm (h.le h' (Nat.le_refl _)) (h'.le h (Nat.le_refl _))

/-- **A count of spacings that is a magnitude**: below the next binade, and not
below this one unless the spacing is the least. -/
structure IsCount (k count : Nat) : Prop where
  normal : k = 0 ∨ binade ≤ count
  below : count < 2 * binade

variable {count : Nat}

/-- Every rank counts spacings of a binade. -/
theorem exists_isCount (rank : Nat) : ∃ k count, IsCount k count ∧ rank = k * binade + count := by
  have hbinade : 0 < binade := by decide
  have hsplit : rank / binade * binade + rank % binade = rank := Nat.div_add_mod' _ _
  have hrest : rank % binade < binade := Nat.mod_lt _ hbinade
  cases hk : rank / binade with
  | zero =>
    rw [hk] at hsplit
    exact ⟨0, rank, ⟨.inl rfl, by omega⟩, by omega⟩
  | succ k =>
    rw [hk, Nat.succ_mul] at hsplit
    exact ⟨k, binade + rank % binade, ⟨.inr (Nat.le_add_right _ _), by omega⟩, by omega⟩

/-- **The magnitude of a rank** is as many spacings as the rank counts. -/
theorem IsCount.unitsAt_eq (h : IsCount k count) : unitsAt (k * binade + count) = count <<< k := by
  have hbinade : 0 < binade := by decide
  unfold unitsAt
  rcases Nat.lt_or_ge count binade with hlow | hnormal
  · obtain rfl := h.normal.resolve_right (Nat.not_le_of_lt hlow)
    rw [Nat.zero_mul, Nat.zero_add, if_pos hlow, Nat.div_eq_of_lt hlow]
  · obtain ⟨rest, rfl⟩ := Nat.exists_eq_add_of_le hnormal
    have hrest : rest < binade := by
      have := h.below
      omega
    have hrank : k * binade + (binade + rest) = binade * (k + 1) + rest := by
      rw [Nat.mul_succ, Nat.mul_comm, Nat.add_assoc]
    rw [hrank, if_neg (by rw [Nat.mul_succ]; omega), Nat.mul_add_div hbinade,
      Nat.div_eq_of_lt hrest, Nat.mul_add_mod, Nat.mod_eq_of_lt hrest, Nat.add_zero,
      Nat.add_sub_cancel]

theorem IsCount.isSpacing (h : IsCount k count) : IsSpacing k (count <<< k) := by
  refine ⟨h.normal.imp_right fun hcount => shiftLeft_le_shiftLeft hcount k, ?_⟩
  rw [Nat.shiftLeft_eq, Nat.shiftLeft_eq]
  exact Nat.mul_lt_mul_of_pos_right h.below (Nat.two_pow_pos k)

/-! ## The nearest rank -/

variable {num den num' den' : Nat}

theorem nearestRank_eq (h : IsSpacing k (num / den)) :
    nearestRank num den = k * binade + roundDiv .toEven num (den <<< k) := by
  rw [h.unique (isSpacing_log2 (num / den))]
  rfl

/-- **A magnitude is left alone.** -/
theorem nearestRank_unitsAt (hden : 0 < den) (rank : Nat) :
    nearestRank (unitsAt rank * den) den = rank := by
  obtain ⟨k, count, h, rfl⟩ := exists_isCount rank
  have hspacing : IsSpacing k (count <<< k * den / den) := by
    rw [Nat.mul_div_cancel _ hden]
    exact h.isSpacing
  rw [h.unitsAt_eq, nearestRank_eq hspacing, ← mul_shiftLeft,
    roundDiv_mul count (shiftLeft_pos hden k)]

/-- Rounding leads to the start of the next binade at most. -/
theorem IsSpacing.roundDiv_le (hden : 0 < den) (h : IsSpacing k (num / den)) :
    roundDiv .toEven num (den <<< k) ≤ 2 * binade := by
  have hpos : 0 < den <<< k := shiftLeft_pos hden k
  have hnum : num ≤ 2 * binade * den <<< k := by
    rw [mul_shiftLeft]
    exact Nat.le_of_lt ((Nat.div_lt_iff_lt_mul hden).mp h.below)
  calc roundDiv .toEven num (den <<< k)
      ≤ roundDiv .toEven (2 * binade * den <<< k) (den <<< k) :=
        roundDiv_le_roundDiv hpos hpos (Nat.mul_le_mul_right _ hnum)
    _ = 2 * binade := roundDiv_mul _ hpos

/-- Rounding leads to no lower binade. -/
theorem IsSpacing.le_roundDiv (hden : 0 < den) (h : IsSpacing k (num / den)) (hk : k ≠ 0) :
    binade ≤ roundDiv .toEven num (den <<< k) := by
  have hpos : 0 < den <<< k := shiftLeft_pos hden k
  have hnum : binade * den <<< k ≤ num := by
    rw [mul_shiftLeft]
    exact (Nat.le_div_iff_mul_le hden).mp (h.normal.resolve_left hk)
  calc binade = roundDiv .toEven (binade * den <<< k) (den <<< k) := (roundDiv_mul _ hpos).symm
    _ ≤ roundDiv .toEven num (den <<< k) :=
      roundDiv_le_roundDiv hpos hpos (Nat.mul_le_mul_right _ hnum)

/-- **Rounding keeps the order of magnitudes.** -/
theorem nearestRank_le_nearestRank (hden : 0 < den) (hden' : 0 < den')
    (h : num * den' ≤ num' * den) : nearestRank num den ≤ nearestRank num' den' := by
  have hquotient : num / den ≤ num' / den' := by
    rw [Nat.le_div_iff_mul_le hden']
    refine Nat.le_of_mul_le_mul_right ?_ hden
    calc num / den * den' * den = num / den * den * den' := Nat.mul_right_comm _ _ _
      _ ≤ num * den' := Nat.mul_le_mul_right _ (Nat.div_mul_le_self _ _)
      _ ≤ num' * den := h
  have hs := isSpacing_log2 (num / den)
  have hs' := isSpacing_log2 (num' / den')
  rw [nearestRank_eq hs, nearestRank_eq hs']
  generalize Nat.log2 (num / den) - 52 = k at hs ⊢
  generalize Nat.log2 (num' / den') - 52 = k' at hs' ⊢
  rcases Nat.lt_or_eq_of_le (hs.le hs' hquotient) with hlt | rfl
  · calc k * binade + roundDiv .toEven num (den <<< k) ≤ k * binade + 2 * binade :=
          Nat.add_le_add_left (hs.roundDiv_le hden) _
      _ = (k + 1) * binade + binade := by rw [Nat.succ_mul k, Nat.add_assoc, ← Nat.two_mul]
      _ ≤ k' * binade + roundDiv .toEven num' (den' <<< k') :=
        Nat.add_le_add (Nat.mul_le_mul_right _ hlt)
          (hs'.le_roundDiv hden' (Nat.ne_of_gt (Nat.zero_lt_of_lt hlt)))
  · refine Nat.add_le_add_left (roundDiv_le_roundDiv (shiftLeft_pos hden k)
      (shiftLeft_pos hden' k) ?_) _
    rw [mul_shiftLeft, mul_shiftLeft, Nat.shiftLeft_eq, Nat.shiftLeft_eq, Nat.mul_right_comm,
      Nat.mul_right_comm num']
    exact Nat.mul_le_mul_right _ h

/-! ## Magnitudes -/

variable {rank rank' : Nat}

/-- **The order of ranks is that of magnitudes.** -/
theorem unitsAt_le_unitsAt : unitsAt rank ≤ unitsAt rank' ↔ rank ≤ rank' := by
  have hreflects {r s : Nat} (h : unitsAt r ≤ unitsAt s) : r ≤ s := by
    rw [← nearestRank_unitsAt Nat.one_pos r, ← nearestRank_unitsAt Nat.one_pos s]
    refine nearestRank_le_nearestRank Nat.one_pos Nat.one_pos ?_
    rwa [Nat.mul_one, Nat.mul_one, Nat.mul_one, Nat.mul_one]
  refine ⟨hreflects, fun h => ?_⟩
  rcases Nat.le_total (unitsAt rank) (unitsAt rank') with hle | hge
  · exact hle
  · exact Nat.le_of_eq (congrArg unitsAt (Nat.le_antisymm h (hreflects hge)))

theorem unitsAt_eq_zero : unitsAt rank = 0 ↔ rank = 0 := by
  have hle : unitsAt rank ≤ unitsAt 0 ↔ rank ≤ 0 := unitsAt_le_unitsAt
  rwa [show unitsAt 0 = 0 by decide, Nat.le_zero, Nat.le_zero] at hle

/-- In the first two binades, ranks are units. -/
theorem unitsAt_of_lt (h : rank < 2 * binade) : unitsAt rank = rank := by
  simpa using (IsCount.mk (.inl rfl) h : IsCount 0 rank).unitsAt_eq

/-- **From one binade to the next, magnitudes double.** -/
theorem unitsAt_add_binade (h : binade ≤ rank) : unitsAt (rank + binade) = 2 * unitsAt rank := by
  obtain ⟨k, count, hcount, rfl⟩ := exists_isCount rank
  have hnormal : binade ≤ count := by
    rcases hcount.normal with rfl | hnormal
    · omega
    · exact hnormal
  have hnext : IsCount (k + 1) count := ⟨.inr hnormal, hcount.below⟩
  have hrank : k * binade + count + binade = (k + 1) * binade + count := by
    rw [Nat.succ_mul]
    omega
  rw [hrank, hnext.unitsAt_eq, hcount.unitsAt_eq, Nat.shiftLeft_succ]

/-- Twice a magnitude is one too, a binade further at most. -/
theorem exists_unitsAt_eq_two_mul (rank : Nat) :
    ∃ double ≤ rank + binade, unitsAt double = 2 * unitsAt rank := by
  rcases Nat.lt_or_ge rank binade with hlow | hnormal
  · refine ⟨2 * rank, by omega, ?_⟩
    rw [unitsAt_of_lt (by omega), unitsAt_of_lt (by omega)]
  · exact ⟨rank + binade, Nat.le_refl _, unitsAt_add_binade hnormal⟩

end Binary64

end WorstCase
