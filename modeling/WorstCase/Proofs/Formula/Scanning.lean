import WorstCase.Proofs.Formula.Spelling

/-!
# Scans find what is spelt

The two directions between the scans and the spelling of lexemes. `Spells` says
that a scan finds nothing else than lexemes of one sort, and what it has seen
when a number breaks off. The `…_spelt` theorems say that a scan finds every
lexeme of its sort, provided that what follows does not go on with it.

The second direction is where the order of the scans could do harm. A
percentage and a coefficient both start as numbers do, so it is also shown that
a percentage is not found where a coefficient is (`percentage_coefficient`).
-/

namespace WorstCase.Lexeme

/-- **A scan finds the lexemes of one sort**, and no other texts. A number that
breaks off has been read in part, and there is something of the part that
breaks off. -/
structure Spells {α : Type} (scan : List Char → Scan) (text : α → List Char) :
    Prop where
  found : ∀ {cs lexeme rest}, scan cs = .found lexeme rest →
    ∃ x, text x = lexeme ∧ cs = lexeme ++ rest
  broken : ∀ {cs part before mark}, scan cs = .broken part before mark →
    ∃ rest, cs = before ++ mark ++ rest ∧ Solid (before ++ mark) ∧ mark ≠ []

/-! ## Parts of numbers -/

section Parts

variable {p : Char → Bool} {rest : List Char}

/-- An optional character is what `optional` takes. -/
theorem optional_spelt (o : Option (CharOf p)) (h : o = none → Stops p rest) :
    optional p (optionalText o ++ rest) = (optionalText o, rest) := by
  cases o with
  | some c =>
    show (if p c.val then ([c.val], rest) else ([], c.val :: rest)) = _
    rw [if_pos c.property]
    rfl
  | none =>
    cases rest with
    | nil => rfl
    | cons c rest =>
      show (if p c then ([c], rest) else ([], c :: rest)) = _
      rw [if_neg (by rw [h rfl c rfl]; exact Bool.false_ne_true)]
      rfl

/-- What `optional` takes is an optional character. -/
theorem exists_optionalText (p : Char → Bool) (cs : List Char) :
    ∃ o : Option (CharOf p), optionalText o = (optional p cs).1 := by
  cases cs with
  | nil => exact ⟨none, rfl⟩
  | cons c cs =>
    by_cases h : p c = true
    · refine ⟨some ⟨c, h⟩, ?_⟩
      rw [optional, if_pos h]
      rfl
    · refine ⟨none, ?_⟩
      rw [optional, if_neg h]
      rfl

/-- The digits at the start of a text, if there are any. -/
def Digits.front (cs : List Char) (h : cs.takeWhile Char.isDigit ≠ []) : Digits :=
  ⟨cs.takeWhile Char.isDigit, h, List.all_eq_true.mp List.all_takeWhile⟩

/-- A digit is no sign. -/
theorem isSign_of_isDigit {c : Char} (h : c.isDigit = true) : isSign c = false := by
  cases hs : isSign c with
  | false => rfl
  | true =>
    simp only [isSign, Bool.or_eq_true, beq_iff_eq] at hs
    rcases hs with rfl | rfl <;> cases h

/-- Digits do not start with anything else. -/
theorem Digits.stops (x : Digits) (hp : ∀ c, c.isDigit = true → p c = false)
    (rest : List Char) : Stops p (x.text ++ rest) := by
  obtain ⟨d, ds, hd⟩ := List.exists_cons_of_ne_nil x.ne_nil
  rw [hd]
  exact stops_cons (hp d (x.isDigit d (by rw [hd]; exact List.mem_cons_self)))

theorem Digits.stops_isSign (x : Digits) (rest : List Char) :
    Stops isSign (x.text ++ rest) :=
  x.stops (fun _ => isSign_of_isDigit) rest

/-- The fraction of a number, if what follows does not go on with it. -/
theorem fraction_spelt (n : Unsigned) (h : Stops isDecimalChar rest) :
    fraction (n.fractionText ++ rest) = .ok (n.fractionText, rest) := by
  unfold Unsigned.fractionText
  cases n.fraction with
  | none =>
    show fraction rest = .ok ([], rest)
    unfold fraction
    split
    · cases h '.' rfl
    · rfl
  | some digits =>
    have hdigit : Stops Char.isDigit rest :=
      h.mono fun c hc => by simp [isDecimalChar, hc]
    show fraction ('.' :: (digits.text ++ rest)) = _
    rw [fraction, takeWhile_append digits.isDigit hdigit,
      dropWhile_append digits.isDigit hdigit, if_neg digits.ne_nil]

/-- The exponent of a number, if what follows does not go on with it. -/
theorem exponent_spelt (n : Unsigned) (h : Stops isNumberChar rest) :
    exponent (n.exponentText ++ rest) = .ok (n.exponentText, rest) := by
  unfold Unsigned.exponentText
  cases n.exponent with
  | none =>
    show exponent rest = .ok ([], rest)
    cases rest with
    | nil => rfl
    | cons c rest =>
      have hmark : isExponentMark c = false := by
        have hc := h c rfl
        simp only [isNumberChar, Bool.or_eq_false_iff] at hc
        exact hc.2
      rw [exponent, hmark, if_neg Bool.false_ne_true]
  | some part =>
    have hdigit : Stops Char.isDigit rest :=
      h.mono fun c hc => by simp [isNumberChar, isDecimalChar, hc]
    show exponent (part.mark.val :: (optionalText part.sign ++ part.digits.text ++ rest)) = _
    rw [exponent, if_pos part.mark.property, List.append_assoc,
      optional_spelt part.sign fun _ => part.digits.stops_isSign rest]
    dsimp only
    rw [takeWhile_append part.digits.isDigit hdigit,
      dropWhile_append part.digits.isDigit hdigit, if_neg part.digits.ne_nil]
    rfl

/-- What `fraction` takes is the fraction of a number. -/
theorem exists_fraction {cs part : List Char} (h : fraction cs = .ok (part, rest)) :
    ∃ o : Option Digits, part = match o with
      | some digits => '.' :: digits.text
      | none => [] := by
  unfold fraction at h
  split at h
  · split at h
    · cases h
    · rename_i hne
      cases h
      exact ⟨some (Digits.front _ hne), rfl⟩
  · cases h
    exact ⟨none, rfl⟩

/-- What `exponent` takes is the exponent of a number. -/
theorem exists_exponent {cs part : List Char} (h : exponent cs = .ok (part, rest)) :
    ∃ o : Option ExponentPart, part = match o with
      | some part => part.text
      | none => [] := by
  cases cs with
  | nil =>
    cases h
    exact ⟨none, rfl⟩
  | cons c cs =>
    by_cases hmark : isExponentMark c = true
    · rw [exponent, if_pos hmark] at h
      dsimp only at h
      split at h
      · cases h
      · rename_i hne
        obtain ⟨sign, hsign⟩ := exists_optionalText isSign cs
        cases h
        refine ⟨some ⟨⟨c, hmark⟩, sign, Digits.front _ hne⟩, ?_⟩
        show _ = c :: optionalText sign ++ _
        rw [hsign]
        rfl
    · rw [exponent, if_neg hmark] at h
      cases h
      exact ⟨none, rfl⟩

end Parts

/-- A point without digits is all there is of a fraction that breaks off. -/
theorem fraction_eq_error {cs mark : List Char} (h : fraction cs = .error mark) :
    ∃ rest, cs = mark ++ rest ∧ Solid mark ∧ mark ≠ [] := by
  unfold fraction at h
  split at h
  · rename_i rest
    split at h
    · cases h
      exact ⟨rest, rfl, solid_cons (by decide) solid_nil, List.cons_ne_nil _ _⟩
    · cases h
  · cases h

/-- The mark and the sign are all there is of an exponent that breaks off. -/
theorem exponent_eq_error {cs mark : List Char} (h : exponent cs = .error mark) :
    ∃ rest, cs = mark ++ rest ∧ Solid mark ∧ mark ≠ [] := by
  cases cs with
  | nil => cases h
  | cons c cs =>
    by_cases hmark : isExponentMark c = true
    · rw [exponent, if_pos hmark] at h
      dsimp only at h
      split at h
      · obtain ⟨sign, hsign⟩ := exists_optionalText isSign cs
        have hwhole := optional_append isSign cs
        cases h
        refine ⟨(optional isSign cs).2, ?_, ?_, List.cons_ne_nil _ _⟩
        · rw [List.cons_append, hwhole]
        · rw [← hsign]
          exact solid_cons (isSolid_of (p := isExponentMark) rfl rfl rfl hmark)
            (solid_optionalText rfl rfl rfl sign)
      · cases h
    · rw [exponent, if_neg hmark] at h
      cases h

/-! ## Numbers -/

/-- An exponent does not go on with digits. -/
theorem Unsigned.stops_exponentText {rest : List Char} (n : Unsigned)
    (h : Stops isNumberChar rest) : Stops isDecimalChar (n.exponentText ++ rest) := by
  unfold exponentText
  cases n.exponent with
  | none => exact h.mono fun c hc => by simp [isNumberChar, hc]
  | some part =>
    have hmark := part.mark.property
    simp only [isExponentMark, Bool.or_eq_true, beq_iff_eq] at hmark
    refine stops_cons ?_
    rcases hmark with h | h <;> rw [h] <;> rfl

/-- The fraction and the exponent do not go on with the digits before them. -/
theorem Unsigned.stops_fractionText {rest : List Char} (n : Unsigned)
    (h : Stops isDecimalChar rest) : Stops Char.isDigit (n.fractionText ++ rest) := by
  unfold fractionText
  cases n.fraction with
  | none => exact h.mono fun c hc => by simp [isDecimalChar, hc]
  | some digits => exact stops_cons rfl

/-- **Numbers without a sign are found.** -/
theorem unsignedNumber_spelt {rest : List Char} (n : Unsigned)
    (h : Stops isNumberChar rest) :
    unsignedNumber (n.text ++ rest) = .found n.text rest := by
  have hexponent := n.stops_exponentText h
  have hfraction := n.stops_fractionText hexponent
  have htext : n.text ++ rest
      = n.whole.text ++ (n.fractionText ++ (n.exponentText ++ rest)) := by
    simp only [Unsigned.text, List.append_assoc]
  unfold unsignedNumber
  dsimp only
  rw [htext, takeWhile_append n.whole.isDigit hfraction,
    dropWhile_append n.whole.isDigit hfraction, if_neg n.whole.ne_nil,
    fraction_spelt n hexponent]
  dsimp only
  rw [exponent_spelt n h]
  rfl

/-- Nothing else is found as one. -/
theorem unsignedNumber_spells : Spells unsignedNumber Unsigned.text where
  found := by
    intro cs lexeme rest h
    obtain ⟨hwhole, -⟩ := unsignedNumber_found h
    unfold unsignedNumber at h
    dsimp only at h
    split at h
    · cases h
    · rename_i hne
      split at h
      · cases h
      · rename_i fractional after hfraction
        split at h
        · cases h
        · rename_i exponential last hexponent
          cases h
          obtain ⟨fraction, rfl⟩ := exists_fraction hfraction
          obtain ⟨exponent, rfl⟩ := exists_exponent hexponent
          exact ⟨⟨Digits.front cs hne, fraction, exponent⟩, rfl, hwhole.symm⟩
  broken := by
    intro cs part before mark h
    have hdigits := List.takeWhile_append_dropWhile (p := Char.isDigit) (l := cs)
    unfold unsignedNumber at h
    dsimp only at h
    split at h
    · cases h
    · rename_i hne
      have hsolid := (Digits.front cs hne).solid
      split at h
      · rename_i m hfraction
        cases h
        obtain ⟨rest, hrest, hmark, hmark_ne⟩ := fraction_eq_error hfraction
        refine ⟨rest, ?_, solid_append hsolid hmark, hmark_ne⟩
        rw [List.append_assoc, ← hrest, hdigits]
      · rename_i fractional after hfraction
        split at h
        · rename_i m hexponent
          cases h
          obtain ⟨rest, hrest, hmark, hmark_ne⟩ := exponent_eq_error hexponent
          have hparts := fraction_append hfraction
          obtain ⟨fraction, rfl⟩ := exists_fraction hfraction
          refine ⟨rest, ?_, solid_append (solid_append hsolid ?_) hmark, hmark_ne⟩
          · rw [List.append_assoc, List.append_assoc, ← hrest, hparts, hdigits]
          · exact (Unsigned.mk (Digits.front cs hne) fraction none).solid_fractionText
        · cases h

/-- **Numbers are found.** -/
theorem number_spelt {rest : List Char} (n : Numeral) (h : Stops isNumberChar rest) :
    number (n.text ++ rest) = .found n.text rest := by
  have hsign : n.sign = none → Stops isSign (n.unsigned.text ++ rest) := by
    intro _
    rw [Unsigned.text, List.append_assoc, List.append_assoc]
    exact n.unsigned.whole.stops_isSign _
  unfold number
  rw [Numeral.text, List.append_assoc, optional_spelt n.sign hsign]
  dsimp only
  rw [unsignedNumber_spelt n.unsigned h]
  rfl

theorem number_spells : Spells number Numeral.text where
  found := by
    intro cs lexeme rest h
    obtain ⟨hwhole, -⟩ := number_found h
    obtain ⟨sign, hsign⟩ := exists_optionalText isSign cs
    unfold number at h
    generalize hscan : unsignedNumber (optional isSign cs).2 = s at h
    cases s with
    | absent => cases h
    | broken => cases h
    | found digits after =>
      cases h
      obtain ⟨n, rfl, -⟩ := unsignedNumber_spells.found hscan
      refine ⟨⟨sign, n⟩, ?_, hwhole.symm⟩
      rw [Numeral.text, hsign]
  broken := by
    intro cs part before mark h
    have hwhole := optional_append isSign cs
    obtain ⟨sign, hsign⟩ := exists_optionalText isSign cs
    unfold number at h
    generalize hscan : unsignedNumber (optional isSign cs).2 = s at h
    cases s with
    | absent => cases h
    | found => cases h
    | broken _ front _ =>
      cases h
      obtain ⟨rest, hrest, hsolid, hmark⟩ := unsignedNumber_spells.broken hscan
      refine ⟨rest, ?_, ?_, hmark⟩
      · rw [hrest] at hwhole
        simp only [List.append_assoc] at hwhole ⊢
        exact hwhole.symm
      · rw [List.append_assoc, ← hsign]
        exact solid_append (solid_optionalText rfl rfl rfl sign) hsolid

/-! ## Magnitudes -/

/-- The prefixes, in all dialects. -/
def prefixChars : List Char :=
  ['p', 'n', '\u00b5', '\u03bc', 'u', 'm', 'k', 'M', 'G', 'T']

/-- The units. -/
def unitChars : List Char := ['V', 'A', '\u03a9', '\u2126', 'W', 'J', 's', 'f']

theorem mem_prefixChars {dialect : Dialect} {c : Char}
    (h : isPrefixChar dialect c = true) : c ∈ prefixChars := by
  unfold isPrefixChar at h
  split at h <;> first | decide | cases h

theorem mem_unitChars {c : Char} (h : isUnitChar c = true) : c ∈ unitChars := by
  rw [isUnitChar, Option.isSome_iff_exists] at h
  obtain ⟨u, hu⟩ := h
  unfold UnitSymbol.ofChar? at hu
  split at hu <;> first | decide | cases hu

/-- A unit is no prefix. -/
theorem isPrefixChar_of_isUnitChar {dialect : Dialect} {c : Char}
    (h : isUnitChar c = true) : isPrefixChar dialect c = false := by
  have hdisjoint : unitChars.any prefixChars.contains = false := by decide
  rw [Bool.eq_false_iff]
  intro hc
  have hcontains := List.contains_iff_mem.mpr (mem_prefixChars hc)
  rw [eq_false_of_any hdisjoint (mem_unitChars h)] at hcontains
  cases hcontains

/-- A kind without prefixes and units in it stops before either. -/
theorem stops_suffix {dialect : Dialect} {p : Char → Bool} {rest : List Char}
    (hp : (prefixChars ++ unitChars).any p = false) (h : Stops p rest)
    (metric : Option (CharOf (isPrefixChar dialect)))
    (unit : Option (CharOf isUnitChar)) :
    Stops p (optionalText metric ++ optionalText unit ++ rest) := by
  cases metric with
  | some c =>
    exact stops_cons (eq_false_of_any hp (List.mem_append_left _ (mem_prefixChars c.property)))
  | none =>
    cases unit with
    | some c =>
      exact stops_cons (eq_false_of_any hp (List.mem_append_right _ (mem_unitChars c.property)))
    | none => exact h

/-- **A prefix and a unit are found.** -/
theorem suffix_spelt {dialect : Dialect} {rest : List Char}
    (metric : Option (CharOf (isPrefixChar dialect)))
    (unit : Option (CharOf isUnitChar)) (h : Apart rest) :
    suffix dialect (optionalText metric ++ optionalText unit ++ rest)
      = (optionalText metric ++ optionalText unit, rest) := by
  have hunit : Stops isUnitChar rest := h.stops rfl rfl
  have hmetric : Stops (isPrefixChar dialect) (optionalText unit ++ rest) := by
    cases unit with
    | none => exact h.stops rfl rfl
    | some c => exact stops_cons (isPrefixChar_of_isUnitChar c.property)
  unfold suffix
  rw [List.append_assoc, optional_spelt metric fun _ => hmetric]
  dsimp only
  rw [optional_spelt unit fun _ => hunit]

/-- What `suffix` takes is an optional prefix and an optional unit. -/
theorem exists_suffix (dialect : Dialect) (cs : List Char) :
    ∃ (metric : Option (CharOf (isPrefixChar dialect)))
      (unit : Option (CharOf isUnitChar)),
      optionalText metric ++ optionalText unit = (suffix dialect cs).1 := by
  obtain ⟨metric, hmetric⟩ := exists_optionalText (isPrefixChar dialect) cs
  obtain ⟨unit, hunit⟩ :=
    exists_optionalText isUnitChar (optional (isPrefixChar dialect) cs).2
  refine ⟨metric, unit, ?_⟩
  rw [hmetric, hunit]
  rfl

/-- **Magnitudes are found.** -/
theorem magnitude_spelt {dialect : Dialect} {rest : List Char}
    (m : Magnitude dialect) (h : Apart rest) :
    magnitude dialect (m.text ++ rest) = .found m.text rest := by
  have hnumber : Stops isNumberChar
      (optionalText m.metric ++ optionalText m.unit ++ rest) :=
    stops_suffix (by decide) (h.stops rfl rfl) m.metric m.unit
  unfold magnitude
  rw [Magnitude.text, List.append_assoc, number_spelt m.number hnumber]
  show Scan.found _ _ = _
  rw [suffix_spelt m.metric m.unit h]

theorem magnitude_spells (dialect : Dialect) :
    Spells (magnitude dialect) (@Magnitude.text dialect) where
  found := by
    intro cs lexeme rest h
    obtain ⟨hwhole, -⟩ := magnitude_found h
    unfold magnitude at h
    generalize hscan : number cs = s at h
    cases s with
    | absent => cases h
    | broken => cases h
    | found digits after =>
      cases h
      obtain ⟨n, rfl, -⟩ := number_spells.found hscan
      obtain ⟨metric, unit, hsuffix⟩ := exists_suffix dialect after
      refine ⟨⟨n, metric, unit⟩, ?_, hwhole.symm⟩
      rw [Magnitude.text, hsuffix]
  broken := by
    intro cs part before mark h
    unfold magnitude at h
    generalize hscan : number cs = s at h
    cases s with
    | absent => cases h
    | found => cases h
    | broken =>
      cases h
      exact number_spells.broken hscan

/-! ## Percentages and coefficients -/

/-- **Percentages are found**, whatever follows. -/
theorem percentage_spelt (p : Percentage) (rest : List Char) :
    percentage (p.text ++ rest) = .found p.text rest := by
  have hnumber : Stops isNumberChar ('%' :: rest) := stops_cons rfl
  unfold percentage
  rw [Percentage.text, List.append_assoc, List.singleton_append,
    unsignedNumber_spelt p.number hnumber]
  rfl

theorem percentage_spells : Spells percentage Percentage.text where
  found := by
    intro cs lexeme rest h
    obtain ⟨hwhole, -⟩ := percentage_found h
    unfold percentage at h
    split at h
    · rename_i digits after hscan
      cases h
      obtain ⟨n, rfl, -⟩ := unsignedNumber_spells.found hscan
      exact ⟨⟨n⟩, rfl, hwhole.symm⟩
    · cases h
    · rename_i hother
      exact absurd h (hother _ _)
  broken := by
    intro cs part before mark h
    unfold percentage at h
    split at h
    · cases h
    · cases h
    · exact unsignedNumber_spells.broken h

/-- **Coefficients are found**, whatever follows. -/
theorem coefficient_spelt (x : Coefficient) (rest : List Char) :
    coefficient (x.text ++ rest) = .found x.text rest := by
  have hdigit : Stops Char.isDigit (['p', 'p', 'm'] ++ rest) := stops_cons rfl
  unfold coefficient
  rw [Coefficient.text, Coefficient.number, List.append_assoc, List.append_assoc,
    optional_spelt x.sign fun _ => x.digits.stops_isSign _]
  dsimp only
  rw [takeWhile_append x.digits.isDigit hdigit,
    dropWhile_append x.digits.isDigit hdigit, if_neg x.digits.ne_nil]
  rfl

theorem coefficient_spells : Spells coefficient Coefficient.text where
  found := by
    intro cs lexeme rest h
    obtain ⟨hwhole, -⟩ := coefficient_found h
    obtain ⟨sign, hsign⟩ := exists_optionalText isSign cs
    unfold coefficient at h
    dsimp only at h
    split at h
    · cases h
    · rename_i hne
      split at h
      · cases h
        refine ⟨⟨sign, Digits.front _ hne⟩, ?_, hwhole.symm⟩
        rw [Coefficient.text, Coefficient.number, hsign]
        rfl
      · cases h
  broken := by
    intro cs part before mark h
    unfold coefficient at h
    dsimp only at h
    split at h
    · cases h
    · split at h <;> cases h

/-! ## Names -/

/-- **Names are found.** -/
theorem name_spelt {rest : List Char} (x : Name) (h : Stops isNameChar rest) :
    name (x.text ++ rest) = .found x.text rest := by
  show name (x.head.val :: (x.tail ++ rest)) = _
  rw [name, if_pos x.head.property, takeWhile_append x.isNameChar h,
    dropWhile_append x.isNameChar h]
  rfl

theorem name_spells : Spells name Name.text where
  found := by
    intro cs lexeme rest h
    obtain ⟨hwhole, -⟩ := name_found h
    cases cs with
    | nil => cases h
    | cons c cs =>
      by_cases hc : c.isAlpha = true
      · rw [name, if_pos hc] at h
        cases h
        exact ⟨⟨⟨c, hc⟩, cs.takeWhile isNameChar, List.all_eq_true.mp List.all_takeWhile⟩,
          rfl, hwhole.symm⟩
      · rw [name, if_neg hc] at h
        cases h
  broken := by
    intro cs part before mark h
    cases cs with
    | nil => cases h
    | cons c cs =>
      rw [name] at h
      split at h <;> cases h

/-! ## What is not found -/

section Absent

variable {cs : List Char}

/-- Where there is no digit, there is no number without a sign. -/
theorem unsignedNumber_absent (h : Stops Char.isDigit cs) :
    unsignedNumber cs = .absent := by
  have hwhole : cs.takeWhile Char.isDigit = [] :=
    takeWhile_append (fun _ hc => absurd hc List.not_mem_nil) h
  unfold unsignedNumber
  dsimp only
  rw [if_pos hwhole]

theorem magnitude_absent {dialect : Dialect}
    (h : Stops Char.isDigit (optional isSign cs).2) : magnitude dialect cs = .absent := by
  unfold magnitude number
  rw [unsignedNumber_absent h]
  rfl

theorem percentage_absent (h : Stops Char.isDigit cs) : percentage cs = .absent := by
  unfold percentage
  rw [unsignedNumber_absent h]

theorem coefficient_absent (h : Stops Char.isDigit (optional isSign cs).2) :
    coefficient cs = .absent := by
  have hwhole : (optional isSign cs).2.takeWhile Char.isDigit = [] :=
    takeWhile_append (fun _ hc => absurd hc List.not_mem_nil) h
  unfold coefficient
  dsimp only
  rw [if_pos hwhole]

theorem name_absent (h : Stops Char.isAlpha cs) : name cs = .absent := by
  cases cs with
  | nil => rfl
  | cons c cs => rw [name, if_neg (by rw [h c rfl]; exact Bool.false_ne_true)]

/-- **No percentage is found where a coefficient is.** -/
theorem percentage_coefficient (x : Coefficient) (rest : List Char) :
    percentage (x.text ++ rest) = .absent := by
  rw [Coefficient.text, Coefficient.number]
  cases x.sign with
  | some sign =>
    refine percentage_absent (stops_cons ?_)
    cases hd : sign.val.isDigit with
    | false => rfl
    | true =>
      have hsign := sign.property
      rw [isSign_of_isDigit hd] at hsign
      cases hsign
  | none =>
    -- the digits are a number, but no percent sign follows it
    have hnumber : Stops isNumberChar (['p', 'p', 'm'] ++ rest) := stops_cons rfl
    have hscan := unsignedNumber_spelt ⟨x.digits, none, none⟩ hnumber
    have htext : (Unsigned.mk x.digits none none).text = x.digits.text := by
      simp only [Unsigned.text, Unsigned.fractionText, Unsigned.exponentText,
        List.append_nil]
    rw [htext] at hscan
    unfold percentage
    rw [optionalText, List.nil_append, List.append_assoc, hscan]
    rfl

end Absent

end WorstCase.Lexeme
