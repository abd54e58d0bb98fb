import Mathlib.Data.List.DropRight
import WorstCase.Proofs.Formula.Extents

/-!
# Reading a text that ends earlier

What the reader takes from a text, it takes from the text without its last characters as well, as long as
these come after all that it took (`readSteps_cut`). It looks at no more than one character behind a
lexeme, and asks of it only that it is *not* one that goes on; the end of the text is as good.

There is one place where a shorter text is read otherwise. A number behind a literal might be its
tolerance, and so it is scanned to its end before it is given up for want of a percent sign. Cut within
its fraction or its exponent it breaks off, and that is an error where there was none. But nothing that
goes on with a formula starts with a digit: the formula was over in front of that number, and the shorter
text is refused as the longer one is (`readSteps_digit`).
-/

namespace WorstCase

namespace Lexeme

/-! ## What is found is found without what is behind it -/

/-- **A scan that needs nothing behind the lexeme**: what it finds, it finds where less follows. -/
def FindsShort (scan : List Char → Scan) : Prop :=
  ∀ {cs lexeme rest u}, scan cs = .found lexeme rest → u <+: rest →
    scan (lexeme ++ u) = .found lexeme u

section Parts

variable {p : Char → Bool} {cs rest u : List Char}

/-- Where less follows, it goes on no more than before. -/
theorem Stops.of_isPrefix (h : Stops p rest) (hu : u <+: rest) : Stops p u := by
  obtain ⟨more, rfl⟩ := hu
  cases u with
  | nil => exact stops_nil
  | cons c u => exact stops_cons (h c rfl)

/-- What is left when characters of a kind are dropped does not go on with them. -/
theorem stops_dropWhile (p : Char → Bool) (cs : List Char) : Stops p (cs.dropWhile p) := by
  intro c hc
  have hhead := List.head?_dropWhile_not p cs
  rw [hc] at hhead
  exact hhead

/-- Characters of a kind are all that was taken, where less follows. -/
theorem takeWhile_short (hu : u <+: cs.dropWhile p) :
    (cs.takeWhile p ++ u).takeWhile p = cs.takeWhile p :=
  takeWhile_append (List.all_eq_true.mp List.all_takeWhile) ((stops_dropWhile p cs).of_isPrefix hu)

theorem dropWhile_short (hu : u <+: cs.dropWhile p) : (cs.takeWhile p ++ u).dropWhile p = u :=
  dropWhile_append (List.all_eq_true.mp List.all_takeWhile) ((stops_dropWhile p cs).of_isPrefix hu)

theorem optional_short (hu : u <+: (optional p cs).2) :
    optional p ((optional p cs).1 ++ u) = ((optional p cs).1, u) := by
  cases cs with
  | nil =>
    obtain rfl := List.prefix_nil.mp hu
    rfl
  | cons c cs =>
    by_cases hc : p c = true
    · simp only [optional, if_pos hc, List.singleton_append]
    · simp only [optional, if_neg hc, List.nil_append] at hu ⊢
      rcases List.prefix_cons_iff.mp hu with rfl | ⟨v, rfl, -⟩
      · rfl
      · simp only [if_neg hc]

/-- A prefix does not start with what the whole does not start with. -/
theorem ne_cons_of_isPrefix {c : Char} (h : ∀ v, cs ≠ c :: v) (hu : u <+: cs) : ∀ v, u ≠ c :: v := by
  rintro v rfl
  obtain ⟨more, rfl⟩ := hu
  exact h _ rfl

theorem fraction_short {part : List Char} (h : fraction cs = .ok (part, rest)) (hu : u <+: rest) :
    fraction (part ++ u) = .ok (part, u) := by
  unfold fraction at h
  split at h
  · rename_i digits
    split at h
    · cases h
    · rename_i hne
      cases h
      rw [List.cons_append, fraction, takeWhile_short hu, dropWhile_short hu, if_neg hne]
  · rename_i hpoint
    cases h
    rw [List.nil_append]
    unfold fraction
    split
    · exact absurd rfl (ne_cons_of_isPrefix hpoint hu _)
    · rfl

theorem exponent_short {part : List Char} (h : exponent cs = .ok (part, rest)) (hu : u <+: rest) :
    exponent (part ++ u) = .ok (part, u) := by
  cases cs with
  | nil =>
    cases h
    obtain rfl := List.prefix_nil.mp hu
    rfl
  | cons c cs =>
    by_cases hmark : isExponentMark c = true
    · rw [exponent, if_pos hmark] at h
      dsimp only at h
      split at h
      · cases h
      · rename_i hne
        cases h
        have hdigits : (optional isSign cs).2.takeWhile Char.isDigit ++ u <+: (optional isSign cs).2 := by
          have hwhole := List.takeWhile_append_dropWhile (p := Char.isDigit)
            (l := (optional isSign cs).2)
          conv_rhs => rw [← hwhole]
          exact (List.prefix_append_right_inj _).mpr hu
        rw [List.append_assoc, List.cons_append, exponent, if_pos hmark, optional_short hdigits]
        dsimp only
        rw [takeWhile_short hu, dropWhile_short hu, if_neg hne]
    · rw [exponent, if_neg hmark] at h
      cases h
      rw [List.nil_append]
      rcases List.prefix_cons_iff.mp hu with rfl | ⟨v, rfl, -⟩
      · rfl
      · rw [exponent, if_neg hmark]

end Parts

theorem unsignedNumber_short : FindsShort unsignedNumber := by
  intro cs lexeme rest u h hu
  unfold unsignedNumber at h
  dsimp only at h
  split at h
  · cases h
  · rename_i hne
    split at h
    · cases h
    · rename_i fractional after hfraction
      split at h
      · cases h
      · rename_i exponential last hexponent
        cases h
        have hafter : exponential ++ u <+: after := by
          rw [← exponent_append hexponent]
          exact (List.prefix_append_right_inj _).mpr hu
        have hwhole : fractional ++ (exponential ++ u) <+: cs.dropWhile Char.isDigit := by
          rw [← fraction_append hfraction]
          exact (List.prefix_append_right_inj _).mpr hafter
        unfold unsignedNumber
        dsimp only
        rw [List.append_assoc, List.append_assoc, takeWhile_short hwhole, dropWhile_short hwhole,
          if_neg hne, fraction_short hfraction hafter]
        dsimp only
        rw [exponent_short hexponent hu]

theorem number_short : FindsShort number := by
  intro cs lexeme rest u h hu
  unfold number at h
  generalize hscan : unsignedNumber (optional isSign cs).2 = s at h
  cases s with
  | absent => cases h
  | broken => cases h
  | found digits after =>
    cases h
    have hdigits : digits ++ u <+: (optional isSign cs).2 := by
      rw [← (unsignedNumber_found hscan).1]
      exact (List.prefix_append_right_inj _).mpr hu
    unfold number
    rw [List.append_assoc, optional_short hdigits]
    dsimp only
    rw [unsignedNumber_short hscan hu]
    rfl

theorem suffix_short {dialect : Dialect} {cs u : List Char} (hu : u <+: (suffix dialect cs).2) :
    suffix dialect ((suffix dialect cs).1 ++ u) = ((suffix dialect cs).1, u) := by
  unfold suffix at hu ⊢
  dsimp only at hu ⊢
  have hunit : (optional isUnitChar (optional (isPrefixChar dialect) cs).2).1 ++ u
      <+: (optional (isPrefixChar dialect) cs).2 := by
    conv_rhs => rw [← optional_append isUnitChar (optional (isPrefixChar dialect) cs).2]
    exact (List.prefix_append_right_inj _).mpr hu
  rw [List.append_assoc, optional_short hunit]
  dsimp only
  rw [optional_short hu]

theorem magnitude_short (dialect : Dialect) : FindsShort (magnitude dialect) := by
  intro cs lexeme rest u h hu
  unfold magnitude at h
  generalize hscan : number cs = s at h
  cases s with
  | absent => cases h
  | broken => cases h
  | found digits after =>
    cases h
    have hsuffix : (suffix dialect after).1 ++ u <+: after := by
      conv_rhs => rw [← suffix_append dialect after]
      exact (List.prefix_append_right_inj _).mpr hu
    unfold magnitude
    rw [List.append_assoc, number_short hscan hsuffix]
    show Scan.found _ _ = _
    rw [suffix_short hu]

theorem percentage_short : FindsShort percentage := by
  intro cs lexeme rest u h _
  obtain ⟨x, rfl, -⟩ := percentage_spells.found h
  exact percentage_spelt x u

theorem coefficient_short : FindsShort coefficient := by
  intro cs lexeme rest u h _
  obtain ⟨x, rfl, -⟩ := coefficient_spells.found h
  exact coefficient_spelt x u

theorem name_short : FindsShort name := by
  intro cs lexeme rest u h hu
  cases cs with
  | nil => cases h
  | cons c cs =>
    rw [name] at h
    split at h
    · rename_i hc
      cases h
      rw [List.cons_append, name, if_pos hc, takeWhile_short hu, dropWhile_short hu]
    · cases h

/-! ## What is absent stays so -/

/-- **A scan that finds nothing where less follows**, if it finds nothing. -/
def AbsentShort (scan : List Char → Scan) : Prop :=
  ∀ {cs u}, scan cs = .absent → u <+: cs → scan u = .absent

/-- Where there is no number without a sign, there is no digit. -/
theorem stops_of_unsignedNumber_absent {cs : List Char} (h : unsignedNumber cs = .absent) :
    Stops Char.isDigit cs := by
  unfold unsignedNumber at h
  dsimp only at h
  split at h
  · rename_i hwhole
    have hrest := stops_dropWhile Char.isDigit cs
    rwa [← List.takeWhile_append_dropWhile (p := Char.isDigit) (l := cs), hwhole, List.nil_append] 
  · split at h
    · cases h
    · split at h <;> cases h

theorem optional_isPrefix {p : Char → Bool} {cs u : List Char} (hu : u <+: cs) :
    (optional p u).2 <+: (optional p cs).2 := by
  obtain ⟨more, rfl⟩ := hu
  cases u with
  | nil => exact List.nil_prefix
  | cons c u =>
    by_cases hc : p c = true
    · simp only [List.cons_append, optional, if_pos hc]
      exact List.prefix_append _ _
    · simp only [List.cons_append, optional, if_neg hc]
      exact List.prefix_append (c :: u) more

theorem magnitude_absentShort (dialect : Dialect) : AbsentShort (magnitude dialect) := by
  intro cs u h hu
  unfold magnitude number at h
  have hscan : unsignedNumber (optional isSign cs).2 = .absent := by
    generalize unsignedNumber (optional isSign cs).2 = s at h
    cases s with
    | absent => rfl
    | broken => cases h
    | found => cases h
  exact magnitude_absent ((stops_of_unsignedNumber_absent hscan).of_isPrefix (optional_isPrefix hu))

theorem coefficient_absentShort : AbsentShort coefficient := by
  intro cs u h hu
  obtain ⟨more, rfl⟩ := hu
  cases hscan : coefficient u with
  | absent => rfl
  | broken =>
    unfold coefficient at hscan
    dsimp only at hscan
    split at hscan
    · cases hscan
    · split at hscan <;> cases hscan
  | found lexeme rest =>
    obtain ⟨x, rfl, rfl⟩ := coefficient_spells.found hscan
    rw [List.append_assoc, coefficient_spelt] at h
    cases h

theorem name_absentShort : AbsentShort name := by
  intro cs u h hu
  cases cs with
  | nil =>
    obtain rfl := List.prefix_nil.mp hu
    rfl
  | cons c cs =>
    rw [name] at h
    split at h
    · cases h
    · rename_i hc
      exact name_absent ((stops_cons (Bool.eq_false_iff.mpr hc)).of_isPrefix hu)

/-- **A percentage that is absent is not found where less follows**, though the number may break off
there. It starts with a digit then. -/
theorem percentage_ne_found {cs u : List Char} (h : percentage cs = .absent) (hu : u <+: cs) :
    percentage u = .absent ∨ (∃ part before mark, percentage u = .broken part before mark)
      ∧ u ≠ [] ∧ ¬Stops Char.isDigit cs := by
  cases hscan : percentage u with
  | absent => exact .inl rfl
  | found lexeme rest =>
    obtain ⟨more, rfl⟩ := hu
    obtain ⟨x, rfl, rfl⟩ := percentage_spells.found hscan
    rw [List.append_assoc, percentage_spelt] at h
    cases h
  | broken part before mark =>
    refine .inr ⟨⟨part, before, mark, rfl⟩, ?_, fun hstops => ?_⟩
    · rintro rfl
      cases hscan
    · rw [percentage_absent (hstops.of_isPrefix hu)] at hscan
      cases hscan

end Lexeme

/-! ## Cursors -/

open Lexeme (Spells Stops FindsShort AbsentShort stops_dropWhile)

/-- A piece at the front stays as long as the rest is long enough. -/
theorem rdrop_append {α : Type} (front : List α) {rest : List α} {n : Nat} (h : n ≤ rest.length) :
    (front ++ rest).rdrop n = front ++ rest.rdrop n := by
  rw [List.rdrop, List.length_append, Nat.add_sub_assoc h, List.take_length_add_append]
  rfl

/-- What is left at the front was there. -/
theorem rdrop_isPrefix {α : Type} (l : List α) (n : Nat) : l.rdrop n <+: l := List.take_prefix _ _

namespace Cursor

/-- **The cursor in the text without its last characters.** -/
def cut (n : Nat) (c : Cursor) : Cursor := ⟨c.position, c.rest.rdrop n⟩

variable {n : Nat} {c next : Cursor} {dialect : Dialect}

theorem cut_isPrefix (n : Nat) (c : Cursor) : (c.cut n).rest <+: c.rest := rdrop_isPrefix _ _

theorem cut_ne_nil (h : (c.cut n).rest ≠ []) : n < c.rest.length := by
  by_contra hle
  refine h (List.take_eq_nil_iff.mpr (.inl ?_))
  omega

theorem skipBlanks_cut (h : n ≤ c.skipBlanks.rest.length) :
    (c.cut n).skipBlanks = c.skipBlanks.cut n := by
  have hblanks : c.rest.rdrop n = c.rest.takeWhile ParseFault.isBlank ++ c.skipBlanks.rest.rdrop n := by
    conv_lhs => rw [← List.takeWhile_append_dropWhile (p := ParseFault.isBlank) (l := c.rest)]
    exact rdrop_append _ h
  have hprefix : c.skipBlanks.rest.rdrop n <+: c.rest.dropWhile ParseFault.isBlank :=
    rdrop_isPrefix _ _
  show Cursor.mk (c.position.after ((c.rest.rdrop n).takeWhile _)) ((c.rest.rdrop n).dropWhile _) = _
  rw [hblanks, Lexeme.takeWhile_short hprefix, Lexeme.dropWhile_short hprefix]
  rfl

theorem accept_cut {lexeme rest : List Char} (h : n ≤ (c.accept lexeme rest).2.rest.length) :
    (c.cut n).accept lexeme (rest.rdrop n)
      = ((c.accept lexeme rest).1, (c.accept lexeme rest).2.cut n) := by
  have hskip : (Cursor.mk (c.position.after lexeme) (rest.rdrop n)).skipBlanks
      = (Cursor.mk (c.position.after lexeme) rest).skipBlanks.cut n :=
    skipBlanks_cut (c := ⟨c.position.after lexeme, rest⟩) h
  unfold accept
  dsimp only [cut]
  rw [hskip]
  rfl

/-- A mark that is taken leaves enough of the text before it. -/
theorem cut_rest_eq {lexeme rest : List Char} (hrest : c.rest = lexeme ++ rest)
    (h : n ≤ (c.accept lexeme rest).2.rest.length) : (c.cut n).rest = lexeme ++ rest.rdrop n := by
  show c.rest.rdrop n = _
  rw [hrest]
  exact rdrop_append _ (h.trans (accept_length_le _ _ _))

section Scan

variable {α : Type} {scan : List Char → Scan} {spell : α → List Char}

/-- **A token is taken from the shorter text too.** -/
theorem token_cut (hshort : FindsShort scan) (hs : Spells scan spell) {t : Token}
    (h : c.token scan = .ok (some (t, next))) (hn : n ≤ next.rest.length) :
    (c.cut n).token scan = .ok (some (t, next.cut n)) := by
  unfold token at h
  generalize hscan : scan c.rest = s at h
  cases s with
  | absent => cases h
  | broken => cases h
  | found lexeme rest =>
    obtain ⟨x, rfl, hrest⟩ := hs.found hscan
    cases h
    have hfound := hshort hscan (rdrop_isPrefix rest n)
    unfold token
    rw [cut_rest_eq hrest hn, hfound]
    dsimp only
    exact congrArg (fun r => Except.ok (some r)) (accept_cut hn)

/-- No token is taken where the scan finds nothing. -/
theorem scan_absent_of_token (h : c.token scan = .ok none) : scan c.rest = .absent := by
  unfold token at h
  split at h
  · assumption
  · cases h
  · cases h

theorem token_absent_cut (habsent : AbsentShort scan) (h : c.token scan = .ok none) (n : Nat) :
    (c.cut n).token scan = .ok none :=
  token_absent (habsent (scan_absent_of_token h) (cut_isPrefix n c))

/-- **A lexeme that may be left out is taken, or the cursor stays.** -/
theorem optionalToken_cases {t : Option Token} (h : c.optionalToken scan = .ok (t, next)) :
    (∃ u, t = some u ∧ c.token scan = .ok (some (u, next)))
      ∨ t = none ∧ next = c ∧ c.token scan = .ok none := by
  unfold optionalToken at h
  obtain ⟨r, hr, h⟩ := Except.bind_eq_ok.mp h
  cases r with
  | some found =>
    cases h
    exact .inl ⟨_, rfl, hr⟩
  | none =>
    cases h
    exact .inr ⟨rfl, rfl, hr⟩

theorem optionalToken_of_token {r : Option (Token × Cursor)} (h : c.token scan = .ok r) :
    c.optionalToken scan = .ok (r.elim (none, c) fun found => (some found.1, found.2)) := by
  unfold optionalToken
  rw [h]
  cases r <;> rfl

theorem optionalToken_cut (hshort : FindsShort scan) (habsent : AbsentShort scan)
    (hs : Spells scan spell) {t : Option Token} (h : c.optionalToken scan = .ok (t, next))
    (hn : n ≤ next.rest.length) : (c.cut n).optionalToken scan = .ok (t, next.cut n) := by
  rcases optionalToken_cases h with ⟨u, rfl, htoken⟩ | ⟨rfl, rfl, htoken⟩
  · exact optionalToken_of_token (token_cut hshort hs htoken hn)
  · exact optionalToken_of_token (token_absent_cut habsent htoken n)

end Scan

/-! ## Literals -/

/-- **The tolerance that is next is so in the shorter text**, unless a number that is none breaks off. -/
theorem tolerance_cut {t : Option Token} (h : c.optionalToken Lexeme.percentage = .ok (t, next))
    (hn : n ≤ next.rest.length) :
    (c.cut n).optionalToken Lexeme.percentage = .ok (t, next.cut n)
      ∨ (t = none ∧ next = c) ∧ (∃ e, (c.cut n).optionalToken Lexeme.percentage = .error e)
        ∧ n < c.rest.length ∧ ¬Stops Char.isDigit c.rest := by
  rcases optionalToken_cases h with ⟨u, rfl, htoken⟩ | ⟨rfl, rfl, htoken⟩
  · exact .inl (optionalToken_of_token
      (token_cut Lexeme.percentage_short Lexeme.percentage_spells htoken hn))
  · rcases Lexeme.percentage_ne_found (scan_absent_of_token htoken) (cut_isPrefix n next) with
      hscan | ⟨⟨part, before, mark, hscan⟩, hne, hdigit⟩
    · exact .inl (optionalToken_of_token (token_absent hscan))
    · refine .inr ⟨⟨rfl, rfl⟩, ?_, cut_ne_nil hne, hdigit⟩
      unfold optionalToken token
      rw [hscan]
      exact ⟨_, rfl⟩

/-- **A literal is read from the shorter text too**, or a number behind it breaks off there. -/
theorem literal_cut {e : Expr Binary64} (h : c.literal dialect = .ok (some (e, next)))
    (hn : n ≤ next.rest.length) :
    (c.cut n).literal dialect = .ok (some (e, next.cut n))
      ∨ (∃ err, (c.cut n).literal dialect = .error err) ∧ n < next.rest.length
        ∧ ¬Stops Char.isDigit next.rest := by
  unfold literal at h
  obtain ⟨r, hr, h⟩ := Except.bind_eq_ok.mp h
  cases r with
  | none => cases h
  | some found =>
    obtain ⟨magnitude, c₁⟩ := found
    obtain ⟨⟨tolerance, c₂⟩, htolerance, h⟩ := Except.bind_eq_ok.mp h
    obtain ⟨⟨coefficient, c₃⟩, hcoefficient, h⟩ := Except.bind_eq_ok.mp h
    obtain ⟨l, hl, h⟩ := Except.bind_eq_ok.mp h
    cases h
    have hn₂ := hn.trans (optionalToken_length_le Lexeme.coefficient_found hcoefficient)
    have hn₁ := hn₂.trans (optionalToken_length_le Lexeme.percentage_found htolerance)
    have hmagnitude := token_cut (Lexeme.magnitude_short dialect) (Lexeme.magnitude_spells dialect) hr hn₁
    have hshort := optionalToken_cut Lexeme.coefficient_short Lexeme.coefficient_absentShort
      Lexeme.coefficient_spells hcoefficient hn
    unfold literal
    rw [hmagnitude, Except.ok_bind]
    dsimp only
    rcases tolerance_cut htolerance hn₂ with ht | ⟨⟨-, hsame⟩, ⟨err, ht⟩, hlt, hdigit⟩
    · left
      rw [ht, Except.ok_bind]
      dsimp only
      rw [hshort, Except.ok_bind]
      dsimp only
      rw [hl, Except.ok_bind]
      rfl
    · right
      rw [ht]
      refine ⟨⟨err, rfl⟩, ?_⟩
      subst hsame
      rcases optionalToken_cases hcoefficient with ⟨k, rfl, hk⟩ | ⟨rfl, rfl, -⟩
      · -- a coefficient is whole in the shorter text, and no percentage starts there
        have hcut := token_cut Lexeme.coefficient_short Lexeme.coefficient_spells hk hn
        obtain ⟨x, -, hreads⟩ := token_eq_some Lexeme.coefficient_spells hcut
        have hpercentage : Lexeme.percentage (c₂.cut n).rest = .absent := by
          rw [hreads.rest_eq, Stretch.text, List.append_assoc]
          exact Lexeme.percentage_coefficient x.value _
        rw [optionalToken_of_token (token_absent hpercentage)] at ht
        cases ht
      · exact ⟨hlt, hdigit⟩

theorem literal_absent_cut (h : c.literal dialect = .ok none) (n : Nat) :
    (c.cut n).literal dialect = .ok none := by
  unfold literal at h ⊢
  obtain ⟨r, hr, h⟩ := Except.bind_eq_ok.mp h
  cases r with
  | none =>
    rw [token_absent_cut (Lexeme.magnitude_absentShort dialect) hr]
    rfl
  | some found =>
    obtain ⟨magnitude, c₁⟩ := found
    obtain ⟨⟨tolerance, c₂⟩, -, h⟩ := Except.bind_eq_ok.mp h
    obtain ⟨⟨coefficient, c₃⟩, -, h⟩ := Except.bind_eq_ok.mp h
    obtain ⟨l, -, h⟩ := Except.bind_eq_ok.mp h
    cases h

/-! ## Operands and what goes on behind them -/

theorem var_cut {e : Expr Binary64} (h : c.var = .ok (some (e, next))) (hn : n ≤ next.rest.length) :
    (c.cut n).var = .ok (some (e, next.cut n)) := by
  unfold var at h ⊢
  obtain ⟨r, hr, h⟩ := Except.bind_eq_ok.mp h
  cases r with
  | none => cases h
  | some found =>
    cases h
    rw [token_cut Lexeme.name_short Lexeme.name_spells hr hn]
    rfl

theorem var_absent_cut (h : c.var = .ok none) (n : Nat) : (c.cut n).var = .ok none := by
  unfold var at h ⊢
  obtain ⟨r, hr, h⟩ := Except.bind_eq_ok.mp h
  cases r with
  | none =>
    rw [token_absent_cut Lexeme.name_absentShort hr]
    rfl
  | some found => cases h

/-- **An operand is read from the shorter text too**, or a number behind a literal breaks off there. -/
theorem operand_cut {o : Operand} (h : c.operand dialect = .ok (some (o, next)))
    (hn : n ≤ next.rest.length) :
    (c.cut n).operand dialect = .ok (some (o, next.cut n))
      ∨ (∃ err, (c.cut n).operand dialect = .error err) ∧ n < next.rest.length
        ∧ (∃ e, o = .atom e) ∧ ¬Stops Char.isDigit next.rest := by
  unfold operand at h
  obtain ⟨r, hr, h⟩ := Except.bind_eq_ok.mp h
  cases r with
  | some found =>
    cases h
    unfold operand
    rcases literal_cut hr hn with hl | ⟨⟨err, hl⟩, hlt, hdigit⟩
    · rw [hl]
      exact .inl rfl
    · rw [hl]
      exact .inr ⟨⟨err, rfl⟩, hlt, ⟨_, rfl⟩, hdigit⟩
  | none =>
    left
    obtain ⟨s, hs, h⟩ := Except.bind_eq_ok.mp h
    unfold operand
    rw [literal_absent_cut hr, Except.ok_bind]
    dsimp only
    cases s with
    | some found =>
      cases h
      rw [var_cut hs hn]
      rfl
    | none =>
      rw [var_absent_cut hs, Except.ok_bind]
      dsimp only at h ⊢
      split at h
      · rename_i rest hrest
        cases h
        rw [cut_rest_eq (show c.rest = ['('] ++ rest from hrest) hn, List.singleton_append]
        exact congrArg (fun r : Token × Cursor => Except.ok (some (Operand.opening r.1, r.2)))
          (accept_cut hn)
      · cases h

theorem requiredNumber_cut {missing : ParseFault} {t : Token}
    (h : c.requiredNumber missing = .ok (t, next)) (hn : n ≤ next.rest.length) :
    (c.cut n).requiredNumber missing = .ok (t, next.cut n) := by
  unfold requiredNumber at h ⊢
  obtain ⟨r, hr, h⟩ := Except.bind_eq_ok.mp h
  cases r with
  | none => cases h
  | some found =>
    cases h
    rw [token_cut Lexeme.number_short Lexeme.number_spells hr hn]
    rfl

theorem exponent_cut {sign : Token} {value : Node Binary64} (h : c.exponent sign = .ok (value, next))
    (hn : n ≤ next.rest.length) : (c.cut n).exponent sign = .ok (value, next.cut n) := by
  unfold exponent at h ⊢
  obtain ⟨⟨t, c₁⟩, ht, h⟩ := Except.bind_eq_ok.mp h
  obtain ⟨v, hv, h⟩ := Except.bind_eq_ok.mp h
  cases h
  rw [requiredNumber_cut ht hn, Except.ok_bind]
  dsimp only
  rw [hv]
  rfl

theorem temperature_cut {sign : Token} {value : Node Binary64}
    (h : c.temperature sign = .ok (value, next)) (hn : n ≤ next.rest.length) :
    (c.cut n).temperature sign = .ok (value, next.cut n) := by
  unfold temperature at h ⊢
  obtain ⟨⟨t, c₁⟩, ht, h⟩ := Except.bind_eq_ok.mp h
  dsimp only at h
  obtain ⟨v, hv, h⟩ := Except.bind_eq_ok.mp h
  by_cases hunit : ∃ rest, c₁.rest = ['°', 'C'] ++ rest
  · obtain ⟨rest, hrest⟩ := hunit
    rw [hrest] at h
    cases h
    change n ≤ (c₁.accept ['°', 'C'] rest).2.rest.length at hn
    have hn₁ := hn.trans (Nat.le_of_lt (accept_length_lt ['°', 'C'] hrest (List.cons_ne_nil _ _)))
    rw [requiredNumber_cut ht hn₁, Except.ok_bind]
    dsimp only
    rw [hv, cut_rest_eq hrest hn]
    show Except.ok (Node.mk v (t.extent.through ((c₁.cut n).accept _ (rest.rdrop n)).1.extent),
      ((c₁.cut n).accept _ (rest.rdrop n)).2) = _
    rw [accept_cut hn]
    rfl
  · split at h
    · rename_i rest hrest
      exact absurd ⟨rest, hrest⟩ hunit
    · cases h
      rw [requiredNumber_cut ht hn, Except.ok_bind]
      dsimp only
      rw [hv]
      split
      · rename_i rest hrest
        obtain ⟨more, hmore⟩ := cut_isPrefix n c₁
        rw [hrest] at hmore
        exact absurd ⟨_, hmore.symm⟩ hunit
      · rfl

/-- An operator that is next is so where less follows. -/
theorem binaryOperator?_short {cs lexeme rest u : List Char} {op : BinaryOperator}
    (h : binaryOperator? cs = some (op, lexeme, rest)) (hu : u <+: rest) :
    binaryOperator? (lexeme ++ u) = some (op, lexeme, u) := by
  unfold binaryOperator? at h
  split at h <;> cases h
  case h_5 =>
    -- one stroke is an operator by itself where no second one follows
    rename_i hstroke
    have hne := Lexeme.ne_cons_of_isPrefix hstroke hu
    cases u with
    | nil => rfl
    | cons d v =>
      have hd : d ≠ '/' := fun hd => hne v (congrArg (· :: v) hd)
      simp [binaryOperator?]
  all_goals rfl

/-- No operator starts with any other character. -/
theorem binaryOperator?_eq_none {cs : List Char} :
    binaryOperator? cs = none ↔ Stops ['+', '-', '*', '/', '|'].contains cs := by
  unfold binaryOperator?
  split <;> simp [Stops]
  rename_i hadd hsub hmul _ hdiv hparallel
  rintro c hc
  obtain ⟨rest, rfl⟩ : ∃ rest, cs = c :: rest := List.head?_eq_some_iff.mp hc
  refine ⟨?_, ?_, ?_, ?_, ?_⟩ <;> rintro rfl
  · exact hadd rest rfl
  · exact hsub rest rfl
  · exact hmul rest rfl
  · exact hdiv rest rfl
  · exact hparallel rest rfl

/-- Behind an operand, the shorter text goes on as the longer one does. -/
theorem continuation_cut {k : Continuation} (h : c.continuation = .ok (some (k, next)))
    (hn : n ≤ next.rest.length) : (c.cut n).continuation = .ok (some (k, next.cut n)) := by
  unfold continuation at h
  split at h
  · rename_i op lexeme rest hop
    cases h
    obtain ⟨hrest, -⟩ := binaryOperator?_eq_some hop
    unfold continuation
    rw [cut_rest_eq hrest hn, binaryOperator?_short hop (rdrop_isPrefix rest n)]
    dsimp only
    rw [accept_cut hn]
    rfl
  · rename_i hop
    have hshort : binaryOperator? (c.cut n).rest = none :=
      binaryOperator?_eq_none.mpr ((binaryOperator?_eq_none.mp hop).of_isPrefix (cut_isPrefix n c))
    unfold continuation
    rw [hshort]
    split at h
    · rename_i rest hrest
      obtain ⟨⟨value, c₁⟩, hvalue, h⟩ := Except.bind_eq_ok.mp h
      cases h
      change Cursor.exponent (c.accept ['^'] rest).1 (c.accept ['^'] rest).2 = _ at hvalue
      have hn₁ := hn.trans (Nat.le_of_lt (exponent_length_lt hvalue))
      rw [cut_rest_eq (show c.rest = ['^'] ++ rest from hrest) hn₁]
      show (do
        let r ← Cursor.exponent ((c.cut n).accept ['^'] (rest.rdrop n)).1
          ((c.cut n).accept ['^'] (rest.rdrop n)).2
        pure (some (Continuation.exponent r.1, r.2))) = _
      rw [accept_cut hn₁]
      dsimp only
      rw [exponent_cut hvalue hn]
      rfl
    · rename_i rest hrest
      obtain ⟨⟨value, c₁⟩, hvalue, h⟩ := Except.bind_eq_ok.mp h
      cases h
      change Cursor.temperature (c.accept ['@'] rest).1 (c.accept ['@'] rest).2 = _ at hvalue
      have hn₁ := hn.trans (Nat.le_of_lt (temperature_length_lt hvalue))
      rw [cut_rest_eq (show c.rest = ['@'] ++ rest from hrest) hn₁]
      show (do
        let r ← Cursor.temperature ((c.cut n).accept ['@'] (rest.rdrop n)).1
          ((c.cut n).accept ['@'] (rest.rdrop n)).2
        pure (some (Continuation.temperature r.1, r.2))) = _
      rw [accept_cut hn₁]
      dsimp only
      rw [temperature_cut hvalue hn]
      rfl
    · cases h

/-- **Nothing else goes on with a formula** than what starts with one of its marks. -/
theorem continuation_eq_none :
    c.continuation = .ok none ↔ Stops ['+', '-', '*', '/', '|', '^', '@'].contains c.rest := by
  have hmarks : Stops ['+', '-', '*', '/', '|', '^', '@'].contains c.rest
      ↔ binaryOperator? c.rest = none
        ∧ (∀ rest, c.rest ≠ '^' :: rest) ∧ ∀ rest, c.rest ≠ '@' :: rest := by
    rw [binaryOperator?_eq_none]
    cases c.rest with
    | nil => simp [Stops]
    | cons d rest => simp [Stops]; tauto
  rw [hmarks]
  unfold continuation
  split
  · rename_i hop
    simp [hop, pure, Except.pure]
  · rename_i hop
    split
    · rename_i rest hrest
      refine iff_of_false (fun h => ?_) fun h => h.2.1 rest hrest
      obtain ⟨r, -, h⟩ := Except.bind_eq_ok.mp h
      cases h
    · rename_i rest hrest
      refine iff_of_false (fun h => ?_) fun h => h.2.2 rest hrest
      obtain ⟨r, -, h⟩ := Except.bind_eq_ok.mp h
      cases h
    · rename_i hpower hat
      exact iff_of_true rfl ⟨hop, hpower, hat⟩

theorem continuation_absent_cut (h : c.continuation = .ok none) (n : Nat) :
    (c.cut n).continuation = .ok none :=
  continuation_eq_none.mpr ((continuation_eq_none.mp h).of_isPrefix (cut_isPrefix n c))

end Cursor

/-! ## Steps -/

section Steps

variable {n : Nat} {dialect : Dialect} {atStart : ParseFault} {p q : Progress} {c next : Cursor}
  {e x : Expr Binary64}

/-- The formula is over where the reader stands. -/
theorem step_eq_done (h : step dialect atStart p c = .done e next) :
    next = c ∧ ∃ x, p.operand = some x ∧ c.continuation = .ok none ∧ stepClose p x c = .done e c := by
  unfold step at h
  split at h
  · unfold stepOperand at h
    split at h <;> cases h
  · rename_i x hx
    unfold stepContinuation at h
    split at h
    · cases h
    · cases h
    · cases h
    · cases h
    · rename_i hnone
      have hclose := h
      unfold stepClose at h
      split at h
      · cases h
        exact ⟨rfl, x, hx, hnone, hclose⟩
      · split at h <;> cases h

/-- **A bracket that closes does so in the shorter text.** -/
theorem stepClose_cut (h : stepClose p e c = .more q next) (hn : n ≤ next.rest.length) :
    stepClose p e (c.cut n) = .more q (next.cut n) := by
  unfold stepClose at h ⊢
  split at h
  · cases h
  · split at h
    · rename_i rest hrest
      cases h
      rename_i bracket pending outer _ _
      rw [Cursor.cut_rest_eq (show c.rest = [')'] ++ rest from hrest) hn]
      show Step.more ⟨pending, outer, some (.group
          (bracket.extent.through ((c.cut n).accept [')'] (rest.rdrop n)).1.extent) _)⟩
        ((c.cut n).accept [')'] (rest.rdrop n)).2 = _
      rw [Cursor.accept_cut hn]
      rfl
    · cases h

/-- The formula is over in the shorter text as well. -/
theorem step_done_cut (h : step dialect atStart p c = .done e next) (n : Nat) :
    step dialect atStart p (c.cut n) = .done e (next.cut n) := by
  obtain ⟨rfl, x, hx, hnone, hclose⟩ := step_eq_done h
  unfold step
  rw [hx]
  dsimp only
  unfold stepContinuation
  rw [Cursor.continuation_absent_cut hnone]
  dsimp only
  unfold stepClose at hclose ⊢
  split at hclose
  · cases hclose
    rfl
  · split at hclose <;> cases hclose

/-- **A step goes on in the shorter text too**, or fails there at a number that is behind an operand. -/
theorem step_more_cut (h : step dialect atStart p c = .more q next) (hn : n ≤ next.rest.length) :
    step dialect atStart p (c.cut n) = .more q (next.cut n)
      ∨ (∃ err, step dialect atStart p (c.cut n) = .failed err) ∧ n < next.rest.length
        ∧ (∃ x, q.operand = some x) ∧ ¬Stops Char.isDigit next.rest := by
  unfold step at h ⊢
  split at h
  · unfold stepOperand at h ⊢
    split at h
    · cases h
    · cases h
    · rename_i hoperand
      cases h
      rcases Cursor.operand_cut hoperand hn with hcut | ⟨⟨err, hcut⟩, hlt, -, hdigit⟩
      · rw [hcut]
        exact .inl rfl
      · rw [hcut]
        exact .inr ⟨⟨err, rfl⟩, hlt, ⟨_, rfl⟩, hdigit⟩
    · rename_i hoperand
      cases h
      rcases Cursor.operand_cut hoperand hn with hcut | ⟨-, -, ⟨x, hx⟩, -⟩
      · rw [hcut]
        exact .inl rfl
      · cases hx
  · left
    unfold stepContinuation at h ⊢
    split at h
    · cases h
    · rename_i hcontinuation
      cases h
      rw [Cursor.continuation_cut hcontinuation hn]
    · rename_i hcontinuation
      cases h
      rw [Cursor.continuation_cut hcontinuation hn]
    · rename_i hcontinuation
      cases h
      rw [Cursor.continuation_cut hcontinuation hn]
    · rename_i hcontinuation
      rw [Cursor.continuation_absent_cut hcontinuation]
      exact stepClose_cut h hn

/-! ## Reading -/

/-- Reading leaves no more text than there was. -/
theorem readSteps_length_le (h : readSteps dialect atStart p c = .ok (e, next)) :
    next.rest.length ≤ c.rest.length := by
  induction p, c using readSteps.induct dialect atStart with
  | case1 p c q m hstep ih =>
    rw [readSteps_of_more hstep] at h
    exact (ih h).trans (Nat.le_of_lt (step_length_lt hstep))
  | case2 p c y m hstep =>
    rw [readSteps_of_done hstep] at h
    cases h
    rw [(step_eq_done hstep).1]
  | case3 p c err hstep =>
    rw [readSteps_of_failed hstep] at h
    cases h

/-- **Behind an operand the formula is over** unless one of the marks is next that go on with it, or a
bracket that closes. -/
theorem readSteps_ended (hx : p.operand = some x)
    (hends : Stops ['+', '-', '*', '/', '|', '^', '@', ')'].contains c.rest)
    (h : readSteps dialect atStart p c = .ok (e, next)) : next = c := by
  have hcontinuation : c.continuation = .ok none :=
    Cursor.continuation_eq_none.mpr (hends.mono fun d hd => by
      simp only [List.contains_iff_mem, List.mem_cons, List.not_mem_nil, or_false] at hd ⊢
      tauto)
  have hstep : step dialect atStart p c = stepClose p x c := by
    unfold step
    rw [hx]
    dsimp only
    unfold stepContinuation
    rw [hcontinuation]
  have hclose : ∀ rest, c.rest ≠ ')' :: rest := by
    rintro rest hrest
    cases hends ')' (by rw [hrest]; rfl)
  unfold stepClose at hstep
  split at hstep
  · rw [readSteps_of_done hstep] at h
    cases h
    rfl
  · split at hstep
    · rename_i rest hrest
      exact absurd hrest (hclose rest)
    · rw [readSteps_of_failed hstep] at h
      cases h

/-- A number goes on with no formula by itself. -/
theorem readSteps_digit (hx : p.operand = some x) (hdigit : ¬Stops Char.isDigit c.rest)
    (h : readSteps dialect atStart p c = .ok (e, next)) : next = c := by
  refine readSteps_ended hx (fun d hd => Bool.eq_false_iff.mpr fun hmark => hdigit ?_) h
  intro d' hd'
  obtain rfl : d = d' := Option.some.inj (hd.symm.trans hd')
  have hmarks : ['+', '-', '*', '/', '|', '^', '@', ')'].any Char.isDigit = false := by decide
  exact Lexeme.eq_false_of_any hmarks (List.contains_iff_mem.mp hmark)

/-- **What is read from a text is read from the text without its last characters**, if these come behind
all that was read. The exception is a text that is left in the middle of a number behind the formula. By
induction on the steps: once a step of the shorter text fails, the formula is over in the longer one. -/
theorem readSteps_cut (h : readSteps dialect atStart p c = .ok (e, next)) (hn : n ≤ next.rest.length) :
    readSteps dialect atStart p (c.cut n) = .ok (e, next.cut n)
      ∨ (∃ err, readSteps dialect atStart p (c.cut n) = .error err) ∧ n < next.rest.length := by
  induction p, c using readSteps.induct dialect atStart with
  | case1 p c q m hstep ih =>
    rw [readSteps_of_more hstep] at h
    rcases step_more_cut hstep (hn.trans (readSteps_length_le h)) with
      hcut | ⟨⟨err, hcut⟩, hlt, ⟨x, hx⟩, hdigit⟩
    · rw [readSteps_of_more hcut]
      exact ih h
    · obtain rfl := readSteps_digit hx hdigit h
      exact .inr ⟨⟨err, readSteps_of_failed hcut⟩, hlt⟩
  | case2 p c y m hstep =>
    rw [readSteps_of_done hstep] at h
    cases h
    exact .inl (readSteps_of_done (step_done_cut hstep n))
  | case3 p c err hstep =>
    rw [readSteps_of_failed hstep] at h
    cases h

end Steps

end WorstCase
