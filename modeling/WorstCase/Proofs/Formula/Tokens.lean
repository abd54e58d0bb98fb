import WorstCase.Proofs.Except
import WorstCase.Proofs.Formula.Scanning
import WorstCase.Proofs.Formula.Written

/-!
# Tokens of a written formula

What a cursor takes from the text, told as pieces of a written formula.
`Cursor.Reads` is what all of it has in common: the text at the cursor is the
text that was taken and then the text at the next cursor, and the position moves
by what was taken. Such pieces can be put one after the other, so it is enough
to know of each token, mark and literal what it is when it is read.

A literal is taken apart again once it has been read. That this gives back the
number, the prefix and the unit which the scan put together is
`MagnitudeParts.split_text`: a number ends in a digit, and no prefix is a unit.
-/

namespace WorstCase

open Lexeme (Spells Stops CharOf optionalText isUnitChar isPrefixChar Digits
  Unsigned Numeral Magnitude Percentage Coefficient Name)

/-! ## Blanks -/

/-- The blanks at the start of a text. -/
def Blanks.front (cs : List Char) : Blanks :=
  ⟨cs.takeWhile ParseFault.isBlank, List.all_eq_true.mp List.all_takeWhile⟩

/-- **The text at a cursor goes on at the next one**, behind the text given. -/
structure Cursor.Reads (c : Cursor) (text : List Char) (next : Cursor) : Prop where
  rest_eq : c.rest = text ++ next.rest
  position_eq : next.position = c.position.after text

namespace Cursor

variable {c m n : Cursor} {text more : List Char}

/-- What is read in two pieces is read. -/
theorem Reads.trans (h : c.Reads text m) (hmore : m.Reads more n) :
    c.Reads (text ++ more) n where
  rest_eq := by rw [h.rest_eq, hmore.rest_eq, List.append_assoc]
  position_eq := by rw [hmore.position_eq, h.position_eq, Position.after_append]

/-- Where blanks are skipped, they are read. -/
theorem skipBlanks_reads (c : Cursor) :
    c.Reads (Blanks.front c.rest).val c.skipBlanks where
  rest_eq := List.takeWhile_append_dropWhile.symm
  position_eq := rfl

/-- Blanks are skipped, and nothing behind them. -/
theorem skipBlanks_append (space : Blanks) {rest : List Char}
    (h : Stops ParseFault.isBlank rest) (p : Position) :
    (Cursor.mk p (space.val ++ rest)).skipBlanks = ⟨p.after space.val, rest⟩ := by
  show Cursor.mk (p.after ((space.val ++ rest).takeWhile ParseFault.isBlank))
    ((space.val ++ rest).dropWhile ParseFault.isBlank) = _
  rw [Lexeme.takeWhile_append space.property h, Lexeme.dropWhile_append space.property h]

/-! ## Tokens -/

/-- **A lexeme is taken with the blanks after it.** -/
theorem accept_reads (lexeme : List Char) {rest : List Char}
    (h : c.rest = lexeme ++ rest) :
    ∃ space : Blanks,
      (c.accept lexeme rest).1 = Stretch.token ⟨lexeme, space⟩ c.position
        ∧ c.Reads (Stretch.text ⟨lexeme, space⟩) (c.accept lexeme rest).2 := by
  have hspace := skipBlanks_reads ⟨c.position.after lexeme, rest⟩
  refine ⟨Blanks.front rest, ?_, ?_⟩
  · show Token.mk lexeme ⟨_, ⟨_, (c.position.after lexeme).after _⟩⟩ = _
    rw [← Position.after_append]
    rfl
  · exact Reads.trans ⟨h, rfl⟩ hspace

/-- A lexeme with blanks after it is taken, and nothing behind the blanks. -/
theorem accept_append (s : Stretch) {rest : List Char}
    (h : Stops ParseFault.isBlank rest) (p : Position) :
    (Cursor.mk p (s.text ++ rest)).accept s.body (s.space.val ++ rest)
      = (s.token p, ⟨p.after s.text, rest⟩) := by
  have hnext := skipBlanks_append s.space h (p.after s.body)
  unfold accept
  dsimp only
  rw [hnext]
  rw [← Position.after_append]
  rfl

section Scan

variable {α : Type} {scan : List Char → Scan} {spell : α → List Char}

/-- **What a scan finds is taken as a token.** -/
theorem token_eq_some (hs : Spells scan spell) {t : Token} {next : Cursor}
    (h : c.token scan = .ok (some (t, next))) :
    ∃ x : Spaced α, t = (x.stretch spell).token c.position
      ∧ c.Reads (x.stretch spell).text next := by
  unfold token at h
  generalize hscan : scan c.rest = s at h
  cases s with
  | absent => cases h
  | broken => cases h
  | found lexeme rest =>
    obtain ⟨x, rfl, hrest⟩ := hs.found hscan
    obtain ⟨space, htoken, hreads⟩ := accept_reads _ hrest
    cases h
    exact ⟨⟨x, space⟩, htoken, hreads⟩

/-- A lexeme that the scan finds in front of its blanks is taken with them. -/
theorem token_append (x : Spaced α) {rest : List Char}
    (h : scan ((x.stretch spell).text ++ rest)
      = .found (spell x.value) (x.space.val ++ rest))
    (hrest : Stops ParseFault.isBlank rest) (p : Position) :
    (Cursor.mk p ((x.stretch spell).text ++ rest)).token scan
      = .ok (some ((x.stretch spell).token p, ⟨p.after (x.stretch spell).text, rest⟩)) := by
  unfold token
  dsimp only
  rw [h]
  exact congrArg (fun r => Except.ok (some r)) (accept_append (x.stretch spell) hrest p)

/-- Where a scan finds nothing, no token is taken. -/
theorem token_absent (h : scan c.rest = .absent) : c.token scan = .ok none := by
  unfold token
  rw [h]

end Scan

end Cursor

/-! ## The parts of a magnitude -/

namespace Lexeme

/-- Digits end in a digit. -/
theorem Digits.exists_last (x : Digits) :
    ∃ front d, x.text = front ++ [d] ∧ d.isDigit = true := by
  have hlast := List.dropLast_concat_getLast x.ne_nil
  exact ⟨_, _, hlast.symm, x.isDigit _ (List.getLast_mem x.ne_nil)⟩

/-- A number ends in a digit: in the last one of its last part. -/
theorem Unsigned.exists_last (n : Unsigned) :
    ∃ front d, n.text = front ++ [d] ∧ d.isDigit = true := by
  have hlast : ∀ (before : List Char) (digits : Digits),
      ∃ front d, before ++ digits.text = front ++ [d] ∧ d.isDigit = true := by
    intro before digits
    obtain ⟨front, d, hdigits, hd⟩ := digits.exists_last
    exact ⟨before ++ front, d, by rw [hdigits, List.append_assoc], hd⟩
  unfold text exponentText fractionText
  cases n.exponent with
  | some part =>
    have h := hlast (n.whole.text ++ n.fractionText
      ++ part.mark.val :: optionalText part.sign) part.digits
    rw [List.append_assoc] at h
    exact h
  | none =>
    rw [List.append_nil]
    cases n.fraction with
    | some digits =>
      have h := hlast (n.whole.text ++ ['.']) digits
      rw [List.append_assoc] at h
      exact h
    | none =>
      rw [List.append_nil]
      exact n.whole.exists_last

theorem Numeral.exists_last (n : Numeral) :
    ∃ front d, n.text = front ++ [d] ∧ d.isDigit = true := by
  obtain ⟨front, d, hn, hd⟩ := n.unsigned.exists_last
  exact ⟨optionalText n.sign ++ front, d, by rw [text, hn, List.append_assoc], hd⟩

/-- A digit is no unit. -/
theorem isUnitChar_of_isDigit {c : Char} (h : c.isDigit = true) :
    isUnitChar c = false := by
  have hunits : unitChars.any Char.isDigit = false := by decide
  rw [Bool.eq_false_iff]
  intro hc
  rw [eq_false_of_any hunits (mem_unitChars hc)] at h
  cases h

/-- A prefix is no digit. -/
theorem isDigit_of_isPrefixChar {dialect : Dialect} {c : Char}
    (h : isPrefixChar dialect c = true) : c.isDigit = false :=
  eq_false_of_any (show prefixChars.any Char.isDigit = false by decide) (mem_prefixChars h)

/-- A prefix is no unit. -/
theorem isUnitChar_of_isPrefixChar {dialect : Dialect} {c : Char}
    (h : isPrefixChar dialect c = true) : isUnitChar c = false := by
  rw [Bool.eq_false_iff]
  intro hc
  rw [isPrefixChar_of_isUnitChar hc] at h
  cases h

end Lexeme

namespace MagnitudeParts

variable {p : Char → Bool}

theorem popLast_of_pos {c : Char} (h : p c = true) (front : List Char) :
    popLast p (front ++ [c]) = (front, some c) := by
  unfold popLast
  rw [List.getLast?_concat]
  dsimp only
  rw [if_pos h, List.dropLast_concat]

theorem popLast_of_neg {c : Char} (h : p c = false) (front : List Char) :
    popLast p (front ++ [c]) = (front ++ [c], none) := by
  unfold popLast
  rw [List.getLast?_concat]
  dsimp only
  rw [if_neg (by rw [h]; exact Bool.false_ne_true)]

/-- **The parts of a magnitude are those it was put together from.** -/
theorem split_text {dialect : Dialect} (m : Magnitude dialect) :
    split m.text = ⟨m.number.text, m.metric.map Subtype.val, m.unit.map Subtype.val⟩ := by
  obtain ⟨front, d, hnumber, hd⟩ := m.number.exists_last
  -- the prefix is told from the number before it
  have hmetric : popLast (fun c => !c.isDigit) (m.number.text ++ optionalText m.metric)
      = (m.number.text, m.metric.map Subtype.val) := by
    cases m.metric with
    | some c =>
      exact popLast_of_pos (by rw [Lexeme.isDigit_of_isPrefixChar c.property]; rfl) _
    | none =>
      rw [optionalText, List.append_nil, hnumber]
      exact popLast_of_neg (by rw [hd]; rfl) front
  -- the unit is told from what is before it, a prefix or a digit
  have hunit : popLast isUnitChar m.text
      = (m.number.text ++ optionalText m.metric, m.unit.map Subtype.val) := by
    rw [Magnitude.text, ← List.append_assoc]
    cases m.unit with
    | some u => exact popLast_of_pos u.property _
    | none =>
      rw [optionalText, List.append_nil]
      cases m.metric with
      | some c => exact popLast_of_neg (Lexeme.isUnitChar_of_isPrefixChar c.property) _
      | none =>
        rw [optionalText, List.append_nil, hnumber]
        exact popLast_of_neg (Lexeme.isUnitChar_of_isDigit hd) front
  unfold split
  rw [hunit]
  dsimp only
  rw [hmetric]

end MagnitudeParts

/-! ## Literals -/

/-- The position before a character is as far back as the character is long,
on the same line. -/
theorem Position.back_next {c : Char} (h : c ≠ '\n') (p : Position) :
    (p.next c).back c.utf8Size = p := by
  unfold next
  rw [if_neg h]
  show Position.mk (p.offset + c.utf8Size - c.utf8Size) p.line
    (p.column + c.utf8Size - c.utf8Size) = p
  rw [Nat.add_sub_cancel, Nat.add_sub_cancel]

/-- The unit of a magnitude's token is where the magnitude has it. -/
theorem Literal.unitNode_token {dialect : Dialect} (x : Spaced (Magnitude dialect))
    (p : Position) :
    Literal.unitNode ((x.stretch Magnitude.text).token p)
        (MagnitudeParts.split x.value.text)
      = x.value.unit.map fun c => ⟨Lexeme.unitOf c, Stretch.extent ⟨[c.val], x.space⟩
          (p.after (x.value.number.text ++ optionalText x.value.metric))⟩ := by
  obtain ⟨⟨number, metric, unit⟩, space⟩ := x
  rw [MagnitudeParts.split_text]
  cases unit with
  | none => rfl
  | some c =>
    have hunit : UnitSymbol.ofChar? c.val = some (Lexeme.unitOf c) :=
      (Option.some_get c.property).symm
    have hne : c.val ≠ '\n' := by
      intro hc
      have hfalse : isUnitChar '\n' = true := hc ▸ c.property
      cases hfalse
    have hstop : p.after (Magnitude.text ⟨number, metric, some c⟩)
        = (p.after (number.text ++ optionalText metric)).next c.val := by
      show p.after (number.text ++ (optionalText metric ++ [c.val])) = _
      rw [← List.append_assoc, Position.after_append]
      rfl
    show (UnitSymbol.ofChar? c.val).map _ = some _
    rw [hunit]
    refine congrArg (fun extent => some (Node.mk (Lexeme.unitOf c) extent)) ?_
    show Extent.mk ⟨Position.back (p.after (Magnitude.text _)) c.val.utf8Size,
        p.after (Magnitude.text _)⟩
      ⟨p.after (Magnitude.text _), p.after (Magnitude.text _ ++ space.val)⟩ = _
    rw [Position.after_append, hstop, Position.back_next hne]
    rfl

/-- A token's value in range is the value of its number. -/
theorem Token.readFinite_eq_ok {t : Token} {text : List Char}
    {fault : Span → ParseFault} {value : Binary64} :
    t.readFinite text fault = .ok value
      ↔ value = readNumber text ∧ (readNumber text).isFinite = true := by
  unfold Token.readFinite
  dsimp only
  by_cases h : (readNumber text).isFinite = true
  · rw [if_pos h]
    constructor
    · rintro ⟨⟩
      exact ⟨rfl, h⟩
    · rintro ⟨rfl, -⟩
      rfl
  · rw [if_neg h]
    constructor
    · rintro ⟨⟩
    · rintro ⟨-, hfinite⟩
      exact absurd hfinite h

/-- A tolerance in range is the number written before its sign. -/
theorem Token.readFinite_tolerance_eq_ok {t : Spaced Percentage} {p : Position}
    {value : Binary64} :
    ((t.stretch Percentage.text).token p).readFinite
        ((t.stretch Percentage.text).token p).text.dropLast .toleranceOutOfRange = .ok value
      ↔ value = readNumber t.value.number.text
        ∧ (readNumber t.value.number.text).isFinite = true := by
  rw [show ((t.stretch Percentage.text).token p).text.dropLast = t.value.number.text from
    List.dropLast_concat]
  exact readFinite_eq_ok

/-- What is in front of the last three characters of a coefficient is its whole number. -/
theorem Lexeme.Coefficient.dropLast_text (x : Coefficient) :
    x.text.dropLast.dropLast.dropLast = x.number := by
  rw [text, show x.number ++ ['p', 'p', 'm'] = x.number ++ ['p'] ++ ['p'] ++ ['m'] by
      simp only [List.append_assoc, List.cons_append, List.nil_append],
    List.dropLast_concat, List.dropLast_concat, List.dropLast_concat]

/-- A coefficient in range is the whole number written. -/
theorem Token.readCoefficient_eq_ok {x : Spaced Coefficient} {p : Position}
    {value : Int} :
    ((x.stretch Coefficient.text).token p).readCoefficient = .ok value
      ↔ value = x.value.value
        ∧ -0x80000000 ≤ x.value.value ∧ x.value.value < 0x80000000 := by
  have hvalue : signedValue ((x.stretch Coefficient.text).token p).text.dropLast.dropLast.dropLast
      = x.value.value := congrArg signedValue x.value.dropLast_text
  unfold Token.readCoefficient
  dsimp only
  rw [hvalue]
  by_cases h : -0x80000000 ≤ x.value.value ∧ x.value.value < 0x80000000
  · rw [if_pos h]
    constructor
    · rintro ⟨⟩
      exact ⟨rfl, h⟩
    · rintro ⟨rfl, -⟩
      rfl
  · rw [if_neg h]
    constructor
    · rintro ⟨⟩
    · rintro ⟨-, hfits⟩
      exact absurd hfits h

/-- **An optional value is read from an optional token** if it is read from the
token, where there is one. -/
theorem Literal.readOptional_eq_ok {α β : Type} {read : Token → Except ParseError β}
    {token : α → Token} {value : α → β} {InRange : α → Prop}
    (hread : ∀ x v, read (token x) = .ok v ↔ v = value x ∧ InRange x)
    {o : Option α} {v : Option (Node β)} :
    Literal.readOptional read (o.map token) = .ok v
      ↔ v = o.map (fun x => (token x).node (value x)) ∧ ∀ x, o = some x → InRange x := by
  cases o with
  | none =>
    show Except.ok none = Except.ok v ↔ _
    constructor
    · rintro ⟨⟩
      exact ⟨rfl, fun _ hx => nomatch hx⟩
    · rintro ⟨rfl, -⟩
      rfl
  | some x =>
    show (read (token x)).map _ = .ok v ↔ _
    rw [Except.map_eq_ok]
    constructor
    · rintro ⟨w, hw, rfl⟩
      obtain ⟨rfl, hrange⟩ := (hread x w).mp hw
      refine ⟨rfl, ?_⟩
      rintro y ⟨⟩
      exact hrange
    · rintro ⟨rfl, hrange⟩
      exact ⟨value x, (hread x _).mpr ⟨rfl, hrange x rfl⟩, rfl⟩

/-- The prefix of a magnitude is the one that was written. -/
theorem Literal.prefixFactor_split (m : Magnitude dialect) :
    Literal.prefixFactor (MagnitudeParts.split m.text) = Lexeme.prefixFactor m.metric := by
  rw [MagnitudeParts.split_text]
  unfold Literal.prefixFactor Lexeme.prefixFactor
  cases m.metric <;> rfl

/-- **The tokens of a literal are read as the literal that was written** with
them, and only if its numbers are in range. -/
theorem Literal.ofTokens_eq_ok {dialect : Dialect} {x : Spaced (Magnitude dialect)}
    {tolerance : Option (Spaced Percentage)}
    {coefficient : Option (Spaced Coefficient)} {p : Position}
    {l : Literal Binary64} :
    Literal.ofTokens ((x.stretch Magnitude.text).token p)
        (tolerance.map fun t => (t.stretch Percentage.text).token
          (p.after (x.stretch Magnitude.text).text))
        (coefficient.map fun y => (y.stretch Coefficient.text).token
          (p.after ((x.stretch Magnitude.text).optional
            (tolerance.map (Spaced.stretch · Percentage.text))).text)) = .ok l
      ↔ ∃ w : WrittenLiteral dialect, w.magnitude = x ∧ w.tolerance = tolerance
        ∧ w.coefficient = coefficient ∧ w.located p = l := by
  have hunit := Literal.unitNode_token x p
  have hnumber : (MagnitudeParts.split x.value.text).number = x.value.number.text := by
    rw [MagnitudeParts.split_text]
  unfold Literal.ofTokens
  dsimp only
  rw [show ((x.stretch Magnitude.text).token p).text = x.value.text from rfl,
    Literal.prefixFactor_split, hunit, hnumber]
  constructor
  · intro h
    obtain ⟨number, hread, h⟩ := Except.bind_eq_ok.mp h
    obtain ⟨t, ht, h⟩ := Except.bind_eq_ok.mp h
    obtain ⟨y, hy, h⟩ := Except.bind_eq_ok.mp h
    obtain ⟨rfl, hfinite⟩ := Token.readFinite_eq_ok.mp hread
    obtain ⟨rfl, hrange⟩ := (Literal.readOptional_eq_ok fun t v => Token.readFinite_tolerance_eq_ok).mp ht
    obtain ⟨rfl, hfits⟩ :=
      (Literal.readOptional_eq_ok fun y v => Token.readCoefficient_eq_ok).mp hy
    cases h
    exact ⟨⟨x, tolerance, coefficient, hfinite, hrange, hfits⟩, rfl, rfl, rfl, rfl⟩
  · rintro ⟨w, rfl, rfl, rfl, rfl⟩
    refine Except.bind_eq_ok.mpr
      ⟨_, Token.readFinite_eq_ok.mpr ⟨rfl, w.magnitude_isFinite⟩, ?_⟩
    refine Except.bind_eq_ok.mpr ⟨_, (Literal.readOptional_eq_ok fun t v =>
      Token.readFinite_tolerance_eq_ok).mpr ⟨rfl, w.tolerance_isFinite⟩, ?_⟩
    refine Except.bind_eq_ok.mpr ⟨_, (Literal.readOptional_eq_ok fun y v =>
      Token.readCoefficient_eq_ok).mpr ⟨rfl, w.coefficient_fits⟩, ?_⟩
    rfl

/-- **A literal ends where the last of its tokens does.** -/
theorem WrittenLiteral.through_last {dialect : Dialect} (w : WrittenLiteral dialect)
    (p q r : Position) (hq : q = p.after w.first.text) (hr : r = p.after w.second.text) :
    (w.first.extent p).through
        ((w.coefficient.map fun y => (y.stretch Coefficient.text).token r).getD
          ((w.tolerance.map fun t => (t.stretch Percentage.text).token q).getD
            (w.first.token p))).extent
      = w.stretch.extent p := by
  subst hq hr
  rw [stretch]
  cases w.coefficient with
  | some y => exact Stretch.through_extent rfl _
  | none =>
    rw [Option.map_none, Option.getD_none, Option.map_none, Stretch.optional, second]
    cases w.tolerance with
    | some t => exact Stretch.through_extent rfl _
    | none => rfl

namespace Cursor

variable {c next : Cursor}

/-- What a scan finds is taken, and where it finds nothing, the cursor
stays. -/
theorem optionalToken_eq_ok {α : Type} {scan : List Char → Scan}
    {spell : α → List Char} (hs : Spells scan spell) {t : Option Token}
    (h : c.optionalToken scan = .ok (t, next)) :
    ∃ o : Option (Spaced α),
      t = o.map (fun x => (x.stretch spell).token c.position)
        ∧ c.Reads ((o.map fun x => (x.stretch spell).text).getD []) next := by
  unfold optionalToken at h
  obtain ⟨r, hr, h⟩ := Except.bind_eq_ok.mp h
  cases r with
  | none =>
    cases h
    exact ⟨none, rfl, ⟨rfl, rfl⟩⟩
  | some found =>
    cases h
    obtain ⟨x, htoken, hreads⟩ := token_eq_some hs hr
    exact ⟨some x, congrArg some htoken, hreads⟩

/-- **A literal that is read is one that was written**, with the magnitude that is next. -/
theorem literal_eq_some_token {dialect : Dialect} {e : Expr Binary64}
    (h : c.literal dialect = .ok (some (e, next))) :
    ∃ l : WrittenLiteral dialect,
      e = (Written.literal l).located c.position ∧ c.Reads l.stretch.text next
        ∧ ∃ c₁, c.token (Lexeme.magnitude dialect) = .ok (some (l.first.token c.position, c₁)) := by
  unfold literal at h
  obtain ⟨r, hr, h⟩ := Except.bind_eq_ok.mp h
  cases r with
  | none => cases h
  | some found =>
    obtain ⟨magnitude, c₁⟩ := found
    obtain ⟨x, rfl, hx⟩ := token_eq_some (Lexeme.magnitude_spells dialect) hr
    obtain ⟨⟨t, c₂⟩, ht, h⟩ := Except.bind_eq_ok.mp h
    obtain ⟨tolerance, rfl, htolerance⟩ :=
      optionalToken_eq_ok Lexeme.percentage_spells ht
    obtain ⟨⟨y, c₃⟩, hy, h⟩ := Except.bind_eq_ok.mp h
    obtain ⟨coefficient, rfl, hcoefficient⟩ :=
      optionalToken_eq_ok Lexeme.coefficient_spells hy
    obtain ⟨l, hl, h⟩ := Except.bind_eq_ok.mp h
    have hsecond : c.Reads ((x.stretch Magnitude.text).optional
        (tolerance.map (Spaced.stretch · Percentage.text))).text c₂ := by
      rw [Stretch.optional_text, Option.map_map]
      exact hx.trans htolerance
    have hlast := hsecond.position_eq
    rw [hx.position_eq, hlast] at hl
    obtain ⟨w, rfl, rfl, rfl, rfl⟩ := Literal.ofTokens_eq_ok.mp hl
    cases h
    refine ⟨w, ?_, ?_, c₁, hr⟩
    · exact congrArg (Expr.literal · (w.located c.position))
        (w.through_last c.position c₁.position c₂.position hx.position_eq hlast)
    · rw [WrittenLiteral.stretch, Stretch.optional_text, Option.map_map]
      exact hsecond.trans hcoefficient

theorem literal_eq_some {dialect : Dialect} {e : Expr Binary64}
    (h : c.literal dialect = .ok (some (e, next))) :
    ∃ l : WrittenLiteral dialect,
      e = (Written.literal l).located c.position ∧ c.Reads l.stretch.text next := by
  obtain ⟨l, he, hreads, -⟩ := literal_eq_some_token h
  exact ⟨l, he, hreads⟩

end Cursor

end WorstCase
