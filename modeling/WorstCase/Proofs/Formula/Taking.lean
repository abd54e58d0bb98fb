import WorstCase.Proofs.Formula.Reading

/-!
# What is written is taken

A cursor at a token takes it, provided that blanks come after the token and that
what comes next is not part of the same construct. Both provisions are needed.
Without blanks a number would go on with the next one, and `/` with `/`; and
since a literal may have a tolerance and a coefficient, which start like
numbers, whatever follows a literal must not start like one.

`Follows` says what may come behind an operand in a formula: an operator, a
bracket that closes, or nothing. An operator may be a sign, and a sign may start
a coefficient; but behind the sign of an operator there are blanks, and behind
the sign of a coefficient there are digits.
-/

namespace WorstCase

open Lexeme (Stops Apart isSign Numeral Magnitude Percentage Coefficient Name)

/-- Blanks keep what is before them apart from what follows. -/
theorem Blanks.apart {space : Blanks} (h : space.val ≠ []) (rest : List Char) :
    Apart (space.val ++ rest) := by
  obtain ⟨c, cs, hspace⟩ := List.exists_cons_of_ne_nil h
  intro d hd
  rw [hspace] at hd
  cases hd
  exact space.property c (hspace ▸ List.mem_cons_self)

/-! ## What may follow an operand -/

/-- The characters that go on with a formula behind an operand. -/
def followChars : List Char := ['+', '-', '*', '/', '|', '^', '@', ')']

/-- **What may follow an operand.** It goes on with the formula, and it is no
number, even where it is a sign. -/
structure Follows (rest : List Char) : Prop where
  mem_followChars : ∀ c, rest.head? = some c → c ∈ followChars
  stops_isDigit : Stops Char.isDigit (Lexeme.optional isSign rest).2

section Follows

variable {rest : List Char}

theorem follows_nil : Follows [] := ⟨fun _ h => (nomatch h), fun _ h => (nomatch h)⟩

/-- A kind without these characters in it does not go on. -/
theorem Follows.stops {p : Char → Bool} (h : Follows rest)
    (hp : followChars.any p = false) : Stops p rest :=
  fun c hc => Lexeme.eq_false_of_any hp (h.mem_followChars c hc)

/-- A mark that is no sign. -/
theorem follows_mark {c : Char} (hc : c ∈ followChars) (hsign : isSign c = false)
    (more : List Char) : Follows (c :: more) where
  mem_followChars := by
    rintro d ⟨⟩
    exact hc
  stops_isDigit := by
    rw [Lexeme.optional, if_neg (by rw [hsign]; exact Bool.false_ne_true)]
    have hdigit : followChars.any Char.isDigit = false := by decide
    exact Lexeme.stops_cons (Lexeme.eq_false_of_any hdigit hc)

/-- A sign with blanks behind it. -/
theorem follows_sign {c : Char} (hc : c ∈ followChars) (hsign : isSign c = true)
    (h : Apart rest) : Follows (c :: rest) where
  mem_followChars := by
    rintro d ⟨⟩
    exact hc
  stops_isDigit := by
    rw [Lexeme.optional, if_pos hsign]
    exact h.stops rfl rfl

/-- **An operator may follow an operand.** -/
theorem follows_operator {op : Spaced BinaryOperator} (h : op.space.val ≠ [])
    (more : List Char) : Follows ((op.stretch BinaryOperator.lexeme).text ++ more) := by
  have hspace := Blanks.apart h more
  show Follows (op.value.lexeme ++ op.space.val ++ more)
  rw [List.append_assoc]
  cases op.value with
  | add | sub => exact follows_sign (by decide) rfl hspace
  | mul | div | parallel | divider => exact follows_mark (by decide) rfl _

end Follows

/-! ## Literals -/

namespace Cursor

/-- An optional token is taken where it is written, and where it is not, nothing
is. -/
theorem optionalToken_append {α : Type} {scan : List Char → Scan} {spell : α → List Char}
    {rest : List Char} (o : Option (Spaced α))
    (hsome : ∀ x, o = some x → scan ((x.stretch spell).text ++ rest)
      = .found (spell x.value) (x.space.val ++ rest))
    (hnone : o = none → scan rest = .absent) (hrest : Stops ParseFault.isBlank rest)
    (p : Position) :
    (Cursor.mk p ((o.map fun x => (x.stretch spell).text).getD [] ++ rest)).optionalToken scan
      = .ok (o.map fun x => (x.stretch spell).token p,
          ⟨p.after ((o.map fun x => (x.stretch spell).text).getD []), rest⟩) := by
  unfold optionalToken
  cases o with
  | some x =>
    have htoken := token_append x (hsome x rfl) hrest p
    show (Cursor.mk p ((x.stretch spell).text ++ rest)).token scan >>= _ = _
    rw [htoken]
    rfl
  | none =>
    have htoken : (Cursor.mk p rest).token scan = .ok none := token_absent (hnone rfl)
    show (Cursor.mk p rest).token scan >>= _ = _
    rw [htoken]
    rfl

end Cursor

/-- **Blanks that keep lexemes apart**: none of them is missing. -/
def AllApart (spaces : List Blanks) : Prop := ∀ s ∈ spaces, s.val ≠ []

instance (spaces : List Blanks) : Decidable (AllApart spaces) :=
  inferInstanceAs (Decidable (∀ s ∈ spaces, s.val ≠ []))

namespace WrittenLiteral

variable {dialect : Dialect} (l : WrittenLiteral dialect)

/-- The blanks behind the lexemes of the literal, in order. -/
def spaces : List Blanks :=
  l.magnitude.space :: ((l.tolerance.map Spaced.space).toList
    ++ (l.coefficient.map Spaced.space).toList)

/-- The text of the tolerance, if there is one. -/
def toleranceText : List Char :=
  (l.tolerance.map fun t => (t.stretch Percentage.text).text).getD []

/-- The text of the coefficient, if there is one. -/
def coefficientText : List Char :=
  (l.coefficient.map fun y => (y.stretch Coefficient.text).text).getD []

theorem text_second : l.second.text = l.first.text ++ l.toleranceText := by
  rw [second, Stretch.optional_text, Option.map_map]
  rfl

theorem text_stretch :
    l.stretch.text = l.first.text ++ (l.toleranceText ++ l.coefficientText) := by
  rw [stretch, Stretch.optional_text, Option.map_map, text_second, List.append_assoc]
  rfl

variable {l} {rest : List Char}

/-- Behind the tolerance there is the coefficient, or what follows the
literal. -/
theorem stops_coefficientText (h : Follows rest) :
    Stops ParseFault.isBlank (l.coefficientText ++ rest) := by
  unfold coefficientText
  cases l.coefficient with
  | some y => exact y.stops_isBlank y.value.solid y.value.ne_nil rest
  | none => exact h.stops (by decide)

/-- Behind the magnitude there is the tolerance, or else the same. -/
theorem stops_toleranceText (h : Follows rest) :
    Stops ParseFault.isBlank (l.toleranceText ++ (l.coefficientText ++ rest)) := by
  unfold toleranceText
  cases l.tolerance with
  | some t => exact t.stops_isBlank t.value.solid t.value.ne_nil _
  | none => exact stops_coefficientText h

/-- **Where a literal has no tolerance, none is found**, not even if it has a
coefficient. -/
theorem percentage_absent (h : Follows rest) :
    Lexeme.percentage (l.coefficientText ++ rest) = .absent := by
  unfold coefficientText
  cases l.coefficient with
  | some y =>
    show Lexeme.percentage (y.value.text ++ y.space.val ++ rest) = .absent
    rw [List.append_assoc]
    exact Lexeme.percentage_coefficient y.value _
  | none => exact Lexeme.percentage_absent (h.stops (by decide))

end WrittenLiteral

namespace Cursor

variable {dialect : Dialect} {l : WrittenLiteral dialect} {rest : List Char}

/-- The magnitude of a literal is taken. -/
theorem magnitude_append (hl : AllApart l.spaces) (h : Follows rest) (p : Position) :
    (Cursor.mk p (l.first.text ++ (l.toleranceText ++ (l.coefficientText ++ rest)))).token
        (Lexeme.magnitude dialect)
      = .ok (some (l.first.token p,
          ⟨p.after l.first.text, l.toleranceText ++ (l.coefficientText ++ rest)⟩)) := by
  refine token_append l.magnitude ?_ (WrittenLiteral.stops_toleranceText h) p
  show Lexeme.magnitude dialect (l.magnitude.value.text ++ l.magnitude.space.val ++ _) = _
  rw [List.append_assoc]
  exact Lexeme.magnitude_spelt _ (Blanks.apart (hl _ List.mem_cons_self) _)

/-- So is its tolerance, if it has one. -/
theorem tolerance_append (h : Follows rest) (p : Position) :
    (Cursor.mk p (l.toleranceText ++ (l.coefficientText ++ rest))).optionalToken
        Lexeme.percentage
      = .ok (l.tolerance.map fun t => (t.stretch Percentage.text).token p,
          ⟨p.after l.toleranceText, l.coefficientText ++ rest⟩) := by
  refine optionalToken_append l.tolerance (fun t _ => ?_)
    (fun _ => WrittenLiteral.percentage_absent h) (WrittenLiteral.stops_coefficientText h) p
  show Lexeme.percentage (t.value.text ++ t.space.val ++ _) = _
  rw [List.append_assoc]
  exact Lexeme.percentage_spelt t.value _

/-- So is its coefficient. -/
theorem coefficient_append (h : Follows rest) (p : Position) :
    (Cursor.mk p (l.coefficientText ++ rest)).optionalToken Lexeme.coefficient
      = .ok (l.coefficient.map fun y => (y.stretch Coefficient.text).token p,
          ⟨p.after l.coefficientText, rest⟩) := by
  refine optionalToken_append l.coefficient (fun y _ => ?_)
    (fun _ => Lexeme.coefficient_absent h.stops_isDigit) (h.stops (by decide)) p
  show Lexeme.coefficient (y.value.text ++ y.space.val ++ rest) = _
  rw [List.append_assoc]
  exact Lexeme.coefficient_spelt y.value _

/-- **A written literal is taken whole**, and nothing of what follows it. -/
theorem literal_append (hl : AllApart l.spaces) (h : Follows rest) (p : Position) :
    (Cursor.mk p (l.stretch.text ++ rest)).literal dialect
      = .ok (some ((Written.literal l).located p, ⟨p.after l.stretch.text, rest⟩)) := by
  have hsecond : (p.after l.first.text).after l.toleranceText = p.after l.second.text := by
    rw [l.text_second, Position.after_append]
  have hall : (p.after l.second.text).after l.coefficientText = p.after l.stretch.text := by
    rw [l.text_second, l.text_stretch, ← List.append_assoc, Position.after_append,
      Position.after_append, Position.after_append]
  have hvalue : Literal.ofTokens (l.first.token p)
      (l.tolerance.map fun t => (t.stretch Percentage.text).token (p.after l.first.text))
      (l.coefficient.map fun y => (y.stretch Coefficient.text).token (p.after l.second.text))
      = .ok (l.located p) := Literal.ofTokens_eq_ok.mpr ⟨l, rfl, rfl, rfl, rfl⟩
  have htext : l.stretch.text ++ rest
      = l.first.text ++ (l.toleranceText ++ (l.coefficientText ++ rest)) := by
    rw [l.text_stretch, List.append_assoc, List.append_assoc]
  unfold literal
  rw [htext]
  refine Except.bind_eq_ok.mpr ⟨_, magnitude_append hl h p, ?_⟩
  refine Except.bind_eq_ok.mpr ⟨_, tolerance_append h _, ?_⟩
  refine Except.bind_eq_ok.mpr ⟨_, coefficient_append h _, ?_⟩
  rw [hsecond]
  refine Except.bind_eq_ok.mpr ⟨_, hvalue, ?_⟩
  dsimp only
  rw [hall, show (l.first.token p).extent = l.first.extent p from rfl,
    l.through_last p _ _ rfl rfl]
  rfl

/-- Where there is no number, there is no literal. -/
theorem literal_absent {c : Cursor} (h : Stops Char.isDigit (Lexeme.optional isSign c.rest).2) :
    c.literal dialect = .ok none := by
  unfold literal
  rw [token_absent (Lexeme.magnitude_absent h)]
  rfl

end Cursor

/-! ## Operands -/

namespace Lexeme

/-- A letter is no digit. -/
theorem isDigit_of_isAlpha {c : Char} (h : c.isAlpha = true) : c.isDigit = false := by
  rw [Bool.eq_false_iff]
  intro hd
  delta Char.isAlpha Char.isUpper Char.isLower at h
  delta Char.isDigit at hd
  simp only [Bool.or_eq_true, Bool.and_eq_true, decide_eq_true_eq, ge_iff_le,
    UInt32.le_iff_toNat_le, Char.reduceVal, UInt32.reduceToNat] at h hd
  omega

/-- A letter is no sign. -/
theorem isSign_of_isAlpha {c : Char} (h : c.isAlpha = true) : isSign c = false := by
  rw [Bool.eq_false_iff]
  intro hs
  simp only [isSign, Bool.or_eq_true, beq_iff_eq] at hs
  rcases hs with rfl | rfl <;> cases h

end Lexeme

namespace Cursor

variable {dialect : Dialect} {rest : List Char}

/-- What starts with neither a sign nor a digit is no literal. -/
theorem literal_absent_of_head {c : Char} {cs : List Char} (hsign : isSign c = false)
    (hdigit : c.isDigit = false) (p : Position) :
    (Cursor.mk p (c :: cs)).literal dialect = .ok none := by
  refine literal_absent ?_
  rw [Lexeme.optional, if_neg (by rw [hsign]; exact Bool.false_ne_true)]
  exact Lexeme.stops_cons hdigit

/-- **A written literal is an operand.** -/
theorem operand_literal {l : WrittenLiteral dialect} (hl : AllApart l.spaces)
    (h : Follows rest) (p : Position) :
    (Cursor.mk p (l.stretch.text ++ rest)).operand dialect
      = .ok (some (.atom ((Written.literal l).located p), ⟨p.after l.stretch.text, rest⟩)) := by
  unfold operand
  rw [literal_append hl h p]
  rfl

/-- A name is taken where blanks come after it. -/
theorem name_append {x : Spaced Name} (hx : x.space.val ≠ [])
    (hrest : Stops ParseFault.isBlank rest) (p : Position) :
    (Cursor.mk p ((x.stretch Name.text).text ++ rest)).token Lexeme.name
      = .ok (some ((x.stretch Name.text).token p,
          ⟨p.after (x.stretch Name.text).text, rest⟩)) := by
  refine token_append x ?_ hrest p
  show Lexeme.name (x.value.text ++ x.space.val ++ rest) = _
  rw [List.append_assoc]
  exact Lexeme.name_spelt _ ((Blanks.apart hx rest).stops rfl rfl)

/-- **A written name is an operand.** -/
theorem operand_var {x : Spaced Name} (hx : x.space.val ≠ [])
    (hrest : Stops ParseFault.isBlank rest) (p : Position) :
    (Cursor.mk p ((x.stretch Name.text).text ++ rest)).operand dialect
      = .ok (some (.atom ((Written.var x : Written dialect).located p),
          ⟨p.after (x.stretch Name.text).text, rest⟩)) := by
  have hhead := x.value.head.property
  have hliteral : (Cursor.mk p ((x.stretch Name.text).text ++ rest)).literal dialect
      = .ok none :=
    literal_absent_of_head (Lexeme.isSign_of_isAlpha hhead) (Lexeme.isDigit_of_isAlpha hhead) p
  unfold operand
  rw [hliteral]
  show (Cursor.mk p ((x.stretch Name.text).text ++ rest)).var >>= _ = _
  unfold var
  rw [name_append hx hrest p]
  rfl

/-- **An opening bracket is one.** -/
theorem operand_opening (space : Blanks) (hrest : Stops ParseFault.isBlank rest)
    (p : Position) :
    (Cursor.mk p ((space.behind ['(']).text ++ rest)).operand dialect
      = .ok (some (.opening ((space.behind ['(']).token p),
          ⟨p.after (space.behind ['(']).text, rest⟩)) := by
  have haccept := accept_append (space.behind ['(']) hrest p
  have hliteral : (Cursor.mk p ((space.behind ['(']).text ++ rest)).literal dialect
      = .ok none := literal_absent_of_head rfl rfl p
  unfold operand
  rw [hliteral]
  exact congrArg (fun r : Token × Cursor => Except.ok (some (Operand.opening r.1, r.2))) haccept

end Cursor

/-! ## What goes on behind an operand -/

namespace Cursor

variable {rest : List Char}

/-- A number that must follow is taken. -/
theorem requiredNumber_append {x : Spaced Numeral} (hx : x.space.val ≠ [])
    (hrest : Stops ParseFault.isBlank rest) (missing : ParseFault) (p : Position) :
    (Cursor.mk p ((x.stretch Numeral.text).text ++ rest)).requiredNumber missing
      = .ok ((x.stretch Numeral.text).token p,
          ⟨p.after (x.stretch Numeral.text).text, rest⟩) := by
  have hscan : Lexeme.number ((x.stretch Numeral.text).text ++ rest)
      = .found x.value.text (x.space.val ++ rest) := by
    show Lexeme.number (x.value.text ++ x.space.val ++ rest) = _
    rw [List.append_assoc]
    exact Lexeme.number_spelt _ ((Blanks.apart hx rest).stops rfl rfl)
  unfold requiredNumber
  rw [token_append x hscan hrest p]
  rfl

/-- An exponent is taken. -/
theorem exponent_append {x : Spaced Numeral} (hx : x.space.val ≠ [])
    (hfinite : (readNumber x.value.text).isFinite = true)
    (hrest : Stops ParseFault.isBlank rest) (sign : Token) (p : Position) :
    (Cursor.mk p ((x.stretch Numeral.text).text ++ rest)).exponent sign
      = .ok (⟨readNumber x.value.text, (x.stretch Numeral.text).extent p⟩,
          ⟨p.after (x.stretch Numeral.text).text, rest⟩) := by
  have hvalue : ((x.stretch Numeral.text).token p).readFinite x.value.text .valueOutOfRange
      = .ok (readNumber x.value.text) := Token.readFinite_eq_ok.mpr ⟨rfl, hfinite⟩
  unfold exponent
  refine Except.bind_eq_ok.mpr ⟨_, requiredNumber_append hx hrest _ p, ?_⟩
  exact Except.bind_eq_ok.mpr ⟨_, hvalue, rfl⟩

/-- **A temperature is taken with its unit**, if that is written. What follows
must not be one. -/
theorem temperature_append {x : Spaced Numeral} {unit : Option Blanks}
    (hx : x.space.val ≠ []) (hfinite : (readNumber x.value.text).isFinite = true)
    (hrest : Stops ParseFault.isBlank rest) (hdegree : Stops (· == '°') rest)
    (sign : Token) (p : Position) :
    (Cursor.mk p ((degreesStretch x unit).text ++ rest)).temperature sign
      = .ok (⟨readNumber x.value.text, (degreesStretch x unit).extent p⟩,
          ⟨p.after (degreesStretch x unit).text, rest⟩) := by
  have hvalue : ((x.stretch Numeral.text).token p).readFinite x.value.text .valueOutOfRange
      = .ok (readNumber x.value.text) := Token.readFinite_eq_ok.mpr ⟨rfl, hfinite⟩
  unfold temperature
  cases unit with
  | none =>
    refine Except.bind_eq_ok.mpr ⟨_, requiredNumber_append hx hrest _ p, ?_⟩
    refine Except.bind_eq_ok.mpr ⟨_, hvalue, ?_⟩
    dsimp only
    split
    · cases hdegree '°' rfl
    · rfl
  | some space =>
    have hstops : Stops ParseFault.isBlank ((space.behind ['°', 'C']).text ++ rest) :=
      Lexeme.stops_cons rfl
    have hunit := accept_append (space.behind ['°', 'C']) hrest
      (p.after (x.stretch Numeral.text).text)
    have hextent : ((x.stretch Numeral.text).extent p).through
          ((space.behind ['°', 'C']).extent (p.after (x.stretch Numeral.text).text))
        = (degreesStretch x (some space)).extent p := Stretch.through_extent rfl _
    rw [← hextent, degreesStretch, Stretch.append_text, List.append_assoc,
      Position.after_append]
    refine Except.bind_eq_ok.mpr ⟨_, requiredNumber_append hx hstops _ p, ?_⟩
    refine Except.bind_eq_ok.mpr ⟨_, hvalue, ?_⟩
    exact congrArg (fun r : Token × Cursor =>
      Except.ok (Node.mk _ (Extent.through _ r.1.extent), r.2)) hunit

/-- An operator is found where blanks come after it. -/
theorem binaryOperator?_append (op : BinaryOperator) (h : Apart rest) :
    binaryOperator? (op.lexeme ++ rest) = some (op, op.lexeme, rest) := by
  cases op with
  | div =>
    have hslash : Stops (· == '/') rest := h.stops rfl rfl
    show binaryOperator? ('/' :: rest) = _
    rw [binaryOperator?]
    · rfl
    · rintro after rfl
      cases hslash '/' rfl
  | _ => rfl

/-- **An operator goes on with the formula.** -/
theorem continuation_operator {op : Spaced BinaryOperator} (hop : op.space.val ≠ [])
    (hrest : Stops ParseFault.isBlank rest) (p : Position) :
    (Cursor.mk p ((op.stretch BinaryOperator.lexeme).text ++ rest)).continuation
      = .ok (some (.operator ⟨op.value, (op.stretch BinaryOperator.lexeme).extent p⟩,
          ⟨p.after (op.stretch BinaryOperator.lexeme).text, rest⟩)) := by
  have haccept := accept_append (op.stretch BinaryOperator.lexeme) hrest p
  have hoperator : binaryOperator? ((op.stretch BinaryOperator.lexeme).text ++ rest)
      = some (op.value, op.value.lexeme, op.space.val ++ rest) := by
    show binaryOperator? (op.value.lexeme ++ op.space.val ++ rest) = _
    rw [List.append_assoc]
    exact binaryOperator?_append _ (Blanks.apart hop rest)
  unfold continuation
  dsimp only
  rw [hoperator]
  exact congrArg (fun r : Token × Cursor =>
    Except.ok (some (Continuation.operator (r.1.node op.value), r.2))) haccept

/-- **So does an exponent.** -/
theorem continuation_exponent {x : Spaced Numeral} (space : Blanks) (hx : x.space.val ≠ [])
    (hfinite : (readNumber x.value.text).isFinite = true)
    (hrest : Stops ParseFault.isBlank rest) (p : Position) :
    (Cursor.mk p ((space.behind ['^']).text
        ++ ((x.stretch Numeral.text).text ++ rest))).continuation
      = .ok (some (.exponent ⟨readNumber x.value.text,
            (x.stretch Numeral.text).extent (p.after (space.behind ['^']).text)⟩,
          ⟨(p.after (space.behind ['^']).text).after (x.stretch Numeral.text).text, rest⟩)) := by
  have hnumber := x.stops_isBlank x.value.solid x.value.ne_nil rest
  have haccept := congrArg Prod.snd (accept_append (space.behind ['^']) hnumber p)
  refine Except.bind_eq_ok.mpr ⟨(_, _), ?_, rfl⟩
  exact (congrArg (exponent _) haccept).trans (exponent_append hx hfinite hrest _ _)

/-- **So does a temperature.** -/
theorem continuation_temperature {x : Spaced Numeral} {unit : Option Blanks}
    (space : Blanks) (hx : x.space.val ≠ [])
    (hfinite : (readNumber x.value.text).isFinite = true)
    (hrest : Stops ParseFault.isBlank rest) (hdegree : Stops (· == '°') rest)
    (p : Position) :
    (Cursor.mk p ((space.behind ['@']).text
        ++ ((degreesStretch x unit).text ++ rest))).continuation
      = .ok (some (.temperature ⟨readNumber x.value.text,
            (degreesStretch x unit).extent (p.after (space.behind ['@']).text)⟩,
          ⟨(p.after (space.behind ['@']).text).after (degreesStretch x unit).text, rest⟩)) := by
  have hnumber : Stops ParseFault.isBlank ((degreesStretch x unit).text ++ rest) := by
    cases unit with
    | none => exact x.stops_isBlank x.value.solid x.value.ne_nil rest
    | some unitSpace =>
      rw [degreesStretch, Stretch.append_text, List.append_assoc]
      exact x.stops_isBlank x.value.solid x.value.ne_nil _
  have haccept := congrArg Prod.snd (accept_append (space.behind ['@']) hnumber p)
  refine Except.bind_eq_ok.mpr ⟨(_, _), ?_, rfl⟩
  exact (congrArg (temperature _) haccept).trans
    (temperature_append hx hfinite hrest hdegree _ _)

/-! ## What is no assignment -/

/-- Without the sign behind the name, nothing is assigned. -/
theorem assignment_of_stops {c next : Cursor} {t : Token}
    (htoken : c.token Lexeme.name = .ok (some (t, next))) (h : Stops (· == '=') next.rest) :
    c.assignment = .ok none := by
  unfold assignment
  refine Except.bind_eq_ok.mpr ⟨_, htoken, ?_⟩
  dsimp only
  split
  · rename_i rest hrest
    rw [hrest] at h
    cases h '=' rfl
  · rfl

end Cursor

end WorstCase
