import WorstCase.Formula.Token

/-!
# How lexemes are spelt

A scan takes a text and says where the lexeme at its start ends. What a lexeme
*is* can be said without a scan: a number is an optional sign, digits, an
optional point with digits, and an optional exponent; a magnitude is a number
with an optional prefix and an optional unit; and so on. The structures here
say that, each with the text that it spells.

No lexeme has a blank or a line end in it: its text is **solid**. Blanks
therefore go on with no lexeme, and a text that has them between its lexemes
can be read in one way only.
-/

namespace WorstCase.Lexeme

/-! ## Characters of a kind -/

/-- A character of a kind. -/
abbrev CharOf (p : Char → Bool) : Type := { c : Char // p c = true }

/-- The text of a character that may be left out. -/
def optionalText {p : Char → Bool} : Option (CharOf p) → List Char
  | some c => [c.val]
  | none => []

/-- **What follows does not go on** with a character of a kind. -/
def Stops (p : Char → Bool) (rest : List Char) : Prop :=
  ∀ c, rest.head? = some c → p c = false

/-- What follows is at a blank, or at the end of the text. -/
def Apart (rest : List Char) : Prop :=
  ∀ c, rest.head? = some c → ParseFault.isBlank c = true

/-- Whether a character can stand in a lexeme: no blank can, and no line end
can. -/
def isSolid (c : Char) : Bool := !ParseFault.isBlank c && c != '\n'

/-- A text of which every character can stand in a lexeme. -/
def Solid (text : List Char) : Prop := ∀ c ∈ text, isSolid c = true

instance (text : List Char) : Decidable (Solid text) :=
  decidable_of_iff (text.all isSolid = true) List.all_eq_true

section Stops

variable {p : Char → Bool} {rest : List Char}

/-- Of some characters none is of a kind. -/
theorem eq_false_of_any {chars : List Char} (h : chars.any p = false) {c : Char}
    (hc : c ∈ chars) : p c = false :=
  Bool.eq_false_iff.mpr (List.any_eq_false.mp h c hc)

theorem stops_nil : Stops p [] := fun _ hc => nomatch hc

theorem stops_cons {c : Char} (h : p c = false) : Stops p (c :: rest) := by
  intro d hd
  cases hd
  exact h

theorem Stops.mono {q : Char → Bool} (h : Stops p rest)
    (hpq : ∀ c, q c = true → p c = true) : Stops q rest := by
  intro c hc
  have hp := h c hc
  cases hq : q c with
  | false => rfl
  | true => rw [hpq c hq] at hp; cases hp

/-- A blank goes on with nothing that has no blanks in it. -/
theorem Apart.stops (h : Apart rest) (hspace : p ' ' = false)
    (htab : p '\t' = false) : Stops p rest := by
  intro c hc
  have hblank := h c hc
  simp only [ParseFault.isBlank, Bool.or_eq_true, beq_iff_eq] at hblank
  rcases hblank with rfl | rfl
  · exact hspace
  · exact htab

/-- Characters of a kind are all taken, and no more. -/
theorem takeWhile_append {text : List Char} (h : ∀ c ∈ text, p c = true)
    (hrest : Stops p rest) : (text ++ rest).takeWhile p = text := by
  rw [List.takeWhile_append_of_pos h]
  cases rest with
  | nil => rw [List.takeWhile_nil, List.append_nil]
  | cons c rest =>
    rw [List.takeWhile_cons_of_neg (by rw [hrest c rfl]; exact Bool.false_ne_true),
      List.append_nil]

/-- What is left when they are taken is what followed them. -/
theorem dropWhile_append {text : List Char} (h : ∀ c ∈ text, p c = true)
    (hrest : Stops p rest) : (text ++ rest).dropWhile p = rest := by
  rw [List.dropWhile_append_of_pos h]
  cases rest with
  | nil => rfl
  | cons c rest =>
    exact List.dropWhile_cons_of_neg (by rw [hrest c rfl]; exact Bool.false_ne_true)

end Stops

section Solid

/-- A kind without blanks and line ends is one of solid characters. -/
theorem isSolid_of {p : Char → Bool} (hspace : p ' ' = false)
    (htab : p '\t' = false) (hline : p '\n' = false) {c : Char}
    (h : p c = true) : isSolid c = true := by
  have hne : ∀ d, p d = false → c ≠ d := by
    rintro d hd rfl
    rw [h] at hd
    cases hd
  have hblank : ParseFault.isBlank c = false := by
    simp [ParseFault.isBlank, hne _ hspace, hne _ htab]
  simp [isSolid, hblank, hne _ hline]

theorem solid_nil : Solid [] := fun _ hc => absurd hc List.not_mem_nil

theorem solid_cons {c : Char} {text : List Char} (hc : isSolid c = true)
    (h : Solid text) : Solid (c :: text) := by
  intro d hd
  rcases List.mem_cons.mp hd with rfl | hd
  · exact hc
  · exact h d hd

theorem solid_append {text more : List Char} (h : Solid text)
    (hmore : Solid more) : Solid (text ++ more) := by
  intro c hc
  rcases List.mem_append.mp hc with hc | hc
  · exact h c hc
  · exact hmore c hc

theorem solid_optionalText {p : Char → Bool} (hspace : p ' ' = false)
    (htab : p '\t' = false) (hline : p '\n' = false) (o : Option (CharOf p)) :
    Solid (optionalText o) := by
  cases o with
  | none => exact solid_nil
  | some c => exact solid_cons (isSolid_of hspace htab hline c.property) solid_nil

theorem Solid.not_newline {text : List Char} (h : Solid text) : '\n' ∉ text :=
  fun hc => absurd (h _ hc) (by decide)

/-- A solid text is not at a blank. -/
theorem Solid.stops_isBlank {text : List Char} (h : Solid text)
    (hne : text ≠ []) (rest : List Char) :
    Stops ParseFault.isBlank (text ++ rest) := by
  cases text with
  | nil => exact absurd rfl hne
  | cons c text =>
    have hc := h c List.mem_cons_self
    rw [isSolid, Bool.and_eq_true, Bool.not_eq_true'] at hc
    exact stops_cons hc.1

end Solid

/-! ## Numbers -/

/-- **One digit or more.** -/
structure Digits where
  /-- The digits. -/
  text : List Char
  /-- There is one. -/
  ne_nil : text ≠ []
  /-- They are digits. -/
  isDigit : ∀ c ∈ text, c.isDigit = true

/-- An exponent with its mark. -/
structure ExponentPart where
  mark : CharOf isExponentMark
  sign : Option (CharOf isSign)
  digits : Digits

/-- The text of an exponent. -/
def ExponentPart.text (x : ExponentPart) : List Char :=
  x.mark.val :: optionalText x.sign ++ x.digits.text

/-- **A number without a sign.** -/
structure Unsigned where
  whole : Digits
  /-- The digits after the decimal point. -/
  fraction : Option Digits
  exponent : Option ExponentPart

namespace Unsigned

/-- The decimal point and the digits after it. -/
def fractionText (n : Unsigned) : List Char :=
  match n.fraction with
  | some digits => '.' :: digits.text
  | none => []

/-- The exponent with its mark. -/
def exponentText (n : Unsigned) : List Char :=
  match n.exponent with
  | some part => part.text
  | none => []

/-- The text of the number. -/
def text (n : Unsigned) : List Char :=
  n.whole.text ++ n.fractionText ++ n.exponentText

end Unsigned

/-- **A number.** -/
structure Numeral where
  sign : Option (CharOf isSign)
  unsigned : Unsigned

/-- The text of a number. -/
def Numeral.text (n : Numeral) : List Char := optionalText n.sign ++ n.unsigned.text

/-- Whether digits can go on with a character. -/
def isDecimalChar (c : Char) : Bool := c.isDigit || c == '.'

/-- Whether a number can go on with a character. -/
def isNumberChar (c : Char) : Bool := isDecimalChar c || isExponentMark c

/-! ## Lexemes -/

/-- **A number with a prefix and a unit.** -/
structure Magnitude (dialect : Dialect) where
  number : Numeral
  metric : Option (CharOf (isPrefixChar dialect))
  unit : Option (CharOf isUnitChar)

/-- The text of a magnitude. -/
def Magnitude.text {dialect : Dialect} (m : Magnitude dialect) : List Char :=
  m.number.text ++ (optionalText m.metric ++ optionalText m.unit)

/-- **A number with a percent sign.** -/
structure Percentage where
  number : Unsigned

/-- The text of a percentage. -/
def Percentage.text (p : Percentage) : List Char := p.number.text ++ ['%']

/-- **A whole number of millionths.** -/
structure Coefficient where
  sign : Option (CharOf isSign)
  digits : Digits

namespace Coefficient

/-- The text of the whole number. -/
def number (x : Coefficient) : List Char := optionalText x.sign ++ x.digits.text

/-- The text of a coefficient. -/
def text (x : Coefficient) : List Char := x.number ++ ['p', 'p', 'm']

end Coefficient

/-- **A name.** -/
structure Name where
  head : CharOf Char.isAlpha
  tail : List Char
  /-- It goes on with letters, digits and underscores. -/
  isNameChar : ∀ c ∈ tail, Lexeme.isNameChar c = true

/-- The text of a name. -/
def Name.text (x : Name) : List Char := x.head.val :: x.tail

/-! ## Lexemes are solid -/

theorem Digits.solid (x : Digits) : Solid x.text := fun c hc =>
  isSolid_of (p := Char.isDigit) rfl rfl rfl (x.isDigit c hc)

theorem ExponentPart.solid (x : ExponentPart) : Solid x.text :=
  solid_append
    (solid_cons (isSolid_of (p := isExponentMark) rfl rfl rfl x.mark.property)
      (solid_optionalText rfl rfl rfl x.sign))
    x.digits.solid

theorem Unsigned.solid_fractionText (n : Unsigned) : Solid n.fractionText := by
  unfold fractionText
  cases n.fraction with
  | none => exact solid_nil
  | some digits => exact solid_cons (by decide) digits.solid

theorem Unsigned.solid_exponentText (n : Unsigned) : Solid n.exponentText := by
  unfold exponentText
  cases n.exponent with
  | none => exact solid_nil
  | some part => exact part.solid

theorem Unsigned.solid (n : Unsigned) : Solid n.text :=
  solid_append (solid_append n.whole.solid n.solid_fractionText)
    n.solid_exponentText

theorem Numeral.solid (n : Numeral) : Solid n.text :=
  solid_append (solid_optionalText rfl rfl rfl n.sign) n.unsigned.solid

theorem Magnitude.solid {dialect : Dialect} (m : Magnitude dialect) : Solid m.text :=
  solid_append m.number.solid
    (solid_append (solid_optionalText rfl rfl rfl m.metric)
      (solid_optionalText rfl rfl rfl m.unit))

theorem Percentage.solid (p : Percentage) : Solid p.text :=
  solid_append p.number.solid (solid_cons (by decide) solid_nil)

theorem Coefficient.solid (x : Coefficient) : Solid x.text :=
  solid_append
    (solid_append (solid_optionalText rfl rfl rfl x.sign) x.digits.solid)
    (solid_cons (by decide) (solid_cons (by decide) (solid_cons (by decide) solid_nil)))

theorem Name.solid (x : Name) : Solid x.text :=
  solid_cons (isSolid_of (p := Char.isAlpha) rfl rfl rfl x.head.property)
    fun c hc => isSolid_of (p := Lexeme.isNameChar) rfl rfl rfl (x.isNameChar c hc)

theorem Unsigned.ne_nil (n : Unsigned) : n.text ≠ [] := by
  simp [text, n.whole.ne_nil]

theorem Numeral.ne_nil (n : Numeral) : n.text ≠ [] := by
  simp [text, n.unsigned.ne_nil]

theorem Magnitude.ne_nil {dialect : Dialect} (m : Magnitude dialect) : m.text ≠ [] := by
  simp [text, m.number.ne_nil]

theorem Percentage.ne_nil (p : Percentage) : p.text ≠ [] := by
  simp [text]

theorem Coefficient.ne_nil (x : Coefficient) : x.text ≠ [] := by
  simp [text]

theorem Name.ne_nil (x : Name) : x.text ≠ [] := List.cons_ne_nil _ _

end WorstCase.Lexeme
