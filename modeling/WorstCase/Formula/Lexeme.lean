import WorstCase.Formula.Unit

/-!
# Lexemes

How much of a text belongs to the word, number or mark it starts with. A **scan** says one of three
things: the text does not start with such a lexeme; it does, and here is the lexeme and what follows it;
or it starts with a number that breaks off, after a decimal point or in an exponent. The last is an
error wherever it happens, since a number that breaks off is nothing else either.

A quantity is written as up to three lexemes: a **magnitude** such as `4.7kΩ`, a **percentage** such as
`5%`, and a **coefficient** such as `-50ppm`. There are no blanks inside a lexeme.
-/

namespace WorstCase

/-- Which spellings are accepted beyond the plain ones. -/
structure Dialect where
  /-- The letter u for micro. -/
  asciiMicro : Bool := true
  deriving DecidableEq, Repr

/-- The parts of a number that may break off. -/
inductive NumberPart where
  /-- The digits after the decimal point. -/
  | fraction
  /-- The digits of the exponent. -/
  | exponent
  deriving DecidableEq, Repr

/-- **What a text starts with.** -/
inductive Scan where
  /-- Not with a lexeme of the kind looked for. -/
  | absent
  /-- With this lexeme, and `rest` follows. -/
  | found (lexeme rest : List Char)
  /-- With a number that breaks off: `before` is its text before the part that breaks off, and `mark`
  what there is of that part. -/
  | broken (part : NumberPart) (before mark : List Char)
  deriving DecidableEq, Repr

namespace Scan

/-- The scan of a text that has `front` before what was scanned. -/
def prepend (front : List Char) : Scan → Scan
  | .absent => .absent
  | .found lexeme rest => .found (front ++ lexeme) rest
  | .broken part before mark => .broken part (front ++ before) mark

/-- A lexeme made longer by what follows it. -/
def extend (more : List Char → List Char × List Char) : Scan → Scan
  | .found lexeme rest => .found (lexeme ++ (more rest).1) (more rest).2
  | s => s

end Scan

namespace Lexeme

/-- One character of a kind, if the text starts with it. -/
def optional (p : Char → Bool) : List Char → List Char × List Char
  | c :: cs => if p c then ([c], cs) else ([], c :: cs)
  | [] => ([], [])

/-- Whether a character is a sign. -/
def isSign (c : Char) : Bool := c == '+' || c == '-'

/-- Whether a character starts an exponent. -/
def isExponentMark (c : Char) : Bool := c == 'e' || c == 'E'

/-- A decimal point with the digits after it, or nothing. Without digits, the point is the error. -/
def fraction : List Char → Except (List Char) (List Char × List Char)
  | '.' :: cs =>
    if cs.takeWhile Char.isDigit = [] then .error ['.']
    else .ok ('.' :: cs.takeWhile Char.isDigit, cs.dropWhile Char.isDigit)
  | cs => .ok ([], cs)

/-- An exponent, or nothing. Without digits, what there is of it is the error. -/
def exponent : List Char → Except (List Char) (List Char × List Char)
  | [] => .ok ([], [])
  | c :: cs =>
    if isExponentMark c then
      let (sign, digits) := optional isSign cs
      if digits.takeWhile Char.isDigit = [] then .error (c :: sign)
      else .ok (c :: sign ++ digits.takeWhile Char.isDigit, digits.dropWhile Char.isDigit)
    else .ok ([], c :: cs)

/-- A number without a sign: digits, a decimal part and an exponent. -/
def unsignedNumber (cs : List Char) : Scan :=
  let whole := cs.takeWhile Char.isDigit
  if whole = [] then .absent
  else match fraction (cs.dropWhile Char.isDigit) with
    | .error mark => .broken .fraction whole mark
    | .ok (fraction, rest) =>
      match exponent rest with
      | .error mark => .broken .exponent (whole ++ fraction) mark
      | .ok (exponent, rest) => .found (whole ++ fraction ++ exponent) rest

/-- A number, which may have a sign. -/
def number (cs : List Char) : Scan :=
  (unsignedNumber (optional isSign cs).2).prepend (optional isSign cs).1

/-- Whether a character is a metric prefix. The letter u is one only where the dialect has it. -/
def isPrefixChar (dialect : Dialect) : Char → Bool
  | 'u' => dialect.asciiMicro
  | 'p' | 'n' | '\u00b5' | '\u03bc' | 'm' | 'k' | 'M' | 'G' | 'T' => true
  | _ => false

/-- Whether a character is a unit. -/
def isUnitChar (c : Char) : Bool := (UnitSymbol.ofChar? c).isSome

/-- A metric prefix and a unit, or either, or neither. -/
def suffix (dialect : Dialect) (cs : List Char) : List Char × List Char :=
  let (metric, cs) := optional (isPrefixChar dialect) cs
  let (unit, cs) := optional isUnitChar cs
  (metric ++ unit, cs)

/-- A number with a metric prefix and a unit directly after it. -/
def magnitude (dialect : Dialect) (cs : List Char) : Scan :=
  (number cs).extend (suffix dialect)

/-- A number without a sign, and a percent sign directly after it. -/
def percentage (cs : List Char) : Scan :=
  match unsignedNumber cs with
  | .found lexeme ('%' :: rest) => .found (lexeme ++ ['%']) rest
  | .found _ _ => .absent
  | s => s

/-- Whole digits, which may have a sign, and `ppm` directly after them. -/
def coefficient (cs : List Char) : Scan :=
  let (sign, digits) := optional isSign cs
  let whole := digits.takeWhile Char.isDigit
  if whole = [] then .absent
  else match digits.dropWhile Char.isDigit with
    | 'p' :: 'p' :: 'm' :: rest => .found (sign ++ whole ++ ['p', 'p', 'm']) rest
    | _ => .absent

/-- Whether a character may stand in a name after the first letter. -/
def isNameChar (c : Char) : Bool := c.isAlphanum || c == '_'

/-- A name: a letter, and then letters, digits and underscores. -/
def name : List Char → Scan
  | [] => .absent
  | c :: cs =>
    if c.isAlpha then .found (c :: cs.takeWhile isNameChar) (cs.dropWhile isNameChar) else .absent

/-! ## Nothing is lost, and a lexeme is not empty -/

theorem optional_append (p : Char → Bool) (cs : List Char) :
    (optional p cs).1 ++ (optional p cs).2 = cs := by
  cases cs with
  | nil => rfl
  | cons c cs => simp only [optional]; split <;> rfl

theorem fraction_append {cs part rest : List Char} (h : fraction cs = .ok (part, rest)) :
    part ++ rest = cs := by
  unfold fraction at h
  split at h
  · split at h
    · cases h
    · cases h
      simp [List.takeWhile_append_dropWhile]
  · cases h
    rfl

theorem exponent_append {cs part rest : List Char} (h : exponent cs = .ok (part, rest)) :
    part ++ rest = cs := by
  cases cs with
  | nil => cases h; rfl
  | cons c cs =>
    simp only [exponent] at h
    split at h
    · split at h
      · cases h
      · cases h
        have whole := optional_append isSign cs
        simp only [List.cons_append, List.append_assoc, List.takeWhile_append_dropWhile, whole]
    · cases h
      rfl

theorem unsignedNumber_found {cs lexeme rest : List Char}
    (h : unsignedNumber cs = .found lexeme rest) : lexeme ++ rest = cs ∧ lexeme ≠ [] := by
  simp only [unsignedNumber] at h
  split at h
  · cases h
  · rename_i ne
    split at h
    · cases h
    · rename_i fractional after fracEq
      split at h
      · cases h
      · rename_i exponential last expEq
        cases h
        have first := fraction_append fracEq
        have second := exponent_append expEq
        constructor
        · rw [List.append_assoc, List.append_assoc, second, first,
            List.takeWhile_append_dropWhile]
        · simp [ne]

theorem number_found {cs lexeme rest : List Char} (h : number cs = .found lexeme rest) :
    lexeme ++ rest = cs ∧ lexeme ≠ [] := by
  unfold number at h
  generalize scanned : unsignedNumber (optional isSign cs).2 = s at h
  cases s with
  | absent => cases h
  | broken => cases h
  | found digits after =>
    cases h
    obtain ⟨whole, ne⟩ := unsignedNumber_found scanned
    constructor
    · rw [List.append_assoc, whole, optional_append]
    · simp [ne]

theorem suffix_append (dialect : Dialect) (cs : List Char) :
    (suffix dialect cs).1 ++ (suffix dialect cs).2 = cs := by
  simp only [suffix, List.append_assoc, optional_append]

theorem magnitude_found {dialect : Dialect} {cs lexeme rest : List Char}
    (h : magnitude dialect cs = .found lexeme rest) : lexeme ++ rest = cs ∧ lexeme ≠ [] := by
  unfold magnitude at h
  generalize scanned : number cs = s at h
  cases s with
  | absent => cases h
  | broken => cases h
  | found digits after =>
    cases h
    obtain ⟨whole, ne⟩ := number_found scanned
    constructor
    · rw [List.append_assoc, suffix_append, whole]
    · simp [ne]

theorem percentage_found {cs lexeme rest : List Char} (h : percentage cs = .found lexeme rest) :
    lexeme ++ rest = cs ∧ lexeme ≠ [] := by
  unfold percentage at h
  split at h
  · rename_i digits after scanned
    cases h
    obtain ⟨whole, ne⟩ := unsignedNumber_found scanned
    constructor
    · rw [List.append_assoc, List.cons_append, List.nil_append, whole]
    · simp
  · cases h
  · rename_i other
    exact (other _ _ h).elim

theorem coefficient_found {cs lexeme rest : List Char} (h : coefficient cs = .found lexeme rest) :
    lexeme ++ rest = cs ∧ lexeme ≠ [] := by
  simp only [coefficient] at h
  split at h
  · cases h
  · rename_i ne
    split at h
    · rename_i after tail
      cases h
      constructor
      · have digits := List.takeWhile_append_dropWhile (p := Char.isDigit) (l := (optional isSign cs).2)
        rw [tail] at digits
        simp only [List.append_assoc, List.cons_append, List.nil_append, digits, optional_append]
      · simp
    · cases h

theorem name_found {cs lexeme rest : List Char} (h : name cs = .found lexeme rest) :
    lexeme ++ rest = cs ∧ lexeme ≠ [] := by
  cases cs with
  | nil => cases h
  | cons c cs =>
    simp only [name] at h
    split at h
    · cases h
      simp [List.takeWhile_append_dropWhile]
    · cases h

end Lexeme

end WorstCase
