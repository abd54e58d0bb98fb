import Mathlib.Tactic.IntervalCases
import WorstCase.Proofs.Formula.Tokens

/-!
# Texts whose numbers are zero

With a zero for every digit, a text keeps its shape. Its characters are of the same kinds and of the same
sizes, so its lexemes are of the same kinds and stand in the same places; only its numbers are all zero,
and a zero is never too large. So the zeroed text says what there is to say about a text but for the size
of its numbers: it is well formed if the text is, whatever the numbers are.

That a scan sees kinds of characters and nothing else is `ReadsZeroed`: what it finds in the zeroed text is
what it finds in the text, with zeros for digits. The tokens of a cursor follow (`Cursor.token_zeroed`), and
with them all of the reader that comes before a number is read.
-/

namespace WorstCase

/-- The character, or a zero for a digit. -/
def zeroDigit (c : Char) : Char := if c.isDigit then '0' else c

/-- **The text with a zero for every digit.** -/
def zeroed (text : List Char) : List Char := text.map zeroDigit

/-! ## Characters -/

namespace Lexeme

/-- The digits. -/
def digitChars : List Char := ['0', '1', '2', '3', '4', '5', '6', '7', '8', '9']

theorem mem_digitChars {c : Char} (h : c.isDigit = true) : c ∈ digitChars := by
  have hrange : 48 ≤ c.toNat ∧ c.toNat ≤ 57 := by
    simpa [Char.isDigit, UInt32.le_iff_toNat_le] using h
  rw [← Char.ofNat_toNat c]
  generalize c.toNat = n at hrange
  obtain ⟨hlow, hhigh⟩ := hrange
  interval_cases n <;> decide

/-- **A kind that does not tell digits apart.** -/
def SeesKinds (p : Char → Bool) : Prop := ∀ c, p (zeroDigit c) = p c

/-- A kind of which all digits are, or none. -/
theorem seesKinds_of {p : Char → Bool} (h : digitChars.all (fun c => p '0' == p c) = true) :
    SeesKinds p := by
  intro c
  unfold zeroDigit
  split
  · rename_i hc
    exact eq_of_beq (List.all_eq_true.mp h c (mem_digitChars hc))
  · rfl

theorem seesKinds_isDigit : SeesKinds Char.isDigit := seesKinds_of rfl

theorem seesKinds_isSign : SeesKinds isSign := seesKinds_of rfl

theorem seesKinds_isPrefixChar (dialect : Dialect) : SeesKinds (isPrefixChar dialect) :=
  seesKinds_of rfl

theorem seesKinds_isUnitChar : SeesKinds isUnitChar := seesKinds_of rfl

theorem seesKinds_isBlank : SeesKinds ParseFault.isBlank := seesKinds_of rfl

/-- What is no digit stays. -/
theorem zeroDigit_of_not_isDigit {c : Char} (h : c.isDigit = false) : zeroDigit c = c :=
  if_neg (by rw [h]; exact Bool.false_ne_true)

/-- What is a digit afterwards is a zero. -/
theorem eq_zero_of_mem_zeroed {c : Char} {text : List Char} (h : c ∈ zeroed text)
    (hdigit : c.isDigit = true) : c = '0' := by
  obtain ⟨d, -, rfl⟩ := List.mem_map.mp h
  rw [seesKinds_isDigit] at hdigit
  exact if_pos hdigit

section Lists

variable {p : Char → Bool} {cs : List Char}

theorem takeWhile_zeroed (hp : SeesKinds p) : (zeroed cs).takeWhile p = zeroed (cs.takeWhile p) := by
  rw [zeroed, List.takeWhile_map, show p ∘ zeroDigit = p from funext hp]
  rfl

theorem dropWhile_zeroed (hp : SeesKinds p) : (zeroed cs).dropWhile p = zeroed (cs.dropWhile p) := by
  rw [zeroed, List.dropWhile_map, show p ∘ zeroDigit = p from funext hp]
  rfl

theorem zeroed_eq_nil : zeroed cs = [] ↔ cs = [] := List.map_eq_nil_iff

theorem zeroed_append (cs ds : List Char) : zeroed (cs ++ ds) = zeroed cs ++ zeroed ds := List.map_append

theorem optional_zeroed (hp : SeesKinds p) (cs : List Char) :
    optional p (zeroed cs) = (zeroed (optional p cs).1, zeroed (optional p cs).2) := by
  cases cs with
  | nil => rfl
  | cons c cs =>
    show (if p (zeroDigit c) then _ else _) = _
    rw [hp c, optional]
    cases p c <;> rfl

/-- **A mark is next in the zeroed text** if and only if it is next in the text. -/
theorem zeroed_eq_cons {c : Char} (hc : c.isDigit = false) {rest : List Char} :
    zeroed cs = c :: rest ↔ ∃ ds, cs = c :: ds ∧ rest = zeroed ds := by
  constructor
  · intro h
    obtain ⟨d, ds, rfl, hd, rfl⟩ := List.map_eq_cons_iff.mp h
    have hdigit : d.isDigit = false := by rw [← seesKinds_isDigit d, hd, hc]
    rw [zeroDigit_of_not_isDigit hdigit] at hd
    exact ⟨ds, by rw [hd], rfl⟩
  · rintro ⟨ds, rfl, rfl⟩
    exact congrArg (· :: zeroed ds) (zeroDigit_of_not_isDigit hc)

/-- So it is next in both, or in neither. -/
theorem mark_zeroed {c : Char} (hc : c.isDigit = false) (cs : List Char) :
    (∃ rest, cs = c :: rest ∧ zeroed cs = c :: zeroed rest)
      ∨ (∀ rest, cs ≠ c :: rest) ∧ ∀ rest, zeroed cs ≠ c :: rest := by
  by_cases h : ∃ rest, cs = c :: rest
  · obtain ⟨rest, rfl⟩ := h
    exact .inl ⟨rest, rfl, (zeroed_eq_cons hc).mpr ⟨rest, rfl, rfl⟩⟩
  · refine .inr ⟨fun rest hrest => h ⟨rest, hrest⟩, fun rest hrest => ?_⟩
    obtain ⟨ds, hds, -⟩ := (zeroed_eq_cons hc).mp hrest
    exact h ⟨ds, hds⟩

end Lists

end Lexeme

/-! ## Scans -/

/-- The scan with a zero for every digit. -/
def Scan.zeroed : Scan → Scan
  | .absent => .absent
  | .found lexeme rest => .found (WorstCase.zeroed lexeme) (WorstCase.zeroed rest)
  | .broken part before mark => .broken part (WorstCase.zeroed before) (WorstCase.zeroed mark)

namespace Lexeme

/-- **A scan that does not tell digits apart.** -/
def ReadsZeroed (scan : List Char → Scan) : Prop := ∀ cs, scan (zeroed cs) = (scan cs).zeroed

theorem zeroed_prepend (front : List Char) (s : Scan) :
    (s.prepend front).zeroed = s.zeroed.prepend (zeroed front) := by
  cases s with
  | absent => rfl
  | found lexeme rest => exact congrArg (Scan.found · _) (zeroed_append front lexeme)
  | broken part before mark => exact congrArg (Scan.broken part · _) (zeroed_append front before)

theorem zeroed_extend {more : List Char → List Char × List Char}
    (h : ∀ cs, more (zeroed cs) = (zeroed (more cs).1, zeroed (more cs).2)) (s : Scan) :
    (s.extend more).zeroed = s.zeroed.extend more := by
  cases s with
  | found lexeme rest =>
    show Scan.found (zeroed (lexeme ++ _)) _ = Scan.found (zeroed lexeme ++ _) _
    rw [h, zeroed_append]
  | _ => rfl

theorem fraction_zeroed (cs : List Char) :
    fraction (zeroed cs)
      = match fraction cs with
        | .ok (part, rest) => .ok (zeroed part, zeroed rest)
        | .error mark => .error (zeroed mark) := by
  rcases mark_zeroed (c := '.') rfl cs with ⟨rest, rfl, hrest⟩ | ⟨hpoint, hzeroed⟩
  · rw [hrest, fraction, fraction, takeWhile_zeroed seesKinds_isDigit, dropWhile_zeroed seesKinds_isDigit]
    by_cases hdigits : rest.takeWhile Char.isDigit = []
    · rw [if_pos hdigits, if_pos (zeroed_eq_nil.mpr hdigits)]
      rfl
    · rw [if_neg hdigits, if_neg (mt zeroed_eq_nil.mp hdigits)]
      rfl
  · have hwithout {ds : List Char} (h : ∀ rest, ds ≠ '.' :: rest) : fraction ds = .ok ([], ds) := by
      unfold fraction
      split
      · exact absurd rfl (h _)
      · rfl
    rw [hwithout hpoint, hwithout hzeroed]
    rfl

theorem exponent_zeroed (cs : List Char) :
    exponent (zeroed cs)
      = match exponent cs with
        | .ok (part, rest) => .ok (zeroed part, zeroed rest)
        | .error mark => .error (zeroed mark) := by
  cases cs with
  | nil => rfl
  | cons c cs =>
    show exponent (zeroDigit c :: zeroed cs) = _
    have hmark : isExponentMark (zeroDigit c) = isExponentMark c := seesKinds_of rfl c
    rw [exponent, exponent, hmark, optional_zeroed seesKinds_isSign]
    dsimp only
    rw [takeWhile_zeroed seesKinds_isDigit, dropWhile_zeroed seesKinds_isDigit]
    by_cases hc : isExponentMark c = true
    · rw [if_pos hc, if_pos hc]
      by_cases hdigits : (optional isSign cs).2.takeWhile Char.isDigit = []
      · rw [if_pos hdigits, if_pos (zeroed_eq_nil.mpr hdigits)]
        rfl
      · rw [if_neg hdigits, if_neg (mt zeroed_eq_nil.mp hdigits)]
        dsimp only
        rw [zeroed_append]
        rfl
    · rw [if_neg hc, if_neg hc]
      rfl

theorem unsignedNumber_zeroed : ReadsZeroed unsignedNumber := by
  intro cs
  unfold unsignedNumber
  dsimp only
  rw [takeWhile_zeroed seesKinds_isDigit, dropWhile_zeroed seesKinds_isDigit, fraction_zeroed]
  by_cases hwhole : cs.takeWhile Char.isDigit = []
  · rw [if_pos hwhole, if_pos (zeroed_eq_nil.mpr hwhole)]
    rfl
  · rw [if_neg hwhole, if_neg (mt zeroed_eq_nil.mp hwhole)]
    cases fraction (cs.dropWhile Char.isDigit) with
    | error mark => rfl
    | ok found =>
      dsimp only
      rw [exponent_zeroed]
      cases exponent found.2 with
      | error mark =>
        dsimp only
        rw [← zeroed_append]
        rfl
      | ok found =>
        dsimp only
        rw [← zeroed_append, ← zeroed_append]
        rfl

theorem number_zeroed : ReadsZeroed number := by
  intro cs
  unfold number
  rw [optional_zeroed seesKinds_isSign, zeroed_prepend, ← unsignedNumber_zeroed]

theorem suffix_zeroed (dialect : Dialect) (cs : List Char) :
    suffix dialect (zeroed cs) = (zeroed (suffix dialect cs).1, zeroed (suffix dialect cs).2) := by
  unfold suffix
  dsimp only
  rw [optional_zeroed (seesKinds_isPrefixChar dialect)]
  dsimp only
  rw [optional_zeroed seesKinds_isUnitChar, zeroed_append]

theorem magnitude_zeroed (dialect : Dialect) : ReadsZeroed (magnitude dialect) := by
  intro cs
  unfold magnitude
  rw [zeroed_extend (suffix_zeroed dialect), ← number_zeroed]

/-- A number without a percent sign behind it is no percentage. -/
theorem percentage_of_found {cs word rest : List Char} (h : unsignedNumber cs = .found word rest)
    (hpercent : ∀ more, rest ≠ '%' :: more) : percentage cs = .absent := by
  unfold percentage
  rw [h]
  split
  · rename_i heq
    cases heq
    exact absurd rfl (hpercent _)
  · rfl
  · rename_i hfound
    exact absurd rfl (hfound _ _)

theorem percentage_zeroed : ReadsZeroed percentage := by
  intro cs
  have hscan := unsignedNumber_zeroed cs
  cases h : unsignedNumber cs with
  | found word rest =>
    rw [h] at hscan
    rcases mark_zeroed (c := '%') rfl rest with ⟨more, rfl, hmore⟩ | ⟨hpercent, hzeroed⟩
    · have hscan' : unsignedNumber (zeroed cs) = .found (zeroed word) ('%' :: zeroed more) := by
        rw [hscan, ← hmore]
        rfl
      unfold percentage
      rw [h, hscan']
      exact congrArg (Scan.found · _) (zeroed_append word ['%']).symm
    · rw [percentage_of_found h hpercent, percentage_of_found hscan hzeroed]
      rfl
  | absent =>
    unfold percentage
    rw [hscan, h]
    rfl
  | broken part before mark =>
    unfold percentage
    rw [hscan, h]
    rfl

theorem coefficient_zeroed : ReadsZeroed coefficient := by
  intro cs
  unfold coefficient
  rw [optional_zeroed seesKinds_isSign]
  dsimp only
  rw [takeWhile_zeroed seesKinds_isDigit, dropWhile_zeroed seesKinds_isDigit]
  generalize (optional isSign cs).1 = sign
  generalize (optional isSign cs).2.takeWhile Char.isDigit = whole
  generalize (optional isSign cs).2.dropWhile Char.isDigit = more
  by_cases hwhole : whole = []
  · rw [if_pos hwhole, if_pos (zeroed_eq_nil.mpr hwhole)]
    rfl
  · rw [if_neg hwhole, if_neg (mt zeroed_eq_nil.mp hwhole)]
    split
    · rename_i rest hrest
      obtain ⟨second, rfl, hsecond⟩ := (zeroed_eq_cons rfl).mp hrest
      obtain ⟨third, rfl, hthird⟩ := (zeroed_eq_cons rfl).mp hsecond.symm
      obtain ⟨last, rfl, rfl⟩ := (zeroed_eq_cons rfl).mp hthird.symm
      show _ = Scan.found (zeroed (sign ++ whole ++ ['p', 'p', 'm'])) _
      rw [zeroed_append, zeroed_append]
      rfl
    · rename_i hno
      split
      · exact absurd rfl (hno _)
      · rfl

theorem name_zeroed : ReadsZeroed name := by
  intro cs
  cases cs with
  | nil => rfl
  | cons c cs =>
    show name (zeroDigit c :: zeroed cs) = _
    have halpha : (zeroDigit c).isAlpha = c.isAlpha := seesKinds_of (p := Char.isAlpha) rfl c
    have hchars : SeesKinds isNameChar := seesKinds_of rfl
    rw [name, name, halpha, takeWhile_zeroed hchars, dropWhile_zeroed hchars]
    cases c.isAlpha <;> rfl

end Lexeme

/-! ## Tokens -/

open Lexeme (ReadsZeroed SeesKinds digitChars mem_digitChars)

/-- Positions do not tell digits apart. -/
theorem Position.after_zeroed (p : Position) (text : List Char) : p.after (zeroed text) = p.after text := by
  have hnext : ∀ (p : Position) (c : Char), p.next (zeroDigit c) = p.next c := by
    intro p c
    unfold zeroDigit
    split
    · rename_i hc
      have hsame : digitChars.all (fun d => d != '\n' && d.utf8Size == 1) = true := rfl
      have hdigit := List.all_eq_true.mp hsame c (mem_digitChars hc)
      simp only [Bool.and_eq_true, bne_iff_ne, beq_iff_eq] at hdigit
      rw [next, next, if_neg hdigit.1, hdigit.2]
      rfl
    · rfl
  induction text generalizing p with
  | nil => rfl
  | cons c text ih =>
    show (p.next (zeroDigit c)).after (zeroed text) = _
    rw [hnext, ih]
    rfl

/-- Nor do sizes. -/
theorem byteSize_zeroed (text : List Char) : byteSize (zeroed text) = byteSize text := by
  have hoffset := congrArg Position.offset (Position.start.after_zeroed text)
  rw [Position.offset_after, Position.offset_after] at hoffset
  exact Nat.add_left_cancel hoffset

/-- The token with a zero for every digit. -/
def Token.zeroed (t : Token) : Token := ⟨WorstCase.zeroed t.text, t.extent⟩

namespace Cursor

/-- **The cursor in the zeroed text.** -/
def zeroed (c : Cursor) : Cursor := ⟨c.position, WorstCase.zeroed c.rest⟩

theorem skipBlanks_zeroed (c : Cursor) : c.zeroed.skipBlanks = c.skipBlanks.zeroed := by
  unfold skipBlanks
  dsimp only [zeroed]
  rw [Lexeme.takeWhile_zeroed Lexeme.seesKinds_isBlank, Lexeme.dropWhile_zeroed Lexeme.seesKinds_isBlank,
    Position.after_zeroed]

theorem ofText_zeroed (text : List Char) : ofText (WorstCase.zeroed text) = (ofText text).zeroed :=
  skipBlanks_zeroed ⟨Position.start, text⟩

theorem accept_zeroed (c : Cursor) (lexeme rest : List Char) :
    c.zeroed.accept (WorstCase.zeroed lexeme) (WorstCase.zeroed rest)
      = ((c.accept lexeme rest).1.zeroed, (c.accept lexeme rest).2.zeroed) := by
  unfold accept
  dsimp only [zeroed]
  rw [Position.after_zeroed]
  have hskip := skipBlanks_zeroed ⟨c.position.after lexeme, rest⟩
  dsimp only [zeroed] at hskip
  rw [hskip]
  rfl

/-- A mark has no digits to tell apart. -/
theorem accept_mark {mark : List Char} (hmark : WorstCase.zeroed mark = mark) (c : Cursor)
    (rest : List Char) :
    c.zeroed.accept mark (WorstCase.zeroed rest)
      = ((c.accept mark rest).1, (c.accept mark rest).2.zeroed) := by
  have haccept := c.accept_zeroed mark rest
  rw [hmark] at haccept
  rw [haccept]
  exact congrArg (fun text => (Token.mk text _, _)) hmark

/-- **The zeroed text has the tokens of the text**, with zeros for digits. -/
theorem token_zeroed {scan : List Char → Scan} (h : ReadsZeroed scan) (c : Cursor) :
    c.zeroed.token scan = (c.token scan).map (Option.map (Prod.map Token.zeroed zeroed)) := by
  unfold token
  rw [show c.zeroed.rest = WorstCase.zeroed c.rest from rfl, h]
  cases scan c.rest with
  | absent => rfl
  | found lexeme rest => exact congrArg (fun r => Except.ok (some r)) (accept_zeroed c lexeme rest)
  | broken part before mark =>
    dsimp only [Scan.zeroed]
    rw [byteSize_zeroed, byteSize_zeroed]
    rfl

end Cursor

end WorstCase
