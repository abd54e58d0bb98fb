import Mathlib.Data.List.Induction
import Mathlib.Data.List.TakeWhile
import Mathlib.Data.Nat.Digits.Defs
import WorstCase.Proofs.Formula.Faults
import WorstCase.Proofs.Formula.Zeroed

/-!
# Numbers that do not fit

A number can be well formed and yet too large to be read. It is an error then that names the number
(`ParseError.IsMisfit`), and nothing else about a number is: but for that, how large the numbers of a text
are makes no difference to whether it is a formula, or to what is wrong with it.

To say so, the text is read beside the zeroed text, in which every number fits. The two readings are the
same until the first one meets a number that does not fit (`UpToMisfit`). They take the same tokens, wait
for the same operands behind the same operators and have the same brackets open (`Progress.SameMarks`), and
where one of them fails for another reason, the other fails there too. What they do not share are the
values in the trees, and no error looks at these.

The argument goes along the reader. A number is where the two part, if they do; every other function
passes on what the functions it calls have done.
-/

namespace WorstCase

open Lexeme (ReadsZeroed Spells Numeral Magnitude Percentage Coefficient Name isSign isNumberChar
  isExponentMark)

/-! ## Zeros fit -/

namespace Lexeme

/-- A number consists of a sign, and characters that numbers can go on with. -/
theorem Numeral.isNumberChar_of_mem (n : Numeral) {c : Char} (h : c ∈ n.text) :
    isSign c = true ∨ isNumberChar c = true := by
  have hsign (o : Option (CharOf isSign)) (hc : c ∈ optionalText o) : isSign c = true := by
    cases o with
    | none => cases hc
    | some d => exact List.mem_singleton.mp hc ▸ d.property
  have hdigits (x : Digits) (hc : c ∈ x.text) : isNumberChar c = true := by
    simp [isNumberChar, isDecimalChar, x.isDigit c hc]
  obtain ⟨sign, whole, fraction, exponent⟩ := n
  simp only [Numeral.text, Unsigned.text, Unsigned.fractionText, Unsigned.exponentText,
    List.mem_append] at h
  rcases h with hc | (hc | hc) | hc
  · exact .inl (hsign sign hc)
  · exact .inr (hdigits whole hc)
  · cases fraction with
    | none => cases hc
    | some digits =>
      rcases List.mem_cons.mp hc with rfl | hc
      · exact .inr rfl
      · exact .inr (hdigits digits hc)
  · cases exponent with
    | none => cases hc
    | some part =>
      simp only [ExponentPart.text, List.cons_append, List.mem_cons, List.mem_append] at hc
      rcases hc with rfl | hc | hc
      · exact .inr (by simp [isNumberChar, part.mark.property])
      · exact .inl (hsign part.sign hc)
      · exact .inr (hdigits part.digits hc)

end Lexeme

/-- Characters that are no more than a zero spell nothing. -/
theorem digitsValue_eq_zero {digits : List Char} (h : ∀ c ∈ digits, c.toNat ≤ '0'.toNat) :
    digitsValue digits = 0 := by
  unfold digitsValue
  induction digits with
  | nil => rfl
  | cons c digits ih =>
    have hc : 10 * 0 + (c.toNat - '0'.toNat) = 0 := by
      rw [Nat.sub_eq_zero_of_le (h c List.mem_cons_self)]
    rw [List.foldl_cons, hc]
    exact ih fun d hd => h d (List.mem_cons_of_mem c hd)

/-- **A number whose digits are zeros fits**, whatever its exponent. Signs and the decimal point come before
the digits among the characters, and what is in front of the exponent has no other. -/
theorem Lexeme.Numeral.isFinite_of_zeros (n : Numeral)
    (h : ∀ c ∈ n.text, c.isDigit = true → c = '0') : (readNumber n.text).isFinite = true := by
  have hbody : ∀ c ∈ (optional isSign n.text).2, c ∈ n.text := by
    intro c hc
    rw [← optional_append isSign n.text]
    exact List.mem_append_right _ hc
  have hmantissa : ∀ c ∈ (optional isSign n.text).2.takeWhile (!isExponentMark ·),
      c.toNat ≤ '0'.toNat := by
    intro c hc
    have hmark := List.mem_takeWhile_imp hc
    have hmem := hbody c (List.takeWhile_subset _ hc)
    rcases n.isNumberChar_of_mem hmem with hsign | hnumber
    · simp only [isSign, Bool.or_eq_true, beq_iff_eq] at hsign
      rcases hsign with rfl | rfl <;> decide
    · simp only [isNumberChar, isDecimalChar, Bool.or_eq_true, beq_iff_eq] at hnumber
      rcases hnumber with (hdigit | rfl) | hexponent
      · exact h c hmem hdigit ▸ le_rfl
      · decide
      · rw [hexponent] at hmark
        cases hmark
  unfold readNumber Binary64.ofDecimal
  dsimp only
  rw [if_pos (digitsValue_eq_zero ?_)]
  · cases (optional isSign n.text).1 == ['-'] <;> rfl
  · intro c hc
    rcases List.mem_append.mp hc with hc | hc
    · exact hmantissa c (List.takeWhile_subset _ hc)
    · exact hmantissa c (List.dropWhile_subset _ (List.mem_of_mem_drop hc))

/-- The number that digits spell, counted from the last digit on. -/
theorem digitsValue_eq_ofDigits (digits : List Char) :
    digitsValue digits = Nat.ofDigits 10 (digits.reverse.map fun c => c.toNat - '0'.toNat) := by
  unfold digitsValue
  induction digits using List.reverseRecOn with
  | nil => rfl
  | append_singleton front last ih =>
    rw [List.foldl_append, ih, List.reverse_append, List.map_append, List.foldl_cons, List.foldl_nil]
    show _ = Nat.ofDigits 10 (_ :: _)
    rw [Nat.ofDigits_cons, Nat.add_comm]
    rfl

/-- **The whole number that a coefficient spells**, in base ten. -/
def Lexeme.Coefficient.written (x : Coefficient) : Int :=
  let digits : Nat := Nat.ofDigits 10 (x.digits.text.reverse.map fun c => c.toNat - '0'.toNat)
  if x.sign.map Subtype.val = some '-' then -digits else digits

/-- Without a sign, the whole number is that of the digits. -/
theorem signedValue_of_stops {text : List Char} (h : Lexeme.Stops isSign text) :
    signedValue text = digitsValue text := by
  unfold signedValue
  split
  · cases h '-' rfl
  · cases h '+' rfl
  · rfl

/-- It is the value that is read. -/
theorem Lexeme.Coefficient.value_eq (x : Coefficient) : x.value = x.written := by
  obtain ⟨sign, digits⟩ := x
  unfold written value number
  dsimp only
  rw [← digitsValue_eq_ofDigits]
  cases sign with
  | some c =>
    obtain ⟨c, hc⟩ := c
    simp only [isSign, Bool.or_eq_true, beq_iff_eq] at hc
    rcases hc with rfl | rfl <;> rfl
  | none =>
    have hhead := digits.stops_isSign []
    rw [List.append_nil] at hhead
    exact signedValue_of_stops hhead

/-- **A coefficient whose digits are zeros is zero.** -/
theorem Lexeme.Coefficient.value_of_zeros (x : Coefficient)
    (h : ∀ c ∈ x.text, c.isDigit = true → c = '0') : x.value = 0 := by
  have hdigits : digitsValue x.digits.text = 0 := by
    refine digitsValue_eq_zero fun c hc => ?_
    have hmem : c ∈ x.text := List.mem_append_left _ (List.mem_append_right _ hc)
    exact h c hmem (x.digits.isDigit c hc) ▸ le_rfl
  rw [x.value_eq, written, ← digitsValue_eq_ofDigits, hdigits]
  exact ite_self _

/-! ## Up to a number that does not fit -/

/-- A fault that blames a number for its size. -/
def ParseFault.BlamesNumber : ParseFault → Prop
  | .valueOutOfRange _ | .toleranceOutOfRange _ | .coefficientOutOfRange _ => True
  | _ => False

/-- **A scan finds a lexeme at a span of the text**, all of it and no more. -/
def Span.Finds (text : List Char) (scan : List Char → Scan) (s : Span) (lexeme : List Char) : Prop :=
  ∃ before rest, text = before ++ lexeme ++ rest ∧ scan (lexeme ++ rest) = .found lexeme rest
    ∧ s = ⟨Position.start.after before, Position.start.after (before ++ lexeme)⟩

/-- **An error that names a number that does not fit.** The number is a lexeme of the text, the error shows
where it starts, and it is of the kind that the fault says: the number of a quantity, an exponent or a
temperature, or a tolerance, that is too large for a finite number; or a coefficient that does not fit in 32
bits. -/
inductive ParseError.IsMisfit (dialect : Dialect) (text : List Char) : ParseError → Prop where
  | quantity {span} (x : Magnitude dialect) : span.Finds text (Lexeme.magnitude dialect) x.text →
      (readNumber x.number.text).isFinite = false →
      IsMisfit dialect text ⟨span.start.offset, .valueOutOfRange span⟩
  | number {span} (x : Numeral) : span.Finds text Lexeme.number x.text →
      (readNumber x.text).isFinite = false →
      IsMisfit dialect text ⟨span.start.offset, .valueOutOfRange span⟩
  | tolerance {span} (x : Percentage) : span.Finds text Lexeme.percentage x.text →
      (readNumber x.number.text).isFinite = false →
      IsMisfit dialect text ⟨span.start.offset, .toleranceOutOfRange span⟩
  | coefficient {span} (x : Coefficient) : span.Finds text Lexeme.coefficient x.text →
      ¬(-0x80000000 ≤ x.written ∧ x.written < 0x80000000) →
      IsMisfit dialect text ⟨span.start.offset, .coefficientOutOfRange span⟩

/-- Such an error blames the number. -/
theorem ParseError.IsMisfit.blamesNumber {dialect : Dialect} {text : List Char} {e : ParseError}
    (h : e.IsMisfit dialect text) : e.fault.BlamesNumber := by
  cases h <;> trivial

/-- **The two results of reading are the same**, by a relation between what is read, unless the first one
names a number that does not fit. Errors that blame no number are the same in both. -/
inductive UpToMisfit (dialect : Dialect) (text : List Char) {α β : Type} (A : α → β → Prop) :
    Except ParseError α → Except ParseError β → Prop where
  | ok {a b} (h : A a b) : UpToMisfit dialect text A (.ok a) (.ok b)
  | error {e} (h : ¬e.fault.BlamesNumber) : UpToMisfit dialect text A (.error e) (.error e)
  | misfit {e y} (h : e.IsMisfit dialect text) : UpToMisfit dialect text A (.error e) y

namespace UpToMisfit

variable {dialect : Dialect} {text : List Char} {α β γ δ : Type} {A : α → β → Prop}
  {B : γ → δ → Prop} {x : Except ParseError α} {y : Except ParseError β}

/-- **What goes on alike stays alike.** -/
theorem bind {f : α → Except ParseError γ} {g : β → Except ParseError δ}
    (h : UpToMisfit dialect text A x y)
    (hf : ∀ {a b}, A a b → UpToMisfit dialect text B (f a) (g b)) :
    UpToMisfit dialect text B (x >>= f) (y >>= g) := by
  cases h with
  | ok h => exact hf h
  | error h => exact .error h
  | misfit h => exact .misfit h

theorem map {f : α → γ} {g : β → δ} (h : UpToMisfit dialect text A x y)
    (hf : ∀ {a b}, A a b → B (f a) (g b)) : UpToMisfit dialect text B (x.map f) (y.map g) := by
  cases h with
  | ok h => exact .ok (hf h)
  | error h => exact .error h
  | misfit h => exact .misfit h

end UpToMisfit

/-! ## Tokens -/

/-- **What is read at a cursor and at the one in the zeroed text**, with cursors behind it that are such a
pair again. -/
structure ReadBeside (text : List Char) {α β : Type} (A : α → β → Prop) (r : α × Cursor)
    (s : β × Cursor) : Prop where
  result : A r.1 s.1
  cursor : s.2 = r.2.zeroed
  isAt : ∃ before, r.2.IsAt text before

/-- **A lexeme of the text and its counterpart**, which is a lexeme of the same kind. -/
structure Token.Beside (text : List Char) {α : Type} (scan : List Char → Scan) (spell : α → List Char)
    (t u : Token) : Prop where
  eq : u = t.zeroed
  finds : t.span.Finds text scan t.text
  spelt : ∃ x, spell x = t.text
  spelt_zeroed : ∃ x, spell x = u.text

section Tokens

variable {dialect : Dialect} {text before : List Char} {c : Cursor}

/-- The counterpart has no digits but zeros. -/
theorem Token.Beside.eq_zero {α : Type} {scan : List Char → Scan} {spell : α → List Char} {t u : Token}
    (h : t.Beside text scan spell u) : ∀ d ∈ u.text, d.isDigit = true → d = '0' := by
  rw [h.eq]
  exact fun d => Lexeme.eq_zero_of_mem_zeroed

/-- A cursor stays in its text when a lexeme is taken. -/
theorem Cursor.IsAt.accept (hc : c.IsAt text before) {lexeme rest : List Char}
    (hrest : c.rest = lexeme ++ rest) : ∃ before, (c.accept lexeme rest).2.IsAt text before := by
  obtain ⟨space, -, hreads⟩ := Cursor.accept_reads lexeme hrest
  exact ⟨_, hc.reads hreads⟩

/-- **A mark that is next is taken in both texts.** -/
theorem Cursor.accept_beside (hc : c.IsAt text before) {mark rest : List Char}
    (hmark : WorstCase.zeroed mark = mark) (hrest : c.rest = mark ++ rest) :
    ReadBeside text Eq (c.accept mark rest) (c.zeroed.accept mark (WorstCase.zeroed rest)) := by
  rw [accept_mark hmark]
  exact ⟨rfl, rfl, hc.accept hrest⟩

section Scan

variable {α : Type} {scan : List Char → Scan} {spell : α → List Char}

/-- **A scan takes counterparts in both texts.** -/
theorem Cursor.token_beside (hscan : ReadsZeroed scan) (hs : Spells scan spell)
    (hc : c.IsAt text before) :
    UpToMisfit dialect text (Option.Rel (ReadBeside text (Token.Beside text scan spell)))
      (c.token scan) (c.zeroed.token scan) := by
  rw [token_zeroed hscan]
  have hzeroed := hscan c.rest
  unfold token
  cases hfound : scan c.rest with
  | absent => exact .ok .none
  | broken part front mark => exact .error id
  | found lexeme rest =>
    rw [hfound] at hzeroed
    obtain ⟨x, rfl, hrest⟩ := hs.found hfound
    obtain ⟨y, hy, -⟩ := hs.found hzeroed
    have hfinds : (c.accept (spell x) rest).1.span.Finds text scan (spell x) := by
      refine ⟨before, rest, ?_, hrest ▸ hfound, ?_⟩
      · rw [hc.text_eq, hrest, List.append_assoc]
      · rw [Position.after_append, ← hc.position_eq]
        rfl
    exact .ok (.some ⟨⟨rfl, hfinds, ⟨x, rfl⟩, ⟨y, hy⟩⟩, rfl, hc.accept hrest⟩)

/-- The same where the lexeme may be left out. -/
theorem Cursor.optionalToken_beside (hscan : ReadsZeroed scan) (hs : Spells scan spell)
    (hc : c.IsAt text before) :
    UpToMisfit dialect text (ReadBeside text (Option.Rel (Token.Beside text scan spell)))
      (c.optionalToken scan) (c.zeroed.optionalToken scan) := by
  refine (token_beside hscan hs hc).bind fun {r s} hread => ?_
  cases hread with
  | none => exact .ok ⟨.none, rfl, before, hc⟩
  | some hread => exact .ok ⟨.some hread.result, hread.cursor, hread.isAt⟩

end Scan

/-! ## Numbers -/

/-- **A number that is read**, beside one that fits. -/
theorem Token.readFinite_beside {t u : Token} {number number' : List Char}
    {fault : Span → ParseFault}
    (hmisfit : (readNumber number).isFinite = false →
      ParseError.IsMisfit dialect text ⟨t.span.start.offset, fault t.span⟩)
    (hfits : (readNumber number').isFinite = true) :
    UpToMisfit dialect text (fun _ _ => True) (t.readFinite number fault)
      (u.readFinite number' fault) := by
  unfold readFinite
  dsimp only
  rw [if_pos hfits]
  split
  · exact .ok trivial
  · rename_i h
    exact .misfit (hmisfit (Bool.eq_false_iff.mpr h))

/-- The number of an exponent or a temperature. -/
theorem Token.readNumber_beside {t u : Token} (h : t.Beside text Lexeme.number Numeral.text u) :
    UpToMisfit dialect text (fun _ _ => True) (t.readFinite t.text .valueOutOfRange)
      (u.readFinite u.text .valueOutOfRange) := by
  obtain ⟨x, hx⟩ := h.spelt
  obtain ⟨y, hy⟩ := h.spelt_zeroed
  refine readFinite_beside (fun hmisfit => ?_) ?_
  · rw [← hx] at hmisfit
    exact .number x (hx ▸ h.finds) hmisfit
  · rw [← hy]
    exact y.isFinite_of_zeros fun d hd => h.eq_zero d (hy ▸ hd)

/-- The number of a tolerance. -/
theorem Token.readTolerance_beside {t u : Token} (h : t.Beside text Lexeme.percentage Percentage.text u) :
    UpToMisfit dialect text (fun _ _ => True) (t.readFinite t.text.dropLast .toleranceOutOfRange)
      (u.readFinite u.text.dropLast .toleranceOutOfRange) := by
  obtain ⟨x, hx⟩ := h.spelt
  obtain ⟨y, hy⟩ := h.spelt_zeroed
  have hdrop (p : Percentage) : p.text.dropLast = p.number.text := List.dropLast_concat
  refine readFinite_beside (fun hmisfit => ?_) ?_
  · rw [← hx, hdrop] at hmisfit
    exact .tolerance x (hx ▸ h.finds) hmisfit
  · rw [← hy, hdrop]
    refine Numeral.isFinite_of_zeros ⟨none, y.number⟩ fun d hd => h.eq_zero d ?_
    rw [← hy]
    exact List.mem_append_left _ hd

/-- The whole number of a coefficient. -/
theorem Token.readCoefficient_beside {t u : Token} (h : t.Beside text Lexeme.coefficient Coefficient.text u) :
    UpToMisfit dialect text (fun _ _ => True) t.readCoefficient u.readCoefficient := by
  obtain ⟨x, hx⟩ := h.spelt
  obtain ⟨y, hy⟩ := h.spelt_zeroed
  have hzero : y.value = 0 := y.value_of_zeros fun d hd => h.eq_zero d (hy ▸ hd)
  have hvalue : signedValue x.number = x.written := x.value_eq
  unfold readCoefficient
  dsimp only
  rw [← hx, ← hy, Coefficient.dropLast_text, Coefficient.dropLast_text, hvalue,
    show signedValue y.number = 0 from hzero,
    if_pos (show (-0x80000000 : Int) ≤ 0 ∧ (0 : Int) < 0x80000000 by decide)]
  split
  · exact .ok trivial
  · rename_i hmisfit
    exact .misfit (.coefficient x (hx ▸ h.finds) hmisfit)

/-! ## Literals -/

/-- A value that may be missing is missing in both, or read in both. -/
theorem Literal.readOptional_beside {α β : Type} {spell : β → List Char}
    {scan : List Char → Scan} {read : Token → Except ParseError α} {o o' : Option Token}
    (h : Option.Rel (Token.Beside text scan spell) o o')
    (hread : ∀ {t u}, t.Beside text scan spell u →
      UpToMisfit dialect text (fun _ _ => True) (read t) (read u)) :
    UpToMisfit dialect text (fun _ _ => True) (readOptional read o) (readOptional read o') := by
  cases h with
  | none => exact .ok trivial
  | some h => exact (hread h).map fun _ => trivial

/-- **The tokens of a literal fit in both**, or one of them does not in the text. -/
theorem Literal.ofTokens_beside {magnitude magnitude' : Token}
    {tolerance tolerance' coefficient coefficient' : Option Token}
    (hmagnitude : magnitude.Beside text (Lexeme.magnitude dialect)
      (fun x : Magnitude dialect => x.text) magnitude')
    (htolerance : Option.Rel (Token.Beside text Lexeme.percentage Percentage.text) tolerance tolerance')
    (hcoefficient : Option.Rel (Token.Beside text Lexeme.coefficient Coefficient.text) coefficient coefficient') :
    UpToMisfit dialect text (fun _ _ => True) (ofTokens magnitude tolerance coefficient)
      (ofTokens magnitude' tolerance' coefficient') := by
  obtain ⟨x, hx⟩ := hmagnitude.spelt
  obtain ⟨y, hy⟩ := hmagnitude.spelt_zeroed
  unfold ofTokens
  dsimp only
  refine (Token.readFinite_beside (fun hmisfit => ?_) ?_).bind fun _ => ?_
  · rw [← hx, MagnitudeParts.split_text] at hmisfit
    exact .quantity x (hx ▸ hmagnitude.finds) hmisfit
  · rw [← hy, MagnitudeParts.split_text]
    refine y.number.isFinite_of_zeros fun d hd => hmagnitude.eq_zero d ?_
    rw [← hy]
    exact List.mem_append_left _ hd
  refine (readOptional_beside htolerance Token.readTolerance_beside).bind fun _ => ?_
  refine (readOptional_beside hcoefficient Token.readCoefficient_beside).bind fun _ => ?_
  exact .ok trivial

/-! ## Operands and what goes on behind them -/

/-- Operands of the same kind, at the same place if they are brackets. -/
inductive Operand.SameKind : Operand → Operand → Prop where
  | atom (e f) : SameKind (.atom e) (.atom f)
  | opening {t u} (h : t = u) : SameKind (.opening t) (.opening u)

/-- Continuations of the same kind, which are the same operator if they are operators. -/
inductive Continuation.SameKind : Continuation → Continuation → Prop where
  | operator {op op'} (h : op = op') : SameKind (.operator op) (.operator op')
  | exponent (m n) : SameKind (.exponent m) (.exponent n)
  | temperature (m n) : SameKind (.temperature m) (.temperature n)

namespace Cursor

/-- **A literal is next in both texts**, or in neither. -/
theorem literal_beside (dialect : Dialect) (hc : c.IsAt text before) :
    UpToMisfit dialect text (Option.Rel (ReadBeside text fun _ _ => True))
      (c.literal dialect) (c.zeroed.literal dialect) := by
  unfold literal
  refine (token_beside (Lexeme.magnitude_zeroed dialect) (Lexeme.magnitude_spells dialect) hc).bind
    fun {r s} hmagnitude => ?_
  cases hmagnitude with
  | none => exact .ok .none
  | @some r s hmagnitude =>
    obtain ⟨magnitude, c₁⟩ := r
    obtain ⟨magnitude', d₁⟩ := s
    obtain ⟨hmagnitude, rfl, before₁, hc₁⟩ := hmagnitude
    dsimp only
    refine (optionalToken_beside Lexeme.percentage_zeroed Lexeme.percentage_spells hc₁).bind
      fun {r s} htolerance => ?_
    obtain ⟨tolerance, c₂⟩ := r
    obtain ⟨tolerance', d₂⟩ := s
    obtain ⟨htolerance, rfl, before₂, hc₂⟩ := htolerance
    dsimp only
    refine (optionalToken_beside Lexeme.coefficient_zeroed Lexeme.coefficient_spells hc₂).bind
      fun {r s} hcoefficient => ?_
    obtain ⟨coefficient, c₃⟩ := r
    obtain ⟨coefficient', d₃⟩ := s
    obtain ⟨hcoefficient, rfl, hc₃⟩ := hcoefficient
    dsimp only
    refine (Literal.ofTokens_beside hmagnitude htolerance hcoefficient).bind fun _ => ?_
    exact .ok (.some ⟨trivial, rfl, hc₃⟩)

/-- So is a variable. -/
theorem var_beside (hc : c.IsAt text before) :
    UpToMisfit dialect text (Option.Rel (ReadBeside text fun _ _ => True)) c.var c.zeroed.var := by
  unfold var
  refine (token_beside Lexeme.name_zeroed Lexeme.name_spells hc).bind fun {r s} hname => ?_
  cases hname with
  | none => exact .ok .none
  | some hname => exact .ok (.some ⟨trivial, hname.cursor, hname.isAt⟩)

theorem operand_beside (dialect : Dialect) (hc : c.IsAt text before) :
    UpToMisfit dialect text (Option.Rel (ReadBeside text Operand.SameKind))
      (c.operand dialect) (c.zeroed.operand dialect) := by
  unfold operand
  refine (literal_beside dialect hc).bind fun {r s} hliteral => ?_
  cases hliteral with
  | some hliteral => exact .ok (.some ⟨.atom _ _, hliteral.cursor, hliteral.isAt⟩)
  | none =>
    refine (var_beside hc).bind fun {r s} hvar => ?_
    cases hvar with
    | some hvar => exact .ok (.some ⟨.atom _ _, hvar.cursor, hvar.isAt⟩)
    | none =>
      rcases Lexeme.mark_zeroed (c := '(') rfl c.rest with ⟨rest, hrest, hzeroed⟩ | ⟨hrest, hzeroed⟩
      · have hmark := accept_beside hc (show WorstCase.zeroed ['('] = ['('] from rfl) hrest
        dsimp only
        rw [hrest, show c.zeroed.rest = '(' :: WorstCase.zeroed rest from hzeroed]
        exact .ok (.some ⟨.opening hmark.result, hmark.cursor, hmark.isAt⟩)
      · dsimp only
        split
        · rename_i heq
          exact absurd heq (hrest _)
        · split
          · rename_i heq
            exact absurd heq (hzeroed _)
          · exact .ok .none

/-- **A number that must follow** does so in both texts, or is missing in both. -/
theorem requiredNumber_beside {missing : ParseFault} (hmissing : ¬missing.BlamesNumber)
    (hc : c.IsAt text before) :
    UpToMisfit dialect text (ReadBeside text (Token.Beside text Lexeme.number Numeral.text))
      (c.requiredNumber missing) (c.zeroed.requiredNumber missing) := by
  unfold requiredNumber
  refine (token_beside Lexeme.number_zeroed Lexeme.number_spells hc).bind fun {r s} hnumber => ?_
  cases hnumber with
  | some hnumber => exact .ok hnumber
  | none =>
    dsimp only [zeroed]
    rw [Lexeme.optional_zeroed Lexeme.seesKinds_isSign, byteSize_zeroed]
    exact .error hmissing

theorem exponent_beside {r s : Token × Cursor} (hsign : ReadBeside text Eq r s) :
    UpToMisfit dialect text (ReadBeside text fun _ _ => True) (r.2.exponent r.1) (s.2.exponent s.1) := by
  obtain ⟨sign, c⟩ := r
  obtain ⟨sign', d⟩ := s
  obtain ⟨rfl, rfl, before, hc⟩ := hsign
  unfold exponent
  refine (requiredNumber_beside (by exact id) hc).bind fun {r s} hnumber => ?_
  refine (Token.readNumber_beside hnumber.result).bind fun _ => ?_
  exact .ok ⟨trivial, hnumber.cursor, hnumber.isAt⟩

theorem temperature_beside {r s : Token × Cursor} (hsign : ReadBeside text Eq r s) :
    UpToMisfit dialect text (ReadBeside text fun _ _ => True) (r.2.temperature r.1)
      (s.2.temperature s.1) := by
  obtain ⟨sign, c⟩ := r
  obtain ⟨sign', d⟩ := s
  obtain ⟨rfl, rfl, before, hc⟩ := hsign
  unfold temperature
  refine (requiredNumber_beside (by exact id) hc).bind fun {r s} hnumber => ?_
  obtain ⟨number, c₁⟩ := r
  obtain ⟨number', d₁⟩ := s
  obtain ⟨hnumber, rfl, before₁, hc₁⟩ := hnumber
  dsimp only
  have htail {extent extent' : Extent} {c₂ d₂ : Cursor} (hcursor : d₂ = c₂.zeroed)
      (hc₂ : ∃ before, c₂.IsAt text before) :
      UpToMisfit dialect text (ReadBeside text fun _ _ => True)
        (number.readFinite number.text .valueOutOfRange >>= fun value =>
          pure ((⟨value, extent⟩ : Node Binary64), c₂))
        (number'.readFinite number'.text .valueOutOfRange >>= fun value =>
          pure ((⟨value, extent'⟩ : Node Binary64), d₂)) :=
    (Token.readNumber_beside hnumber).bind fun _ => .ok ⟨trivial, hcursor, hc₂⟩
  -- the unit is two characters, and is taken if both are next
  rcases Lexeme.mark_zeroed (c := '°') rfl c₁.rest with ⟨rest, hrest, hzeroed⟩ | ⟨hrest, hzeroed⟩
  · rcases Lexeme.mark_zeroed (c := 'C') rfl rest with ⟨rest, rfl, hmore⟩ | ⟨hmore, hmore'⟩
    · have hunit := accept_beside hc₁ (show WorstCase.zeroed ['°', 'C'] = ['°', 'C'] from rfl) hrest
      rw [hrest, show c₁.zeroed.rest = '°' :: 'C' :: WorstCase.zeroed rest from hmore ▸ hzeroed]
      exact htail hunit.cursor hunit.isAt
    · rw [hrest, show c₁.zeroed.rest = '°' :: WorstCase.zeroed rest from hzeroed]
      split
      · rename_i heq
        cases heq
        exact absurd rfl (hmore _)
      · split
        · rename_i heq
          exact absurd (List.cons.inj heq).2 (hmore' _)
        · exact htail rfl ⟨_, hc₁⟩
  · split
    · rename_i heq
      exact absurd heq (hrest _)
    · split
      · rename_i heq
        exact absurd heq (hzeroed _)
      · exact htail rfl ⟨_, hc₁⟩

/-- **The operator that is next** is next in the zeroed text, too. -/
theorem binaryOperator?_zeroed (cs : List Char) :
    binaryOperator? (WorstCase.zeroed cs)
      = (binaryOperator? cs).map fun found => (found.1, found.2.1, WorstCase.zeroed found.2.2) := by
  cases cs with
  | nil => rfl
  | cons c cs =>
    show binaryOperator? (zeroDigit c :: WorstCase.zeroed cs) = _
    cases hdigit : c.isDigit with
    | true =>
      have hnone : ∀ d ∈ Lexeme.digitChars, ∀ ds, binaryOperator? (d :: ds) = none := by
        simp only [Lexeme.digitChars, List.forall_mem_cons]
        refine ⟨?_, ?_, ?_, ?_, ?_, ?_, ?_, ?_, ?_, ?_, nofun⟩ <;> exact fun _ => rfl
      rw [zeroDigit, if_pos hdigit, hnone c (Lexeme.mem_digitChars hdigit)]
      rfl
    | false =>
      rw [Lexeme.zeroDigit_of_not_isDigit hdigit]
      by_cases hslash : c = '/'
      · subst hslash
        have hdiv {ds : List Char} (h : ∀ rest, ds ≠ '/' :: rest) :
            binaryOperator? ('/' :: ds) = some (.div, ['/'], ds) := by
          rw [binaryOperator?]
          exact fun rest heq => h rest heq
        rcases Lexeme.mark_zeroed (c := '/') rfl cs with ⟨rest, rfl, hrest⟩ | ⟨hrest, hzeroed⟩
        · rw [hrest]
          rfl
        · rw [hdiv hrest, hdiv hzeroed]
          rfl
      · unfold binaryOperator?
        split <;> simp_all

theorem continuation_beside (hc : c.IsAt text before) :
    UpToMisfit dialect text (Option.Rel (ReadBeside text Continuation.SameKind)) c.continuation
      c.zeroed.continuation := by
  unfold continuation
  rw [show c.zeroed.rest = WorstCase.zeroed c.rest from rfl, binaryOperator?_zeroed]
  cases hop : binaryOperator? c.rest with
  | some found =>
    obtain ⟨op, lexeme, rest⟩ := found
    obtain ⟨hrest, -⟩ := binaryOperator?_eq_some hop
    obtain rfl := binaryOperator?_lexeme hop
    have hmark : WorstCase.zeroed op.lexeme = op.lexeme := by cases op <;> rfl
    have hsign := accept_beside hc hmark hrest
    exact .ok (.some ⟨.operator (congrArg (Token.node · op) hsign.result), hsign.cursor, hsign.isAt⟩)
  | none =>
    dsimp only [Option.map_none]
    rcases Lexeme.mark_zeroed (c := '^') rfl c.rest with ⟨rest, hrest, hzeroed⟩ | ⟨hpower, hpower'⟩
    · have hsign := accept_beside hc (show WorstCase.zeroed ['^'] = ['^'] from rfl) hrest
      rw [hzeroed, hrest]
      refine (exponent_beside hsign).bind fun {r s} hvalue => ?_
      exact .ok (.some ⟨.exponent _ _, hvalue.cursor, hvalue.isAt⟩)
    rcases Lexeme.mark_zeroed (c := '@') rfl c.rest with ⟨rest, hrest, hzeroed⟩ | ⟨hat, hat'⟩
    · have hsign := accept_beside hc (show WorstCase.zeroed ['@'] = ['@'] from rfl) hrest
      rw [hzeroed, hrest]
      refine (temperature_beside hsign).bind fun {r s} hdegrees => ?_
      exact .ok (.some ⟨.temperature _ _, hdegrees.cursor, hdegrees.isAt⟩)
    · split
      · rename_i heq
        exact absurd heq (hpower _)
      · rename_i heq
        exact absurd heq (hat _)
      · exact .ok .none

end Cursor

end Tokens

/-! ## Steps -/

/-- What waits for its right operand behind the same operators. -/
structure Pending.SameMarks (p q : Pending) : Prop where
  sum : Option.Rel (fun a b : Waiting => a.2 = b.2) p.sum q.sum
  product : Option.Rel (fun a b : Waiting => a.2 = b.2) p.product q.product

/-- **The same operators wait and the same brackets are open**, and an operand was just read, or is
expected. -/
structure Progress.SameMarks (p q : Progress) : Prop where
  pending : p.pending.SameMarks q.pending
  outer : List.Forall₂ (fun a b : Token × Pending => a.1 = b.1 ∧ a.2.SameMarks b.2) p.outer q.outer
  operand : Option.Rel (fun _ _ => True) p.operand q.operand

/-- An operator is pushed onto both. -/
theorem Pending.SameMarks.push {p q : Pending} (h : p.SameMarks q) (e f : Expr Binary64)
    (op : Node BinaryOperator) : (p.push e op).SameMarks (q.push f op) := by
  unfold Pending.push
  split
  · exact ⟨.some rfl, .none⟩
  · exact ⟨h.sum, .some rfl⟩

/-- **An operand is missing after the same operator or bracket.** -/
theorem Progress.SameMarks.missing {p q : Progress} (h : p.SameMarks q) (atStart : ParseFault) :
    p.missing atStart = q.missing atStart := by
  obtain ⟨⟨sum, product⟩, outer, operand⟩ := p
  obtain ⟨⟨sum', product'⟩, outer', operand'⟩ := q
  obtain ⟨⟨hsum, hproduct⟩, houter, -⟩ := h
  have hlast : Pending.lastOperator ⟨sum, product⟩ = Pending.lastOperator ⟨sum', product'⟩ := by
    cases hproduct with
    | some h => exact congrArg some h
    | none =>
      cases hsum with
      | some h => exact congrArg some h
      | none => rfl
  unfold Progress.missing
  dsimp only
  rw [hlast]
  cases houter with
  | nil => rfl
  | @cons g g' _ _ hgroup =>
    dsimp only
    rw [hgroup.1]

/-- What is missing is no number of the wrong size. -/
theorem Progress.not_blamesNumber_missing {atStart : ParseFault} (h : ¬atStart.BlamesNumber)
    (p : Progress) : ¬(p.missing atStart).BlamesNumber := by
  unfold missing
  split
  · exact id
  · split
    · exact id
    · exact h

/-- **Steps in the text and in the zeroed text**: the same, unless the first one fails at a number that
does not fit. -/
inductive StepBeside (dialect : Dialect) (text : List Char) : Step → Step → Prop where
  | more {p q c d} (hp : p.SameMarks q) (hd : d = c.zeroed) (hc : ∃ before, c.IsAt text before) :
    StepBeside dialect text (.more p c) (.more q d)
  | done {e f c d} (hd : d = c.zeroed) (hc : ∃ before, c.IsAt text before) :
    StepBeside dialect text (.done e c) (.done f d)
  | failed {e} (h : ¬e.fault.BlamesNumber) : StepBeside dialect text (.failed e) (.failed e)
  | misfit {e s} (h : e.IsMisfit dialect text) : StepBeside dialect text (.failed e) s

section Steps

variable {dialect : Dialect} {text before : List Char} {c : Cursor} {p q : Progress}
  {atStart : ParseFault}

theorem stepOperand_beside (hstart : ¬atStart.BlamesNumber) (hp : p.SameMarks q)
    (hc : c.IsAt text before) :
    StepBeside dialect text (stepOperand dialect atStart p c) (stepOperand dialect atStart q c.zeroed) := by
  have hoperand := Cursor.operand_beside dialect hc
  unfold stepOperand
  generalize c.operand dialect = r at hoperand ⊢
  generalize c.zeroed.operand dialect = s at hoperand ⊢
  cases hoperand with
  | error h => exact .failed h
  | misfit h => exact .misfit h
  | ok hread =>
    cases hread with
    | none =>
      dsimp only
      rw [hp.missing atStart]
      exact .failed (q.not_blamesNumber_missing hstart)
    | @some r s hread =>
      obtain ⟨operand, c₁⟩ := r
      obtain ⟨operand', d₁⟩ := s
      obtain ⟨hresult, hcursor, hc₁⟩ := hread
      cases hresult with
      | atom e f => exact .more ⟨hp.pending, hp.outer, .some trivial⟩ hcursor hc₁
      | opening hbracket =>
        exact .more ⟨⟨.none, .none⟩, .cons ⟨hbracket, hp.pending⟩ hp.outer, .none⟩ hcursor hc₁

theorem stepClose_beside (hp : p.SameMarks q) (hc : c.IsAt text before) (e f : Expr Binary64) :
    StepBeside dialect text (stepClose p e c) (stepClose q f c.zeroed) := by
  have houter := hp.outer
  unfold stepClose
  generalize p.outer = outer at houter ⊢
  generalize q.outer = outer' at houter ⊢
  cases houter with
  | nil => exact .done rfl ⟨before, hc⟩
  | @cons g g' _ _ hgroup houter =>
    obtain ⟨bracket, pending⟩ := g
    obtain ⟨bracket', pending'⟩ := g'
    obtain ⟨rfl, hpending⟩ := hgroup
    dsimp only
    rcases Lexeme.mark_zeroed (c := ')') rfl c.rest with ⟨rest, hrest, hzeroed⟩ | ⟨hrest, hzeroed⟩
    · have hclosing := Cursor.accept_beside hc (show zeroed [')'] = [')'] from rfl) hrest
      rw [hrest, show c.zeroed.rest = ')' :: zeroed rest from hzeroed]
      exact .more ⟨hpending, houter, .some trivial⟩ hclosing.cursor hclosing.isAt
    · split
      · rename_i heq
        exact absurd heq (hrest _)
      · split
        · rename_i heq
          exact absurd heq (hzeroed _)
        · exact .failed id

theorem stepContinuation_beside (hp : p.SameMarks q) (hc : c.IsAt text before)
    (e f : Expr Binary64) :
    StepBeside dialect text (stepContinuation p e c) (stepContinuation q f c.zeroed) := by
  have hcontinuation : UpToMisfit dialect text _ _ _ := Cursor.continuation_beside hc
  unfold stepContinuation
  generalize c.continuation = r at hcontinuation ⊢
  generalize c.zeroed.continuation = s at hcontinuation ⊢
  cases hcontinuation with
  | error h => exact .failed h
  | misfit h => exact .misfit h
  | ok hread =>
    cases hread with
    | none => exact stepClose_beside hp hc e f
    | @some r s hread =>
      obtain ⟨k, c₁⟩ := r
      obtain ⟨k', d₁⟩ := s
      obtain ⟨hresult, hcursor, hc₁⟩ := hread
      cases hresult with
      | operator hop =>
        subst hop
        exact .more ⟨hp.pending.push e f _, hp.outer, .none⟩ hcursor hc₁
      | exponent m n => exact .more ⟨hp.pending, hp.outer, .some trivial⟩ hcursor hc₁
      | temperature m n => exact .more ⟨hp.pending, hp.outer, .some trivial⟩ hcursor hc₁

/-- **A step does the same in both texts.** -/
theorem step_beside (hstart : ¬atStart.BlamesNumber) (hp : p.SameMarks q) (hc : c.IsAt text before) :
    StepBeside dialect text (step dialect atStart p c) (step dialect atStart q c.zeroed) := by
  have hoperand := hp.operand
  unfold step
  generalize p.operand = o at hoperand ⊢
  generalize q.operand = o' at hoperand ⊢
  cases hoperand with
  | none => exact stepOperand_beside hstart hp hc
  | some _ => exact stepContinuation_beside hp hc _ _

/-- **So do all steps**, up to a number that does not fit. -/
theorem readSteps_beside (hstart : ¬atStart.BlamesNumber) (hp : p.SameMarks q)
    (hc : c.IsAt text before) :
    UpToMisfit dialect text (ReadBeside text fun _ _ => True) (readSteps dialect atStart p c)
      (readSteps dialect atStart q c.zeroed) := by
  induction p, c using readSteps.induct dialect atStart generalizing q before with
  | case1 p c p₁ c₁ hstep ih =>
    have hsame : StepBeside dialect text _ _ := step_beside hstart hp hc
    rw [hstep] at hsame
    rw [readSteps_of_more hstep]
    generalize hstep' : step dialect atStart q c.zeroed = t at hsame
    cases hsame with
    | more hp₁ hd hc₁ =>
      obtain ⟨before₁, hc₁⟩ := hc₁
      subst hd
      rw [readSteps_of_more hstep']
      exact ih hp₁ hc₁
  | case2 p c e c₁ hstep =>
    have hsame : StepBeside dialect text _ _ := step_beside hstart hp hc
    rw [hstep] at hsame
    rw [readSteps_of_done hstep]
    generalize hstep' : step dialect atStart q c.zeroed = t at hsame
    cases hsame with
    | done hd hc₁ =>
      rw [readSteps_of_done hstep']
      exact .ok ⟨trivial, hd, hc₁⟩
  | case3 p c e hstep =>
    have hsame : StepBeside dialect text _ _ := step_beside hstart hp hc
    rw [hstep] at hsame
    rw [readSteps_of_failed hstep]
    generalize hstep' : step dialect atStart q c.zeroed = t at hsame
    cases hsame with
    | failed h =>
      rw [readSteps_of_failed hstep']
      exact .error h
    | misfit h => exact .misfit h

/-! ## Whole texts -/

/-- **The same expression is next in both texts**, but for the size of its numbers. -/
theorem Cursor.expr_beside (hstart : ¬atStart.BlamesNumber) (hc : c.IsAt text before) :
    UpToMisfit dialect text (ReadBeside text fun _ _ => True) (c.expr dialect atStart)
      (c.zeroed.expr dialect atStart) :=
  readSteps_beside hstart ⟨⟨.none, .none⟩, .nil, .none⟩ hc

/-- Text is left over in both, or in neither. -/
theorem finish_beside {α β : Type} {A : α → β → Prop} {r : α × Cursor} {s : β × Cursor}
    (h : ReadBeside text A r s) : UpToMisfit dialect text A (finish r) (finish s) := by
  have hrest : s.2.rest = [] ↔ r.2.rest = [] := by
    rw [h.cursor]
    exact Lexeme.zeroed_eq_nil
  unfold finish
  by_cases hnil : r.2.rest = []
  · rw [if_pos hnil, if_pos (hrest.mpr hnil)]
    exact .ok h.result
  · rw [if_neg hnil, if_neg (mt hrest.mp hnil), h.cursor]
    exact .error id

/-- **An assignment starts in both texts**, or in neither. -/
theorem Cursor.assignment_beside (hc : c.IsAt text before) :
    UpToMisfit dialect text (Option.Rel fun r s => ReadBeside text Eq r.2 s.2) c.assignment
      c.zeroed.assignment := by
  unfold assignment
  refine (token_beside Lexeme.name_zeroed Lexeme.name_spells hc).bind fun {r s} hname => ?_
  cases hname with
  | none => exact .ok .none
  | @some r s hname =>
    obtain ⟨name, c₁⟩ := r
    obtain ⟨name', d₁⟩ := s
    obtain ⟨-, rfl, before₁, hc₁⟩ := hname
    dsimp only
    rcases Lexeme.mark_zeroed (c := '=') rfl c₁.rest with ⟨rest, hrest, hzeroed⟩ | ⟨hrest, hzeroed⟩
    · have hsign := accept_beside hc₁ (show WorstCase.zeroed ['='] = ['='] from rfl) hrest
      rw [hrest, show c₁.zeroed.rest = '=' :: WorstCase.zeroed rest from hzeroed]
      exact .ok (.some hsign)
    · split
      · rename_i heq
        exact absurd heq (hrest _)
      · split
        · rename_i heq
          exact absurd heq (hzeroed _)
        · exact .ok .none

/-- **A text and the zeroed text are parsed alike**, as expressions, up to a number that does not fit. -/
theorem parseExpression_beside (dialect : Dialect) (text : List Char) :
    UpToMisfit dialect text (fun _ _ => True) (parseExpression dialect text)
      (parseExpression dialect (zeroed text)) := by
  unfold parseExpression
  rw [Cursor.ofText_zeroed]
  exact (Cursor.expr_beside id (Cursor.isAt_ofText text)).bind finish_beside

/-- And as lines. -/
theorem parseStatement_beside (dialect : Dialect) (text : List Char) :
    UpToMisfit dialect text (fun _ _ => True) (parseStatement dialect text)
      (parseStatement dialect (zeroed text)) := by
  have hstart := Cursor.isAt_ofText text
  unfold parseStatement
  rw [Cursor.ofText_zeroed]
  refine (Cursor.assignment_beside hstart).bind fun {r s} hassignment => ?_
  cases hassignment with
  | none =>
    refine (Cursor.expr_beside id hstart).bind fun {r s} hvalue => ?_
    exact finish_beside ⟨trivial, hvalue.cursor, hvalue.isAt⟩
  | @some r s hassignment =>
    obtain ⟨name, sign, c₁⟩ := r
    obtain ⟨name', sign', d₁⟩ := s
    obtain ⟨hsign, hcursor, before, hc₁⟩ := hassignment
    dsimp only at hsign hcursor hc₁
    subst hsign hcursor
    refine (Cursor.expr_beside id hc₁).bind fun {r s} hvalue => ?_
    exact finish_beside ⟨trivial, hvalue.cursor, hvalue.isAt⟩

end Steps

end WorstCase
