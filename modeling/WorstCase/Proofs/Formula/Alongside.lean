import WorstCase.Proofs.Formula.Alike
import WorstCase.Proofs.Formula.Apart
import WorstCase.Proofs.Formula.Extents
import WorstCase.Proofs.Formula.Reading

/-!
# Reading two texts alongside

The reader does the same on two texts that have the same words. What it needs for that is said about
pairs of cursors (`Alongside`): the texts at them are respaced, and the pair moves on to such a pair past
a lexeme that is next in both, and past the blanks. Whatever relation between cursors is like that, two
cursors in it are read to trees that are alike, or to errors that are; places are related if they are
those of two cursors so related (`Together`).

The proof goes along the reader, function by function: what each takes in one text, it takes in the
other. The run of the steps is then an induction on the text that is left.

For most of these functions the texts need not have the same words, but only the same marks in front
(`Abreast`): numbers that must follow, operators and brackets are the same already. Operands are not, since
names and magnitudes go on with letters. What can be said of them is said for operands that were found to
be alike, whatever the reason.
-/

namespace WorstCase

open Lexeme (StopsApart StopsAtMarks Spells Solid Stops isMarkChar isUnitChar)

/-- **A relation between cursors that reading keeps.** -/
structure Alongside (alike : Cursor → Cursor → Prop) : Prop where
  /-- The texts at the cursors have the same words. -/
  respaced : ∀ {c d}, alike c d → Respaced c.rest d.rest
  /-- The cursors go on past what is next in both. -/
  behind : ∀ {c d piece rest rest'}, alike c d → c.rest = piece ++ rest → d.rest = piece ++ rest' →
    Solid piece → alike ⟨c.position.after piece, rest⟩ ⟨d.position.after piece, rest'⟩
  /-- They go on past the blanks. -/
  skipBlanks : ∀ {c d}, alike c d → alike c.skipBlanks d.skipBlanks

/-- **A relation between cursors that reading keeps, operands apart.** -/
structure Abreast (alike : Cursor → Cursor → Prop) : Prop where
  /-- The texts at the cursors have the same marks in front. -/
  sameMarks : ∀ {c d}, alike c d → SameMarks c.rest d.rest
  /-- The cursors go on past what is next in both. -/
  behind : ∀ {c d piece rest rest'}, alike c d → c.rest = piece ++ rest → d.rest = piece ++ rest' →
    Solid piece → alike ⟨c.position.after piece, rest⟩ ⟨d.position.after piece, rest'⟩
  /-- They go on past the blanks. -/
  skipBlanks : ∀ {c d}, alike c d → alike c.skipBlanks d.skipBlanks

theorem Alongside.abreast {alike : Cursor → Cursor → Prop} (ha : Alongside alike) : Abreast alike where
  sameMarks h := (ha.respaced h).sameMarks
  behind := ha.behind
  skipBlanks := ha.skipBlanks

/-- **Positions of two cursors** in a relation. -/
def Together (alike : Cursor → Cursor → Prop) (p q : Position) : Prop :=
  ∃ rest rest', alike ⟨p, rest⟩ ⟨q, rest'⟩

/-- Results that are alike, with cursors behind them that are. -/
structure ReadAlike {α β : Type} (A : α → β → Prop) (alike : Cursor → Cursor → Prop)
    (r : α × Cursor) (s : β × Cursor) : Prop where
  result : A r.1 s.1
  cursor : alike r.2 s.2

/-- An operator is in a piece that no mark comes after. -/
theorem Cursor.binaryOperator?_stops {word more : List Char} (h : Stops isMarkChar more) :
    binaryOperator? (word ++ more)
      = (binaryOperator? word).map fun found => (found.1, found.2.1, found.2.2 ++ more) := by
  have hmore : ∀ mark, isMarkChar mark = true → ∀ cs, more ≠ mark :: cs := by
    rintro mark hmark cs rfl
    exact h.ne_mark hmark rfl
  rcases word with _ | ⟨c, _ | ⟨d, word⟩⟩
  · unfold binaryOperator?
    rw [List.nil_append]
    split <;> first | rfl | exact absurd rfl (hmore _ (by decide) _)
  · rcases more with _ | ⟨d, cs⟩
    · rw [List.append_nil]
      cases binaryOperator? [c] <;> simp
    · simp only [List.singleton_append]
      have hd : d ≠ '/' := h.ne_mark (by decide)
      unfold binaryOperator?
      split <;> simp_all
  · by_cases hc : c = '/'
    · subst hc
      by_cases hd : d = '/'
      · subst hd
        rfl
      · simp [binaryOperator?, hd]
    · simp only [List.cons_append]
      unfold binaryOperator?
      split <;> simp_all

/-- **The operator that is next is the same**: two marks that make one operator have nothing between
them. -/
theorem Cursor.binaryOperator?_sameMarks {cs ds : List Char} (h : SameMarks cs ds) :
    (∃ op rest rest', binaryOperator? cs = some (op, op.lexeme, rest)
        ∧ binaryOperator? ds = some (op, op.lexeme, rest'))
      ∨ binaryOperator? cs = none ∧ binaryOperator? ds = none := by
  obtain ⟨word, es, fs, rfl, rfl, hes, hfs⟩ := h
  rw [binaryOperator?_stops hes, binaryOperator?_stops hfs]
  cases hword : binaryOperator? word with
  | none => exact .inr ⟨rfl, rfl⟩
  | some found =>
    obtain ⟨op, lexeme, rest⟩ := found
    obtain rfl := binaryOperator?_lexeme hword
    exact .inl ⟨op, _, _, rfl, rfl⟩

/-- A unit is the last character of the magnitude that has it. -/
theorem MagnitudeParts.unit_eq_some {text : List Char} {c : Char}
    (h : (MagnitudeParts.split text).unit = some c) : ∃ front, text = front ++ [c] := by
  rcases List.eq_nil_or_concat text with rfl | ⟨front, last, rfl⟩
  · cases h
  · rw [List.concat_eq_append] at h ⊢
    unfold split at h
    dsimp only at h
    cases hlast : isUnitChar last with
    | false =>
      rw [popLast_of_neg hlast] at h
      cases h
    | true =>
      rw [popLast_of_pos hlast] at h
      cases h
      exact ⟨front, rfl⟩

/-! ## Numbers and magnitudes -/

section Numbers

variable {R : Position → Position → Prop} {start start' : ParseFault} {t u : Token}

/-- **Numbers of the same text are in range in both, or out of it in both.** -/
theorem Token.readFinite_alike (h : t.extent.Alike R u.extent) {text : List Char}
    {fault : Span → ParseFault}
    (hfault : ∀ {s s'}, Span.Alike R s s' → ParseFault.Alike R start start' (fault s) (fault s')) :
    Except.Rel (ParseError.Alike R start start') Eq (t.readFinite text fault)
      (u.readFinite text fault) := by
  unfold readFinite
  dsimp only
  split
  · exact .ok rfl
  · exact .error ⟨⟨_, _, h.span.start, rfl, rfl⟩, hfault h.span⟩

theorem Token.readCoefficient_alike (h : t.Alike R u) :
    Except.Rel (ParseError.Alike R start start') Eq t.readCoefficient u.readCoefficient := by
  unfold readCoefficient
  dsimp only
  rw [← h.text]
  split
  · exact .ok rfl
  · exact .error ⟨⟨_, _, h.extent.span.start, rfl, rfl⟩, .coefficientOutOfRange h.extent.span⟩

theorem Literal.readOptional_alike {α : Type} {read : Token → Except ParseError α}
    {o o' : Option Token} (h : Option.Rel (Token.Alike R) o o')
    (hread : ∀ {t u}, t.Alike R u →
      Except.Rel (ParseError.Alike R start start') Eq (read t) (read u)) :
    Except.Rel (ParseError.Alike R start start') (Option.Rel (Node.Alike R))
      (Literal.readOptional read o) (Literal.readOptional read o') := by
  cases h with
  | none => exact .ok .none
  | some h =>
    refine (hread h).map fun hvalue => ?_
    subst hvalue
    exact .some (h.node _)

/-- **Magnitudes of the same number, prefix and unit**, however they are spelt, at related places. -/
structure Token.SameMagnitude (R : Position → Position → Prop) (t u : Token) : Prop where
  extent : t.extent.Alike R u.extent
  number : (MagnitudeParts.split t.text).number = (MagnitudeParts.split u.text).number
  factor : Literal.prefixFactor (MagnitudeParts.split t.text)
    = Literal.prefixFactor (MagnitudeParts.split u.text)
  unit : Option.Rel (Node.Alike R) (Literal.unitNode t (MagnitudeParts.split t.text))
    (Literal.unitNode u (MagnitudeParts.split u.text))

/-- Tokens of the same text are the same magnitude. The unit is the last character, and what is before it
is in both. -/
theorem Token.Alike.sameMagnitude (h : t.Alike R u) : t.SameMagnitude R u where
  extent := h.extent
  number := by rw [h.text]
  factor := by rw [h.text]
  unit := by
    rw [← h.text]
    unfold Literal.unitNode
    cases hunit : (MagnitudeParts.split t.text).unit with
    | none => exact .none
    | some c =>
      obtain ⟨front, hfront⟩ := MagnitudeParts.unit_eq_some hunit
      dsimp only [Option.bind_some]
      cases UnitSymbol.ofChar? c with
      | none => exact .none
      | some unit => exact .some ⟨rfl, ⟨h.last front c hfront, h.extent.span.stop⟩, h.extent.space⟩

/-- **The tokens of a literal make literals that are alike.** -/
theorem Literal.ofTokens_alike {tolerance tolerance' coefficient coefficient' : Option Token}
    (h : t.SameMagnitude R u) (htolerance : Option.Rel (Token.Alike R) tolerance tolerance')
    (hcoefficient : Option.Rel (Token.Alike R) coefficient coefficient') :
    Except.Rel (ParseError.Alike R start start') (Literal.Alike R)
      (Literal.ofTokens t tolerance coefficient) (Literal.ofTokens u tolerance' coefficient') := by
  unfold Literal.ofTokens
  dsimp only
  rw [← h.number, ← h.factor]
  refine (Token.readFinite_alike h.extent .valueOutOfRange).bind fun hvalue => ?_
  refine (Literal.readOptional_alike htolerance fun ht => ?_).bind fun htolerance => ?_
  · rw [← ht.text]
    exact Token.readFinite_alike ht.extent .toleranceOutOfRange
  refine (Literal.readOptional_alike hcoefficient Token.readCoefficient_alike).bind
    fun hcoefficient => ?_
  subst hvalue
  exact .ok ⟨rfl, h.unit, htolerance, hcoefficient⟩

end Numbers

/-! ## Results of the reader -/

/-- Operands that are alike. -/
inductive OperandAlike (R : Position → Position → Prop) : Operand → Operand → Prop where
  | atom {e f} (h : e.Alike R f) : OperandAlike R (.atom e) (.atom f)
  | opening {t u} (h : t.Alike R u) : OperandAlike R (.opening t) (.opening u)

/-- Continuations that are alike. -/
inductive ContinuationAlike (R : Position → Position → Prop) : Continuation → Continuation → Prop where
  | operator {op op'} (h : op.Alike R op') : ContinuationAlike R (.operator op) (.operator op')
  | exponent {m n} (h : m.Alike R n) : ContinuationAlike R (.exponent m) (.exponent n)
  | temperature {m n} (h : m.Alike R n) : ContinuationAlike R (.temperature m) (.temperature n)

/-- **Steps that are alike.** -/
inductive StepAlike (alike : Cursor → Cursor → Prop) (start start' : ParseFault) :
    Step → Step → Prop where
  | more {p q c d} (hp : p.Alike (Together alike) q) (h : alike c d) :
    StepAlike alike start start' (.more p c) (.more q d)
  | done {e f c d} (he : e.Alike (Together alike) f) (h : alike c d) :
    StepAlike alike start start' (.done e c) (.done f d)
  | failed {e f} (h : e.Alike (Together alike) start start' f) :
    StepAlike alike start start' (.failed e) (.failed f)

/-! ## What needs the same marks -/

section Places

variable {alike : Cursor → Cursor → Prop} {c d : Cursor}

theorem together_of (h : alike c d) : Together alike c.position d.position := ⟨_, _, h⟩

theorem offsetAlike_of (h : alike c d) :
    OffsetAlike (Together alike) c.position.offset d.position.offset :=
  ⟨_, _, together_of h, rfl, rfl⟩

end Places

namespace Abreast

variable {alike : Cursor → Cursor → Prop} {start start' : ParseFault} {c d : Cursor}

/-! ### Tokens -/

/-- Offsets behind what is next in both. -/
theorem offset_add (ha : Abreast alike) (h : alike c d) {piece rest rest' : List Char}
    (hc : c.rest = piece ++ rest) (hd : d.rest = piece ++ rest') (hsolid : Solid piece) :
    OffsetAlike (Together alike) (c.position.offset + byteSize piece)
      (d.position.offset + byteSize piece) :=
  ⟨_, _, together_of (ha.behind h hc hd hsolid), Position.offset_after _ _, Position.offset_after _ _⟩

/-- **A lexeme that is next in both is taken in both.** -/
theorem accept (ha : Abreast alike) (h : alike c d) (lexeme : List Char)
    {rest rest' : List Char} (hc : c.rest = lexeme ++ rest) (hd : d.rest = lexeme ++ rest')
    (hsolid : Solid lexeme) :
    ReadAlike (Token.Alike (Together alike)) alike
      (c.accept lexeme rest) (d.accept lexeme rest') := by
  have hbehind := ha.behind h hc hd hsolid
  have hnext := ha.skipBlanks hbehind
  refine ⟨⟨rfl, ⟨⟨together_of h, together_of hbehind⟩, ⟨together_of hbehind, together_of hnext⟩⟩, ?_⟩, hnext⟩
  intro front last hlast
  replace hlast : lexeme = front ++ [last] := hlast
  subst hlast
  have hline : last ≠ '\n' := by
    rintro rfl
    cases hsolid '\n' List.mem_concat_self
  have hback : ∀ p : Position, (p.after (front ++ [last])).back last.utf8Size = p.after front := by
    intro p
    rw [Position.after_append]
    exact Position.back_next hline _
  show Together alike ((c.position.after _).back _) ((d.position.after _).back _)
  rw [hback, hback]
  rw [List.append_assoc] at hc hd
  exact together_of (ha.behind h hc hd fun x hx => hsolid x (List.mem_append_left _ hx))

section Scan

variable {α : Type} {scan : List Char → Scan} {spell : α → List Char}

/-- **A scan that finds the same takes the same token in both**, or fails in both. -/
theorem token_of_scan (ha : Abreast alike) (hsame : (scan c.rest).Alike (scan d.rest))
    (hs : Spells scan spell) (hsolid : ∀ x, Solid (spell x)) (h : alike c d) :
    Except.Rel (ParseError.Alike (Together alike) start start')
      (Option.Rel (ReadAlike (Token.Alike (Together alike)) alike)) (c.token scan) (d.token scan) := by
  unfold Cursor.token
  generalize hc : scan c.rest = s at hsame ⊢
  generalize hd : scan d.rest = s' at hsame ⊢
  cases hsame with
  | absent => exact .ok .none
  | found =>
    obtain ⟨x, rfl, hcrest⟩ := hs.found hc
    obtain ⟨y, -, hdrest⟩ := hs.found hd
    exact .ok (.some (ha.accept h _ hcrest hdrest (hsolid x)))
  | @broken part before mark =>
    obtain ⟨rest, hcrest, hpiece, -⟩ := hs.broken hc
    obtain ⟨rest', hdrest, -, -⟩ := hs.broken hd
    have hmark := ha.offset_add h hcrest hdrest hpiece
    rw [List.append_assoc] at hcrest hdrest
    have hbefore := ha.offset_add h hcrest hdrest fun x hx => hpiece x (List.mem_append_left _ hx)
    rw [byteSize_append, ← Nat.add_assoc, ← Nat.add_assoc] at hmark
    exact .error ⟨hmark, .brokenNumber hbefore⟩

/-- **So does a scan that stops at marks.** -/
theorem token (ha : Abreast alike) (hscan : StopsAtMarks scan) (hs : Spells scan spell)
    (hsolid : ∀ x, Solid (spell x)) (h : alike c d) :
    Except.Rel (ParseError.Alike (Together alike) start start')
      (Option.Rel (ReadAlike (Token.Alike (Together alike)) alike)) (c.token scan) (d.token scan) :=
  ha.token_of_scan (hscan.alike (ha.sameMarks h)) hs hsolid h

/-- The same where the lexeme may be left out. -/
theorem optionalToken (ha : Abreast alike) (hscan : StopsAtMarks scan) (hs : Spells scan spell)
    (hsolid : ∀ x, Solid (spell x)) (h : alike c d) :
    Except.Rel (ParseError.Alike (Together alike) start start')
      (ReadAlike (Option.Rel (Token.Alike (Together alike))) alike)
      (c.optionalToken scan) (d.optionalToken scan) := by
  refine (ha.token hscan hs hsolid h).bind fun {r s} hread => ?_
  cases hread with
  | none => exact .ok ⟨.none, h⟩
  | some hread => exact .ok ⟨.some hread.result, hread.cursor⟩

end Scan

/-! ### Operands -/

/-- **A literal is next in both**, or in neither, if the same magnitude is. -/
theorem literal_of_magnitude (ha : Abreast alike) {dialect : Dialect}
    (hmagnitude : Except.Rel (ParseError.Alike (Together alike) start start')
      (Option.Rel (ReadAlike (Token.SameMagnitude (Together alike)) alike))
      (c.token (Lexeme.magnitude dialect)) (d.token (Lexeme.magnitude dialect))) :
    Except.Rel (ParseError.Alike (Together alike) start start')
      (Option.Rel (ReadAlike (Expr.Alike (Together alike)) alike))
      (c.literal dialect) (d.literal dialect) := by
  unfold Cursor.literal
  refine hmagnitude.bind fun {r s} hmagnitude => ?_
  cases hmagnitude with
  | none => exact .ok .none
  | @some r s hmagnitude =>
    obtain ⟨magnitude, c₁⟩ := r
    obtain ⟨magnitude', d₁⟩ := s
    dsimp only
    refine (ha.optionalToken Lexeme.percentage_stopsAtMarks Lexeme.percentage_spells
      Lexeme.Percentage.solid hmagnitude.cursor).bind fun {r s} htolerance => ?_
    obtain ⟨tolerance, c₂⟩ := r
    obtain ⟨tolerance', d₂⟩ := s
    dsimp only
    refine (ha.optionalToken Lexeme.coefficient_stopsAtMarks Lexeme.coefficient_spells
      Lexeme.Coefficient.solid htolerance.cursor).bind fun {r s} hcoefficient => ?_
    obtain ⟨coefficient, c₃⟩ := r
    obtain ⟨coefficient', d₃⟩ := s
    dsimp only
    refine (Literal.ofTokens_alike hmagnitude.result htolerance.result hcoefficient.result).bind
      fun hliteral => ?_
    have hlast : (coefficient.getD (tolerance.getD magnitude)).extent.Alike (Together alike)
        (coefficient'.getD (tolerance'.getD magnitude')).extent := by
      cases hcoefficient.result with
      | some hlast => exact hlast.extent
      | none =>
        cases htolerance.result with
        | some hlast => exact hlast.extent
        | none => exact hmagnitude.result.extent
    exact .ok (.some ⟨.literal (hmagnitude.result.extent.through hlast) hliteral,
      hcoefficient.cursor⟩)

/-- So is a variable, if the same name is. -/
theorem var_of_name (hname : Except.Rel (ParseError.Alike (Together alike) start start')
      (Option.Rel (ReadAlike (Token.Alike (Together alike)) alike))
      (c.token Lexeme.name) (d.token Lexeme.name)) :
    Except.Rel (ParseError.Alike (Together alike) start start')
      (Option.Rel (ReadAlike (Expr.Alike (Together alike)) alike)) c.var d.var := by
  unfold Cursor.var
  refine hname.bind fun {r s} hname => ?_
  cases hname with
  | none => exact .ok .none
  | @some r s hname =>
    obtain ⟨name, c₁⟩ := r
    obtain ⟨name', d₁⟩ := s
    dsimp only
    rw [← hname.result.text]
    exact .ok (.some ⟨.var hname.result.extent, hname.cursor⟩)

/-- **An operand is next in both**, or in neither, if literals and variables are. -/
theorem operand_of_atom (ha : Abreast alike) {dialect : Dialect}
    (h : c.literal dialect = .ok none → alike c d)
    (hliteral : Except.Rel (ParseError.Alike (Together alike) start start')
      (Option.Rel (ReadAlike (Expr.Alike (Together alike)) alike))
      (c.literal dialect) (d.literal dialect))
    (hvar : c.literal dialect = .ok none →
      Except.Rel (ParseError.Alike (Together alike) start start')
        (Option.Rel (ReadAlike (Expr.Alike (Together alike)) alike)) c.var d.var) :
    Except.Rel (ParseError.Alike (Together alike) start start')
      (Option.Rel (ReadAlike (OperandAlike (Together alike)) alike))
      (c.operand dialect) (d.operand dialect) := by
  unfold Cursor.operand
  generalize hr : c.literal dialect = r at hliteral ⊢
  generalize d.literal dialect = s at hliteral ⊢
  cases hliteral with
  | error he => exact .error he
  | ok hliteral =>
    cases hliteral with
    | some hliteral => exact .ok (.some ⟨.atom hliteral.result, hliteral.cursor⟩)
    | none =>
      refine (hvar hr).bind fun {r s} hvar => ?_
      cases hvar with
      | some hvar => exact .ok (.some ⟨.atom hvar.result, hvar.cursor⟩)
      | none =>
        dsimp only
        rcases (ha.sameMarks (h hr)).mark (c := '(') (by decide) with
          ⟨rest, rest', hc, hd, -⟩ | ⟨hc, hd⟩
        · rw [hc, hd]
          have hbracket := ha.accept (h hr) ['('] hc hd (by decide)
          exact .ok (.some ⟨.opening hbracket.result, hbracket.cursor⟩)
        · split
          · rename_i heq
            exact absurd heq (hc _)
          · exact .ok .none

/-! ### What goes on behind an operand -/

/-- **A number that must follow** does so in both, or is missing in both. -/
theorem requiredNumber (ha : Abreast alike) (h : alike c d) {missing missing' : ParseFault}
    (hmissing : ParseFault.Alike (Together alike) start start' missing missing') :
    Except.Rel (ParseError.Alike (Together alike) start start')
      (ReadAlike (Token.Alike (Together alike)) alike)
      (c.requiredNumber missing) (d.requiredNumber missing') := by
  unfold Cursor.requiredNumber
  refine (ha.token Lexeme.number_stopsAtMarks Lexeme.number_spells Lexeme.Numeral.solid h).bind
    fun {r s} hnumber => ?_
  cases hnumber with
  | some hnumber => exact .ok hnumber
  | none =>
    obtain ⟨sign, hsign⟩ := Lexeme.exists_optionalText Lexeme.isSign c.rest
    have hsame := (ha.sameMarks h).optional_isSign
    have hc := Lexeme.optional_append Lexeme.isSign c.rest
    have hd := Lexeme.optional_append Lexeme.isSign d.rest
    rw [← hsame] at hd
    have hsolid : Solid (Lexeme.optional Lexeme.isSign c.rest).1 := by
      rw [← hsign]
      exact Lexeme.solid_optionalText rfl rfl rfl sign
    dsimp only
    rw [← hsame]
    exact .error ⟨ha.offset_add h hc.symm hd.symm hsolid, hmissing⟩

theorem exponent (ha : Abreast alike) (h : alike c d) {t u : Token}
    (hsign : t.Alike (Together alike) u) :
    Except.Rel (ParseError.Alike (Together alike) start start')
      (ReadAlike (Node.Alike (Together alike)) alike) (c.exponent t) (d.exponent u) := by
  unfold Cursor.exponent
  refine (ha.requiredNumber h (.missingExponent hsign.extent.span)).bind fun {r s} hnumber => ?_
  obtain ⟨number, c₁⟩ := r
  obtain ⟨number', d₁⟩ := s
  dsimp only
  rw [← hnumber.result.text]
  refine (Token.readFinite_alike hnumber.result.extent .valueOutOfRange).bind fun hvalue => ?_
  subst hvalue
  exact .ok ⟨hnumber.result.node _, hnumber.cursor⟩

theorem temperature (ha : Abreast alike) (h : alike c d) {t u : Token}
    (hsign : t.Alike (Together alike) u) :
    Except.Rel (ParseError.Alike (Together alike) start start')
      (ReadAlike (Node.Alike (Together alike)) alike) (c.temperature t) (d.temperature u) := by
  unfold Cursor.temperature
  refine (ha.requiredNumber h (.missingTemperature hsign.extent.span)).bind fun {r s} hnumber => ?_
  obtain ⟨number, c₁⟩ := r
  obtain ⟨number', d₁⟩ := s
  dsimp only
  rw [← hnumber.result.text]
  have htail : ∀ {extent extent' : Extent} {c₂ d₂ : Cursor}, extent.Alike (Together alike) extent' →
      alike c₂ d₂ →
      Except.Rel (ParseError.Alike (Together alike) start start')
        (ReadAlike (Node.Alike (Together alike)) alike)
        (number.readFinite number.text .valueOutOfRange >>= fun value =>
          pure ((⟨value, extent⟩ : Node Binary64), c₂))
        (number'.readFinite number.text .valueOutOfRange >>= fun value =>
          pure ((⟨value, extent'⟩ : Node Binary64), d₂)) := by
    intro extent extent' c₂ d₂ hextent hcursor
    refine (Token.readFinite_alike hnumber.result.extent .valueOutOfRange).bind fun hvalue => ?_
    subst hvalue
    exact .ok ⟨⟨rfl, hextent⟩, hcursor⟩
  -- the unit is two characters, and is taken if both are next
  rcases (ha.sameMarks hnumber.cursor).mark (c := '°') (by decide) with
    ⟨rest, rest', hc, hd, hrest⟩ | ⟨hc, hd⟩
  · rcases hrest.mark (c := 'C') (by decide) with ⟨rest, rest', rfl, rfl, -⟩ | ⟨hc', hd'⟩
    · have hunit := ha.accept hnumber.cursor ['°', 'C'] hc hd (by decide)
      rw [hc, hd]
      exact htail (hnumber.result.extent.through hunit.result.extent) hunit.cursor
    · rw [hc, hd]
      split
      · rename_i heq
        cases heq
        exact absurd rfl (hc' _)
      · split
        · rename_i heq
          cases heq
          exact absurd rfl (hd' _)
        · exact htail hnumber.result.extent hnumber.cursor
  · split
    · rename_i heq
      exact absurd heq (hc _)
    · split
      · rename_i heq
        exact absurd heq (hd _)
      · exact htail hnumber.result.extent hnumber.cursor

theorem continuation (ha : Abreast alike) (h : alike c d) :
    Except.Rel (ParseError.Alike (Together alike) start start')
      (Option.Rel (ReadAlike (ContinuationAlike (Together alike)) alike))
      c.continuation d.continuation := by
  unfold Cursor.continuation
  rcases Cursor.binaryOperator?_sameMarks (ha.sameMarks h) with
    ⟨op, rest, rest', hc, hd⟩ | ⟨hc, hd⟩
  · rw [hc, hd]
    have hlexeme := (Cursor.binaryOperator?_eq_some hc).1
    have hlexeme' := (Cursor.binaryOperator?_eq_some hd).1
    have hsign := ha.accept h _ hlexeme hlexeme' (BinaryOperator.solid_lexeme op)
    exact .ok (.some ⟨.operator (hsign.result.node op), hsign.cursor⟩)
  · rw [hc, hd]
    dsimp only
    rcases (ha.sameMarks h).mark (c := '^') (by decide) with
      ⟨rest, rest', hc, hd, -⟩ | ⟨hpower, hpower'⟩
    · rw [hc, hd]
      have hsign := ha.accept h ['^'] hc hd (by decide)
      refine (ha.exponent hsign.cursor hsign.result).bind fun {r s} hvalue => ?_
      exact .ok (.some ⟨.exponent hvalue.result, hvalue.cursor⟩)
    rcases (ha.sameMarks h).mark (c := '@') (by decide) with
      ⟨rest, rest', hc, hd, -⟩ | ⟨hat, hat'⟩
    · rw [hc, hd]
      have hsign := ha.accept h ['@'] hc hd (by decide)
      refine (ha.temperature hsign.cursor hsign.result).bind fun {r s} hvalue => ?_
      exact .ok (.some ⟨.temperature hvalue.result, hvalue.cursor⟩)
    · split
      · rename_i heq
        exact absurd heq (hpower _)
      · rename_i heq
        exact absurd heq (hat _)
      · exact .ok .none

/-! ### Steps -/

variable {p q : Progress}

/-- **The step where an operand is expected does the same in both**, if the same operand is next. -/
theorem stepOperand_of_operand {dialect : Dialect} (hp : p.Alike (Together alike) q)
    (h : OffsetAlike (Together alike) c.position.offset d.position.offset)
    (hoperand : Except.Rel (ParseError.Alike (Together alike) start start')
      (Option.Rel (ReadAlike (OperandAlike (Together alike)) alike))
      (c.operand dialect) (d.operand dialect)) :
    StepAlike alike start start' (stepOperand dialect start p c) (stepOperand dialect start' q d) := by
  unfold WorstCase.stepOperand
  generalize c.operand dialect = r at hoperand ⊢
  generalize d.operand dialect = s at hoperand ⊢
  cases hoperand with
  | error he => exact .failed he
  | ok hread =>
    cases hread with
    | none => exact .failed ⟨h, hp.missing start start'⟩
    | @some r s hread =>
      obtain ⟨operand, c₁⟩ := r
      obtain ⟨operand', d₁⟩ := s
      obtain ⟨hresult, hcursor⟩ := hread
      cases hresult with
      | atom he => exact .more ⟨hp.pending, hp.outer, .some he⟩ hcursor
      | opening hbracket => exact .more ⟨.empty, .cons ⟨hbracket, hp.pending⟩ hp.outer, .none⟩ hcursor

theorem stepClose (ha : Abreast alike) (hp : p.Alike (Together alike) q) {e f : Expr Binary64}
    (he : e.Alike (Together alike) f) (h : alike c d) :
    StepAlike alike start start' (stepClose p e c) (stepClose q f d) := by
  have houter := hp.outer
  unfold WorstCase.stepClose
  generalize p.outer = outer at houter ⊢
  generalize q.outer = outer' at houter ⊢
  cases houter with
  | nil => exact .done (hp.pending.total he) h
  | @cons g g' _ _ hgroup houter =>
    obtain ⟨bracket, pending⟩ := g
    obtain ⟨bracket', pending'⟩ := g'
    dsimp only
    rcases (ha.sameMarks h).mark (c := ')') (by decide) with
      ⟨rest, rest', hc, hd, -⟩ | ⟨hc, hd⟩
    · rw [hc, hd]
      have hclosing := ha.accept h [')'] hc hd (by decide)
      exact .more ⟨hgroup.2, houter, .some (.group (hgroup.1.extent.through hclosing.result.extent)
        (hp.pending.total he))⟩ hclosing.cursor
    · split
      · rename_i heq
        exact absurd heq (hc _)
      · exact .failed ⟨offsetAlike_of h, .unclosedGroup hgroup.1.extent.span⟩

theorem stepContinuation (ha : Abreast alike) (hp : p.Alike (Together alike) q) {e f : Expr Binary64}
    (he : e.Alike (Together alike) f) (h : alike c d) :
    StepAlike alike start start' (stepContinuation p e c) (stepContinuation q f d) := by
  have hcontinuation : Except.Rel (ParseError.Alike (Together alike) start start') _ _ _ :=
    ha.continuation h
  unfold WorstCase.stepContinuation
  generalize c.continuation = r at hcontinuation ⊢
  generalize d.continuation = s at hcontinuation ⊢
  cases hcontinuation with
  | error he => exact .failed he
  | ok hread =>
    cases hread with
    | none => exact ha.stepClose hp he h
    | @some r s hread =>
      obtain ⟨k, c₁⟩ := r
      obtain ⟨k', d₁⟩ := s
      obtain ⟨hresult, hcursor⟩ := hread
      cases hresult with
      | operator hop => exact .more ⟨hp.pending.push he hop, hp.outer, .none⟩ hcursor
      | exponent hvalue => exact .more ⟨hp.pending, hp.outer, .some (he.raise hvalue)⟩ hcursor
      | temperature hdegrees => exact .more ⟨hp.pending, hp.outer, .some (he.shift hdegrees)⟩ hcursor

/-- **A step does the same in both**, if the same operand is next where one is expected. -/
theorem step_of_operand (ha : Abreast alike) {dialect : Dialect} (hp : p.Alike (Together alike) q)
    (h : alike c d)
    (hoperand : p.operand = none → Except.Rel (ParseError.Alike (Together alike) start start')
      (Option.Rel (ReadAlike (OperandAlike (Together alike)) alike))
      (c.operand dialect) (d.operand dialect)) :
    StepAlike alike start start' (step dialect start p c) (step dialect start' q d) := by
  have hp' := hp.operand
  unfold WorstCase.step
  generalize p.operand = o at hp' hoperand ⊢
  generalize q.operand = o' at hp' ⊢
  cases hp' with
  | none => exact stepOperand_of_operand hp (offsetAlike_of h) (hoperand rfl)
  | some he => exact ha.stepContinuation hp he h

/-! ### Assignments -/

/-- **An assignment starts in both**, or in neither, if the same name is next. -/
theorem assignment_of_name (ha : Abreast alike)
    (hname : Except.Rel (ParseError.Alike (Together alike) start start')
      (Option.Rel (ReadAlike (Token.Alike (Together alike)) alike))
      (c.token Lexeme.name) (d.token Lexeme.name)) :
    Except.Rel (ParseError.Alike (Together alike) start start')
      (Option.Rel fun r s => r.1.Alike (Together alike) s.1
        ∧ ReadAlike (Token.Alike (Together alike)) alike r.2 s.2)
      c.assignment d.assignment := by
  unfold Cursor.assignment
  refine hname.bind fun {r s} hname => ?_
  cases hname with
  | none => exact .ok .none
  | @some r s hname =>
    obtain ⟨name, c₁⟩ := r
    obtain ⟨name', d₁⟩ := s
    dsimp only
    rcases (ha.sameMarks hname.cursor).mark (c := '=') (by decide) with
      ⟨rest, rest', hc, hd, -⟩ | ⟨hc, hd⟩
    · rw [hc, hd]
      exact .ok (.some ⟨hname.result, ha.accept hname.cursor ['='] hc hd (by decide)⟩)
    · split
      · rename_i heq
        exact absurd heq (hc _)
      · exact .ok .none

end Abreast

/-! ## What needs the same words -/

namespace Alongside

variable {alike : Cursor → Cursor → Prop} {start start' : ParseFault} {c d : Cursor}

/-- **A scan that stops at blanks takes the same token in both**, or fails in both. -/
theorem token {α : Type} {scan : List Char → Scan} {spell : α → List Char} (ha : Alongside alike)
    (hscan : StopsApart scan) (hs : Spells scan spell) (hsolid : ∀ x, Solid (spell x))
    (h : alike c d) :
    Except.Rel (ParseError.Alike (Together alike) start start')
      (Option.Rel (ReadAlike (Token.Alike (Together alike)) alike)) (c.token scan) (d.token scan) :=
  ha.abreast.token_of_scan (hscan.alike (ha.respaced h)) hs hsolid h

/-- **A literal is next in both**, or in neither. -/
theorem literal (ha : Alongside alike) (dialect : Dialect) (h : alike c d) :
    Except.Rel (ParseError.Alike (Together alike) start start')
      (Option.Rel (ReadAlike (Expr.Alike (Together alike)) alike))
      (c.literal dialect) (d.literal dialect) := by
  have hmagnitude : Except.Rel (ParseError.Alike (Together alike) start start') _ _ _ :=
    ha.token (Lexeme.magnitude_stopsApart dialect) (Lexeme.magnitude_spells dialect)
      Lexeme.Magnitude.solid h
  refine ha.abreast.literal_of_magnitude (hmagnitude.mono id fun hsame => ?_)
  cases hsame with
  | none => exact .none
  | some hsame => exact .some ⟨hsame.result.sameMagnitude, hsame.cursor⟩

theorem name (ha : Alongside alike) (h : alike c d) :
    Except.Rel (ParseError.Alike (Together alike) start start')
      (Option.Rel (ReadAlike (Token.Alike (Together alike)) alike))
      (c.token Lexeme.name) (d.token Lexeme.name) :=
  ha.token Lexeme.name_stopsApart Lexeme.name_spells Lexeme.Name.solid h

/-! ### Reading -/

variable {p q : Progress}

/-- **A step does the same in both.** -/
theorem step (ha : Alongside alike) (dialect : Dialect) (hp : p.Alike (Together alike) q)
    (h : alike c d) :
    StepAlike alike start start' (step dialect start p c) (step dialect start' q d) :=
  ha.abreast.step_of_operand hp h fun _ =>
    ha.abreast.operand_of_atom (fun _ => h) (ha.literal dialect h) fun _ =>
      Abreast.var_of_name (ha.name h)

/-- **So do all steps**, one after the other. -/
theorem readSteps (ha : Alongside alike) (dialect : Dialect) (hp : p.Alike (Together alike) q)
    (h : alike c d) :
    Except.Rel (ParseError.Alike (Together alike) start start')
      (ReadAlike (Expr.Alike (Together alike)) alike)
      (readSteps dialect start p c) (readSteps dialect start' q d) := by
  induction p, c using readSteps.induct dialect start generalizing q d with
  | case1 p c p₁ c₁ hstep ih =>
    have hsame : StepAlike alike start start' _ _ := ha.step dialect hp h
    rw [hstep] at hsame
    rw [readSteps_of_more hstep]
    generalize hstep' : WorstCase.step dialect start' q d = t at hsame
    cases hsame with
    | more hp₁ h₁ =>
      rw [readSteps_of_more hstep']
      exact ih hp₁ h₁
  | case2 p c e c₁ hstep =>
    have hsame : StepAlike alike start start' _ _ := ha.step dialect hp h
    rw [hstep] at hsame
    rw [readSteps_of_done hstep]
    generalize hstep' : WorstCase.step dialect start' q d = t at hsame
    cases hsame with
    | done he h₁ =>
      rw [readSteps_of_done hstep']
      exact .ok ⟨he, h₁⟩
  | case3 p c e hstep =>
    have hsame : StepAlike alike start start' _ _ := ha.step dialect hp h
    rw [hstep] at hsame
    rw [readSteps_of_failed hstep]
    generalize hstep' : WorstCase.step dialect start' q d = t at hsame
    cases hsame with
    | failed he =>
      rw [readSteps_of_failed hstep']
      exact .error he

/-- **The same expression is read at both cursors**, or the same error. -/
theorem expr (ha : Alongside alike) (dialect : Dialect) (start start' : ParseFault) (h : alike c d) :
    Except.Rel (ParseError.Alike (Together alike) start start')
      (ReadAlike (Expr.Alike (Together alike)) alike) (c.expr dialect start) (d.expr dialect start') :=
  ha.readSteps dialect ⟨.empty, .nil, .none⟩ h

/-- Text is left over in both, or in neither. -/
theorem finish {α : Type} {A : α → α → Prop} (ha : Alongside alike) {r s : α × Cursor}
    (h : ReadAlike A alike r s) :
    Except.Rel (ParseError.Alike (Together alike) start start') A (finish r) (finish s) := by
  have hnil := (ha.respaced h.cursor).nil_iff
  unfold WorstCase.finish
  by_cases hrest : r.2.rest = []
  · rw [if_pos hrest, if_pos (hnil.mp hrest)]
    exact .ok h.result
  · rw [if_neg hrest, if_neg (mt hnil.mpr hrest)]
    exact .error ⟨offsetAlike_of h.cursor, .unexpectedText⟩

/-- **An assignment starts in both**, or in neither. -/
theorem assignment (ha : Alongside alike) (h : alike c d) :
    Except.Rel (ParseError.Alike (Together alike) start start')
      (Option.Rel fun r s => r.1.Alike (Together alike) s.1
        ∧ ReadAlike (Token.Alike (Together alike)) alike r.2 s.2)
      c.assignment d.assignment :=
  ha.abreast.assignment_of_name (ha.name h)

/-! ## Whole texts -/

variable {s t : List Char}

/-- **Two texts that start alike are parsed alike**, as expressions. -/
theorem parseExpression (ha : Alongside alike) (dialect : Dialect)
    (h : alike (Cursor.ofText s) (Cursor.ofText t)) :
    Except.Rel (ParseError.Alike (Together alike) .missingExpression .missingExpression)
      (Expr.Alike (Together alike)) (parseExpression dialect s) (parseExpression dialect t) :=
  (ha.expr dialect _ _ h).bind ha.finish

/-- And as statements. -/
theorem parseStatement (ha : Alongside alike) (dialect : Dialect)
    (h : alike (Cursor.ofText s) (Cursor.ofText t)) :
    Except.Rel (ParseError.Alike (Together alike) .missingExpression .missingExpression)
      (Statement.Alike (Together alike)) (parseStatement dialect s) (parseStatement dialect t) := by
  unfold WorstCase.parseStatement
  refine (ha.assignment h).bind fun {r s} hassignment => ?_
  cases hassignment with
  | none =>
    refine (ha.expr dialect _ _ h).bind fun {r s} hvalue => ?_
    exact ha.finish ⟨.expression hvalue.result, hvalue.cursor⟩
  | @some r s hassignment =>
    obtain ⟨name, sign, c₁⟩ := r
    obtain ⟨name', sign', d₁⟩ := s
    obtain ⟨hname, hsign⟩ := hassignment
    have hexpr := ha.expr dialect (.missingValue sign.span) (.missingValue sign'.span) hsign.cursor
    have hmissing : ParseFault.Alike (Together alike) .missingExpression .missingExpression
        (.missingValue sign.span) (.missingValue sign'.span) :=
      .missingValue hsign.result.extent.span
    refine (hexpr.mono (fun he => ⟨he.offset, he.fault.ordinary hmissing⟩) id).bind
      fun {r s} hvalue => ?_
    have hnode : (name.node (String.ofList name.text)).Alike (Together alike)
        (name'.node (String.ofList name'.text)) := by
      rw [← hname.text]
      exact hname.node _
    exact ha.finish ⟨.assign (hname.extent.through hvalue.result.extent) hnode hvalue.result,
      hvalue.cursor⟩

end Alongside

end WorstCase
