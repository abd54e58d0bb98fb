import WorstCase.Proofs.Formula.Literals

/-!
# The letter u for micro

Whether the letter u may stand for micro makes a difference in one place only: where a number ends and the
letter is next (`Lexeme.AtMicro`). Without it the number is the whole magnitude, and nothing goes on with a
formula at the letter: no percentage and no coefficient starts there, no operator, and no bracket. So the
formula is over, and the letter is left over (`readSteps_of_atMicro`). With it the letter is a prefix, and
the literal is one that was written with it (`Cursor.literal_atMicro`).

Up to that place the two dialects do the same. By induction on the steps, they do the same throughout, or
else one leaves text over where the other has a literal written with the letter
(`readSteps_micro`).
-/

namespace WorstCase

open Lexeme (Stops Numeral isPrefixChar isUnitChar isNumberChar)

/-- The dialect without the letter u for micro. -/
def Dialect.plain : Dialect := ⟨false⟩

/-- The dialect with it. -/
def Dialect.ascii : Dialect := ⟨true⟩

/-! ## Magnitudes -/

namespace Lexeme

/-- **The text starts with a number that has the letter u behind it.** -/
def AtMicro (cs : List Char) : Prop := ∃ digits rest, number cs = .found digits ('u' :: rest)

variable {cs digits rest : List Char}

/-- The letter u is the only character that the dialects tell apart. -/
theorem isPrefixChar_plain {c : Char} (h : c ≠ 'u') : isPrefixChar .plain c = isPrefixChar .ascii c := by
  unfold isPrefixChar
  split <;> first | exact absurd rfl h | rfl

theorem suffix_plain (h : ∀ more, cs ≠ 'u' :: more) : suffix .plain cs = suffix .ascii cs := by
  have hmetric : optional (isPrefixChar .plain) cs = optional (isPrefixChar .ascii) cs := by
    cases cs with
    | nil => rfl
    | cons c cs =>
      have hc : c ≠ 'u' := by
        rintro rfl
        exact h cs rfl
      rw [optional, optional, isPrefixChar_plain hc]
  unfold suffix
  rw [hmetric]

/-- **Elsewhere the magnitude is the same.** -/
theorem magnitude_plain (h : ¬AtMicro cs) : magnitude .plain cs = magnitude .ascii cs := by
  unfold magnitude
  cases hnumber : number cs with
  | absent => rfl
  | broken => rfl
  | found digits rest =>
    have hu : ∀ more, rest ≠ 'u' :: more := by
      rintro more rfl
      exact h ⟨digits, more, hnumber⟩
    simp only [Scan.extend, suffix_plain hu]

/-- Where the letter is no prefix, the number is the whole magnitude. -/
theorem magnitude_of_atMicro (h : number cs = .found digits ('u' :: rest)) :
    magnitude .plain cs = .found digits ('u' :: rest) := by
  have hsuffix : suffix .plain ('u' :: rest) = ([], 'u' :: rest) := rfl
  unfold magnitude
  rw [h]
  simp only [Scan.extend, hsuffix, List.append_nil]

/-- **A prefix behind a number belongs to its magnitude.** -/
theorem magnitude_of_prefix {dialect : Dialect} {c : Char} (hc : isPrefixChar dialect c = true)
    (h : number cs = .found digits (c :: rest)) :
    magnitude dialect cs
      = .found (digits ++ c :: (optional isUnitChar rest).1) (optional isUnitChar rest).2 := by
  have hsuffix : suffix dialect (c :: rest)
      = (c :: (optional isUnitChar rest).1, (optional isUnitChar rest).2) := by
    simp [suffix, optional, hc]
  unfold magnitude
  rw [h]
  simp only [Scan.extend, hsuffix]

end Lexeme

open Lexeme (AtMicro)

/-- A literal starts with its magnitude. -/
theorem WrittenLiteral.first_body_isPrefix {dialect : Dialect} (l : WrittenLiteral dialect) :
    l.first.body <+: l.stretch.body := by
  have hoptional : ∀ (s : Stretch) (o : Option Stretch), s.body <+: (s.optional o).body := by
    intro s o
    cases o with
    | none => exact List.prefix_rfl
    | some t => exact ⟨s.space.val ++ t.body, (List.append_assoc _ _ _).symm⟩
  exact (hoptional _ _).trans (hoptional _ _)

/-! ## Steps -/

namespace Cursor

variable {c next : Cursor} {text before : List Char}

theorem operand_plain (h : ¬AtMicro c.rest) : c.operand .plain = c.operand .ascii := by
  unfold operand literal token
  rw [Lexeme.magnitude_plain h]

/-- **Where the letter is no prefix, the literal that is next leaves it over**, if it is one. -/
theorem operand_of_atMicro (h : AtMicro c.rest) :
    (∃ err, c.operand .plain = .error err)
      ∨ ∃ e next more, c.operand .plain = .ok (some (.atom e, next)) ∧ next.rest = 'u' :: more := by
  obtain ⟨digits, rest, hnumber⟩ := h
  -- Nothing that a literal may have behind its magnitude starts with the letter.
  have htoken : c.token (Lexeme.magnitude .plain)
      = .ok (some (c.accept digits ('u' :: rest))) := by
    unfold token
    rw [Lexeme.magnitude_of_atMicro hnumber]
  have hpercentage : ∀ d : Cursor, d.rest = 'u' :: rest →
      d.optionalToken Lexeme.percentage = .ok (none, d) := by
    intro d hd
    refine optionalToken_of_token (token_absent ?_)
    rw [hd]
    rfl
  have hcoefficient : ∀ d : Cursor, d.rest = 'u' :: rest →
      d.optionalToken Lexeme.coefficient = .ok (none, d) := by
    intro d hd
    refine optionalToken_of_token (token_absent ?_)
    rw [hd]
    rfl
  have hnext : (c.accept digits ('u' :: rest)).2.rest = 'u' :: rest := rfl
  unfold operand literal
  rw [htoken]
  generalize c.accept digits ('u' :: rest) = r at hnext ⊢
  obtain ⟨magnitude, d⟩ := r
  simp only [Except.ok_bind, hpercentage d hnext, hcoefficient d hnext]
  cases Literal.ofTokens magnitude none none with
  | error err => exact .inl ⟨err, rfl⟩
  | ok l => exact .inr ⟨_, d, rest, rfl, hnext⟩

/-- **Where the letter is a prefix, the literal that is next was written with it.** -/
theorem literal_atMicro {e : Expr Binary64} (hc : c.IsAt text before) (h : AtMicro c.rest)
    (hliteral : c.literal .ascii = .ok (some (e, next))) : e.span.WrittenWith 'u' text := by
  obtain ⟨digits, rest, hnumber⟩ := h
  obtain ⟨n, rfl, -⟩ := Lexeme.number_spells.found hnumber
  obtain ⟨l, rfl, hreads, c₁, htoken⟩ := literal_eq_some_token hliteral
  have hfirst : l.first.body = n.text ++ 'u' :: (Lexeme.optional isUnitChar rest).1 := by
    have hmagnitude := Lexeme.magnitude_of_prefix (show isPrefixChar .ascii 'u' = true from rfl) hnumber
    unfold token at htoken
    rw [hmagnitude] at htoken
    exact (congrArg (fun r : Token × Cursor => r.1.text)
      (Option.some.inj (Except.ok.inj htoken))).symm
  generalize (Lexeme.optional isUnitChar rest).1 = unit at hfirst
  obtain ⟨more, hbody⟩ := l.first_body_isPrefix
  have hbody' : l.stretch.body = n.text ++ 'u' :: (unit ++ more) := by
    rw [← hbody, hfirst, List.append_assoc, List.cons_append]
  refine ⟨before ++ n.text, unit ++ more ++ (l.stretch.space.val ++ next.rest), ?_,
    before, n, unit ++ more, _, rfl, rfl, ?_⟩
  · rw [hc.text_eq, hreads.rest_eq, Stretch.text, hbody']
    simp only [List.append_assoc, List.cons_append]
  · show Span.mk c.position (c.position.after l.stretch.body) = _
    rw [hc.position_eq, ← Position.after_append, hbody']

end Cursor

section Steps

variable {atStart : ParseFault} {p : Progress} {c next : Cursor} {text before : List Char}
  {e : Expr Binary64}

/-- **A step is the same in both dialects**, unless an operand is expected and a number with the letter
behind it is next. -/
theorem step_plain (h : p.operand = none → ¬AtMicro c.rest) :
    step .plain atStart p c = step .ascii atStart p c := by
  unfold step
  split
  · rename_i hp
    unfold stepOperand
    rw [Cursor.operand_plain (h hp)]
  · rfl

/-- **There the plain dialect leaves text over**, whatever else happens. -/
theorem readSteps_of_atMicro (hp : p.operand = none) (h : AtMicro c.rest)
    (hread : readSteps .plain atStart p c = .ok (e, next)) : next.rest ≠ [] := by
  rcases Cursor.operand_of_atMicro h with ⟨err, hoperand⟩ | ⟨x, m, more, hoperand, hm⟩
  · rw [readSteps_of_failed (step_of_operand_error hp hoperand)] at hread
    cases hread
  · rw [readSteps_of_more (step_of_atom hp hoperand)] at hread
    have hends : Stops ['+', '-', '*', '/', '|', '^', '@', ')'].contains m.rest := by
      rw [hm]
      exact Lexeme.stops_cons (by decide)
    obtain rfl := readSteps_ended rfl hends hread
    rw [hm]
    exact List.cons_ne_nil _ _

/-- **There the other dialect reads a literal with the letter.** -/
theorem readSteps_ascii_of_atMicro (hc : c.IsAt text before) (hp : p.operand = none)
    (h : AtMicro c.rest) (hread : readSteps .ascii atStart p c = .ok (e, next)) :
    ∃ s ∈ e.literals, s.WrittenWith 'u' text := by
  have htoken : ∃ r, c.token (Lexeme.magnitude .ascii) = .ok (some r) := by
    obtain ⟨digits, rest, hnumber⟩ := h
    unfold Cursor.token
    rw [Lexeme.magnitude_of_prefix (show isPrefixChar .ascii 'u' = true from rfl) hnumber]
    exact ⟨_, rfl⟩
  obtain ⟨r, htoken⟩ := htoken
  cases hliteral : c.literal .ascii with
  | error err =>
    have hoperand := Cursor.operand_of_literal_error hliteral
    rw [readSteps_of_failed (step_of_operand_error hp hoperand)] at hread
    cases hread
  | ok found =>
    cases found with
    | none => exact absurd hliteral (Cursor.literal_ne_none htoken)
    | some found =>
      obtain ⟨x, m⟩ := found
      rw [readSteps_of_more (step_of_atom hp (Cursor.operand_of_literal hliteral))] at hread
      refine ⟨x.span, readSteps_literal_before hread ?_, Cursor.literal_atMicro hc h hliteral⟩
      show x.span ∈ Progress.outerLiterals p.outer ++ p.pending.literals ++ x.literals
      rw [(Cursor.literals_literal hliteral).1]
      exact List.mem_concat_self

end Steps

/-! ## Reading -/

/-- **How reading a formula compares in the two dialects**, given the literals that were read before. -/
inductive MicroCompared (text : List Char) (before : List Span) :
    Except ParseError (Expr Binary64 × Cursor) → Except ParseError (Expr Binary64 × Cursor) → Prop where
  /-- It is the same, and none of the literals to come is written with the letter. -/
  | same {read : Except ParseError (Expr Binary64 × Cursor)}
    (h : ∀ e next, read = .ok (e, next) → ∀ s ∈ e.literals, s ∈ before ∨ ¬s.WrittenWith 'u' text) :
    MicroCompared text before read read
  /-- The plain dialect leaves text over, and the other one reads a literal with the letter. -/
  | apart {plain ascii : Except ParseError (Expr Binary64 × Cursor)} (hu : 'u' ∈ text)
    (hplain : ∀ e next, plain = .ok (e, next) → next.rest ≠ [])
    (hascii : ∀ e next, ascii = .ok (e, next) → ∃ s ∈ e.literals, s.WrittenWith 'u' text) :
    MicroCompared text before plain ascii

/-- Literals that are not written with the letter may be counted out. -/
theorem MicroCompared.of_literals {text : List Char} {before more : List Span}
    {plain ascii : Except ParseError (Expr Binary64 × Cursor)} (h : MicroCompared text more plain ascii)
    (hmore : ∀ s ∈ more, s ∈ before ∨ ¬s.WrittenWith 'u' text) :
    MicroCompared text before plain ascii := by
  cases h with
  | same h => exact .same fun e next hread s hs => (h e next hread s hs).elim (hmore s) .inr
  | apart hu hplain hascii => exact .apart hu hplain hascii

section Reading

variable {atStart : ParseFault} {p : Progress} {c next : Cursor} {text before : List Char}
  {e : Expr Binary64}

/-- A literal that is read elsewhere is not written with the letter: if it were, its number would have the
letter behind it. -/
theorem Cursor.literal_not_writtenWith (hc : c.IsAt text before) (h : ¬AtMicro c.rest)
    (hliteral : c.literal .ascii = .ok (some (e, next))) : ¬e.span.WrittenWith 'u' text := by
  rintro ⟨front, back, rfl, hprefixed⟩
  obtain ⟨n, hrest⟩ := hc.prefixed_here hliteral hprefixed
  refine h ⟨n.text, back, ?_⟩
  rw [hrest]
  exact Lexeme.number_spelt n (Lexeme.stops_cons rfl)

/-- At a number with the letter behind it, the dialects part. -/
theorem readSteps_micro_of_atMicro (hc : c.IsAt text before) (hp : p.operand = none)
    (h : AtMicro c.rest) :
    MicroCompared text p.literals (readSteps .plain atStart p c) (readSteps .ascii atStart p c) := by
  refine .apart ?_ (fun e next => readSteps_of_atMicro hp h)
    fun e next => readSteps_ascii_of_atMicro hc hp h
  obtain ⟨digits, rest, hnumber⟩ := h
  rw [hc.text_eq, ← (Lexeme.number_found hnumber).1]
  simp

/-- **Reading compares so from every place on.** By induction on the steps: they are the same until an
operand is expected at a number with the letter behind it. -/
theorem readSteps_micro (hc : c.IsAt text before) :
    MicroCompared text p.literals (readSteps .plain atStart p c) (readSteps .ascii atStart p c) := by
  induction p, c using readSteps.induct .ascii atStart generalizing before with
  | case1 p c q m hstep ih =>
    by_cases hat : p.operand = none ∧ AtMicro c.rest
    · exact readSteps_micro_of_atMicro hc hat.1 hat.2
    · have hplain := (step_plain fun hp h => hat ⟨hp, h⟩).trans hstep
      rw [readSteps_of_more hstep, readSteps_of_more hplain]
      obtain ⟨piece, hreads⟩ := step_reads hstep
      refine (ih (hc.reads hreads)).of_literals fun s hs => ?_
      rcases step_literals hstep with hq | ⟨x, hp, hliteral, -, hq⟩
      · exact .inl (hq ▸ hs)
      · rw [hq, List.mem_append, List.mem_singleton] at hs
        refine hs.imp_right fun hnew => ?_
        rw [hnew]
        exact Cursor.literal_not_writtenWith hc (fun h => hat ⟨hp, h⟩) hliteral
  | case2 p c x m hstep =>
    have hp : p.operand ≠ none := by
      obtain ⟨-, y, hy, -⟩ := step_eq_done hstep
      rw [hy]
      exact Option.some_ne_none y
    have hplain := (step_plain fun h => absurd h hp).trans hstep
    rw [readSteps_of_done hstep, readSteps_of_done hplain]
    refine .same fun e next hread s hs => .inl ?_
    cases hread
    rwa [literals_of_step_done hstep] at hs
  | case3 p c err hstep =>
    by_cases hat : p.operand = none ∧ AtMicro c.rest
    · exact readSteps_micro_of_atMicro hc hat.1 hat.2
    · have hplain := (step_plain fun hp h => hat ⟨hp, h⟩).trans hstep
      rw [readSteps_of_failed hstep, readSteps_of_failed hplain]
      refine .same fun e next hread => ?_
      cases hread

/-- So does the whole of a formula. -/
theorem Cursor.expr_micro (hc : c.IsAt text before) (atStart : ParseFault) :
    MicroCompared text [] (c.expr .plain atStart) (c.expr .ascii atStart) :=
  readSteps_micro (p := {}) hc

end Reading

/-! ## Whole texts -/

/-- **The plain dialect is the other one without the letter**: it accepts what the other accepts with no
literal written so, and gives the same tree. Of a text that does not have the letter in it, both say the
same. -/
structure ConservativeOver {α : Type} (literals : α → List Span) (text : List Char)
    (plain ascii : Except ParseError α) : Prop where
  ok_iff : ∀ t, plain = .ok t ↔ ascii = .ok t ∧ ∀ s ∈ literals t, ¬s.WrittenWith 'u' text
  eq_of_not_mem : 'u' ∉ text → plain = ascii

section Whole

variable {α : Type} {literals : α → List Span} {text : List Char}

theorem conservativeOver_error (e : ParseError) :
    ConservativeOver literals text (.error e) (.error e) := by
  refine ⟨fun t => ⟨fun h => ?_, fun h => h.1⟩, fun _ => rfl⟩
  cases h

/-- A formula that is read so is accepted so, whatever is made of it. -/
theorem MicroCompared.finish {plain ascii : Except ParseError (Expr Binary64 × Cursor)}
    (h : MicroCompared text [] plain ascii) (make : Expr Binary64 → α)
    (hmake : ∀ e, literals (make e) = e.literals) :
    ConservativeOver literals text (plain >>= fun r => finish (make r.1, r.2))
      (ascii >>= fun r => finish (make r.1, r.2)) := by
  have hfinish : ∀ {read : Except ParseError (Expr Binary64 × Cursor)} {t : α},
      (read >>= fun r => WorstCase.finish (make r.1, r.2)) = .ok t →
        ∃ e next, read = .ok (e, next) ∧ make e = t ∧ next.rest = [] := by
    intro read t ht
    obtain ⟨⟨e, next⟩, hread, ht⟩ := Except.bind_eq_ok.mp ht
    exact ⟨e, next, hread, finish_eq_ok ht⟩
  cases h with
  | same h =>
    refine ⟨fun t => (and_iff_left_of_imp fun ht s hs => ?_).symm, fun _ => rfl⟩
    obtain ⟨e, next, hread, rfl, -⟩ := hfinish ht
    rw [hmake] at hs
    exact (h e next hread s hs).resolve_left List.not_mem_nil
  | apart hu hplain hascii =>
    refine ⟨fun t => iff_of_false (fun ht => ?_) ?_, fun hn => absurd hu hn⟩
    · obtain ⟨e, next, hread, -, hnil⟩ := hfinish ht
      exact hplain e next hread hnil
    · rintro ⟨ht, hnone⟩
      obtain ⟨e, next, hread, rfl, -⟩ := hfinish ht
      obtain ⟨s, hs, hwritten⟩ := hascii e next hread
      exact hnone s (by rwa [hmake]) hwritten

theorem parseExpression_conservative (text : List Char) :
    ConservativeOver Expr.literals text (parseExpression .plain text) (parseExpression .ascii text) :=
  (Cursor.expr_micro (Cursor.isAt_ofText text) _).finish id fun _ => rfl

theorem parseStatement_conservative (text : List Char) :
    ConservativeOver Statement.literals text (parseStatement .plain text)
      (parseStatement .ascii text) := by
  have hc := Cursor.isAt_ofText text
  unfold parseStatement
  dsimp only
  cases hassignment : (Cursor.ofText text).assignment with
  | error e => exact conservativeOver_error e
  | ok found =>
    cases found with
    | none => exact (Cursor.expr_micro hc _).finish Statement.expression fun _ => rfl
    | some found =>
      obtain ⟨name, sign, next⟩ := found
      obtain ⟨x, space, -, -, hreads⟩ := Cursor.assignment_eq_some hassignment
      exact (Cursor.expr_micro (hc.reads hreads) _).finish
        (fun e => Statement.assign (name.extent.through e.extent)
          (name.node (String.ofList name.text)) e)
        fun _ => rfl

end Whole

end WorstCase
