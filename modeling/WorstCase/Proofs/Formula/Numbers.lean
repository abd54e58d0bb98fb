import WorstCase.Proofs.Binary64.Range
import WorstCase.Proofs.Formula.Lossless
import WorstCase.Proofs.Formula.Misfits

/-!
# The numbers of a formula

What the reader makes of the numbers in a text, where it accepts the text and where it does not. The numbers
of a tree, from left to right, are those of the formula that was written, and none of these is missing
(`Written.numbers_located`). Every one was written at the place that the tree has for it. Exponents,
temperatures and tolerances are finite, and coefficients are the whole numbers written and fit in 32 bits
(`Expr.NumbersFit`). A number that does not fit makes the text an error that names the number, whatever else
would be wrong with the text behind it, and nothing but such a number does (`numbers_checked`).

The value of a quantity is an exception. It is the number written, which is finite, times the power of ten
that the prefix stands for, and nobody asks whether the product is. A prefix that enlarges a number near the
end of the range makes it infinite (`literal_overflows`), and the text is accepted. Without such a prefix the
product is no greater than the number, and so it is finite.
-/

namespace WorstCase

open Lexeme (CharOf isPrefixChar Numeral Magnitude Percentage Coefficient Name)

/-! ## Prefixes -/

/-- The prefix that is written, or none. -/
def Lexeme.prefixOf {dialect : Dialect} (metric : Option (CharOf (isPrefixChar dialect))) : MetricPrefix :=
  (metric.bind fun c => MetricPrefix.ofChar? c.val).getD .one

namespace MetricPrefix

variable {p : MetricPrefix}

theorem isFinite_factor (p : MetricPrefix) : p.factor.isFinite = true := by
  cases p <;> decide +kernel

/-- A prefix that does not enlarge is at most one. -/
theorem abs_factor_le_one (h : p.exponent ≤ 0) : |p.factor.value| ≤ 1 := by
  have hbounds : -1 ≤ p.factor ∧ p.factor ≤ 1 := by
    cases p <;> first | (constructor <;> decide +kernel) | exact absurd h (by decide)
  have hlow := (Binary64.le_iff.mp hbounds.1).2.2
  have hhigh := (Binary64.le_iff.mp hbounds.2).2.2
  rw [Binary64.value_neg, Binary64.value_one] at hlow
  rw [Binary64.value_one] at hhigh
  exact abs_le.mpr ⟨hlow, hhigh⟩

end MetricPrefix

/-- **A prefix that does not enlarge keeps a number in range.** -/
theorem Binary64.isFinite_mul_factor {x : Binary64} {p : MetricPrefix} (hx : x.isFinite = true)
    (h : p.exponent ≤ 0) : (x * p.factor).isFinite = true := by
  refine (isNearest_mul hx p.isFinite_factor).isFinite_of_abs_le ?_
  have hle : |x.value * p.factor.value| ≤ |x.value| := by
    rw [abs_mul]
    exact mul_le_of_le_one_right (abs_nonneg _) (MetricPrefix.abs_factor_le_one h)
  linarith [abs_value_le_greatest hx]

/-! ## Numbers in a tree -/

/-- **A finite number that is written at its node**, with something behind it that belongs to the node. -/
structure Node.IsWritten (text : List Char) (n : Node Binary64) (number more : List Char) : Prop where
  textIn : n.extent.span.textIn text = some (number ++ more)
  value : n.value = readNumber number
  isFinite : n.value.isFinite = true

/-- The text of a literal from its start to the tolerance, or to the coefficient, or to its end. -/
def Literal.magnitudeSpan {S : Type} (l : Literal S) (extent : Extent) : Span :=
  ⟨extent.span.start, (l.tail.head?.map fun e => e.span.start).getD extent.span.stop⟩

/-- **The numbers of a literal are those that are written**, and all but its value are in range. The value is
the number written times what the prefix stands for, a product that may be infinite if the prefix
enlarges. -/
structure Literal.NumbersFit (dialect : Dialect) (text : List Char) (extent : Extent)
    (l : Literal Binary64) : Prop where
  value : ∃ (x : Magnitude dialect) (space : Blanks),
    (l.magnitudeSpan extent).textIn text = some (x.text ++ space.val)
    ∧ (readNumber x.number.text).isFinite = true
    ∧ l.value = readNumber x.number.text * (Lexeme.prefixOf x.metric).factor
    ∧ l.value.isNaN = false
    ∧ (l.value.isFinite = false → 0 < (Lexeme.prefixOf x.metric).exponent)
  tolerance : ∀ t, l.tolerance = some t → ∃ x : Percentage, t.IsWritten text x.number.text ['%']
  coefficient : ∀ k, l.coefficient = some k → ∃ x : Coefficient,
    k.extent.span.textIn text = some x.text ∧ k.value = x.written
    ∧ -0x80000000 ≤ k.value ∧ k.value < 0x80000000

/-- **The same for all numbers of an expression.** A temperature may have its unit behind it. -/
def Expr.NumbersFit (dialect : Dialect) (text : List Char) : Expr Binary64 → Prop
  | .binary _ _ left right => left.NumbersFit dialect text ∧ right.NumbersFit dialect text
  | .power _ base exponent =>
    base.NumbersFit dialect text ∧ ∃ x : Numeral, exponent.IsWritten text x.text []
  | .atTemperature _ base degrees =>
    base.NumbersFit dialect text ∧ ∃ (x : Numeral) (unit : List Char),
      (unit = [] ∨ ∃ space : Blanks, unit = space.val ++ ['°', 'C']) ∧ degrees.IsWritten text x.text unit
  | .group _ inner => inner.NumbersFit dialect text
  | .var .. => True
  | .literal extent l => l.NumbersFit dialect text extent

/-- And of a line. -/
def Statement.NumbersFit (dialect : Dialect) (text : List Char) : Statement Binary64 → Prop
  | .assign _ _ value => value.NumbersFit dialect text
  | .expression value => value.NumbersFit dialect text

/-! ## From left to right -/

/-- **A number of a formula as it is written**, and what it is for. -/
inductive WrittenNumber (dialect : Dialect) where
  | value (x : Magnitude dialect)
  | tolerance (x : Percentage)
  | coefficient (x : Coefficient)
  | exponent (x : Numeral)
  | temperature (x : Numeral)

/-- **A number of a tree.** -/
inductive TreeNumber where
  | value (x : Binary64)
  | tolerance (x : Binary64)
  | coefficient (k : Int)
  | exponent (x : Binary64)
  | temperature (x : Binary64)

/-- What a number that is written is read as. -/
def WrittenNumber.read {dialect : Dialect} : WrittenNumber dialect → TreeNumber
  | value x => .value (readNumber x.number.text * (Lexeme.prefixOf x.metric).factor)
  | tolerance x => .tolerance (readNumber x.number.text)
  | coefficient x => .coefficient x.written
  | exponent x => .exponent (readNumber x.text)
  | temperature x => .temperature (readNumber x.text)

/-- The numbers of a literal that is written. -/
def WrittenLiteral.numbers {dialect : Dialect} (l : WrittenLiteral dialect) : List (WrittenNumber dialect) :=
  .value l.magnitude.value :: ((l.tolerance.map fun x => .tolerance x.value).toList
    ++ (l.coefficient.map fun x => .coefficient x.value).toList)

/-- **The numbers of an expression that is written**, from left to right. -/
def Written.numbers {dialect : Dialect} : Written dialect → List (WrittenNumber dialect)
  | binary left _ right => left.numbers ++ right.numbers
  | power base _ x _ => base.numbers ++ [.exponent x.value]
  | atTemperature base _ x _ _ => base.numbers ++ [.temperature x.value]
  | group _ inner _ => inner.numbers
  | var _ => []
  | literal l => l.numbers

/-- Those of a line. -/
def WrittenStatement.numbers {dialect : Dialect} : WrittenStatement dialect → List (WrittenNumber dialect)
  | assign _ _ value => value.numbers
  | expression value => value.numbers

/-- The numbers of a literal in a tree. -/
def Literal.numbers (l : Literal Binary64) : List TreeNumber :=
  .value l.value :: ((l.tolerance.map fun t => .tolerance t.value).toList
    ++ (l.coefficient.map fun k => .coefficient k.value).toList)

/-- **The numbers of a tree**, from left to right. -/
def Expr.numbers : Expr Binary64 → List TreeNumber
  | .binary _ _ left right => left.numbers ++ right.numbers
  | .power _ base exponent => base.numbers ++ [.exponent exponent.value]
  | .atTemperature _ base degrees => base.numbers ++ [.temperature degrees.value]
  | .group _ inner => inner.numbers
  | .var .. => []
  | .literal _ l => l.numbers

/-- Those of a line. -/
def Statement.numbers : Statement Binary64 → List TreeNumber
  | .assign _ _ value => value.numbers
  | .expression value => value.numbers

section Located

variable {dialect : Dialect}

theorem WrittenLiteral.numbers_located (l : WrittenLiteral dialect) (p : Position) :
    (l.located p).numbers = l.numbers.map WrittenNumber.read := by
  have hcoefficient : ∀ x : Coefficient, TreeNumber.coefficient x.value = .coefficient x.written :=
    fun x => congrArg TreeNumber.coefficient x.value_eq
  unfold Literal.numbers numbers located
  rw [List.map_cons, List.map_append]
  cases l.tolerance <;> cases l.coefficient
  all_goals simp only [Option.map_none, Option.map_some, Option.toList_none, Option.toList_some, List.map_nil,
    List.map_cons, hcoefficient]
  all_goals rfl

/-- **The numbers of a tree are those of the formula that was written**, all of them and in the same order. -/
theorem Written.numbers_located (w : Written dialect) (p : Position) :
    (w.located p).numbers = w.numbers.map WrittenNumber.read := by
  induction w generalizing p with
  | binary left op right ihl ihr =>
    unfold numbers
    rw [List.map_append, ← ihl p, ← ihr]
    rfl
  | power base sign exponent hfinite ih =>
    unfold numbers
    rw [List.map_append, ← ih p]
    rfl
  | atTemperature base sign degrees unit hfinite ih =>
    unfold numbers
    rw [List.map_append, ← ih p]
    rfl
  | group opening inner closing ih => exact ih _
  | var name => rfl
  | literal l => exact l.numbers_located p

theorem WrittenStatement.numbers_located (w : WrittenStatement dialect) (p : Position) :
    (w.located p).numbers = w.numbers.map WrittenNumber.read := by
  cases w with
  | expression e => exact e.numbers_located p
  | assign name sign value => exact value.numbers_located _

end Located

/-- **The tree is that of an expression with just this text**, behind blanks, and its numbers are those of the
expression. -/
def Expr.NumbersWritten (dialect : Dialect) (text : List Char) (e : Expr Binary64) : Prop :=
  ∃ (lead : Blanks) (w : Written dialect), text = lead.val ++ w.text
    ∧ e = w.located (Position.start.after lead.val) ∧ e.numbers = w.numbers.map WrittenNumber.read

/-- The same for a line. -/
def Statement.NumbersWritten (dialect : Dialect) (text : List Char) (s : Statement Binary64) : Prop :=
  ∃ (lead : Blanks) (w : WrittenStatement dialect), text = lead.val ++ w.text
    ∧ s = w.located (Position.start.after lead.val) ∧ s.numbers = w.numbers.map WrittenNumber.read

/-! ## What is written fits -/

section Written

variable {dialect : Dialect} {text before : List Char}

/-- The magnitude of a literal is what is written before its tolerance or coefficient. -/
theorem WrittenLiteral.textIn_magnitudeSpan {l : WrittenLiteral dialect}
    (h : before ++ l.stretch.text <+: text) :
    ∃ space : Blanks, ((l.located (Position.start.after before)).magnitudeSpan
        (l.stretch.extent (Position.start.after before))).textIn text
      = some (l.magnitude.value.text ++ space.val) := by
  have hfirst := prefix_magnitude h
  unfold Literal.magnitudeSpan Literal.tail located
  cases htolerance : l.tolerance with
  | some t => exact ⟨l.magnitude.space, Span.textIn_between hfirst⟩
  | none =>
    have hsecond : l.second = l.first := by rw [second, htolerance]; rfl
    cases hcoefficient : l.coefficient with
    | some y =>
      rw [hsecond]
      exact ⟨l.magnitude.space, Span.textIn_between hfirst⟩
    | none =>
      have hall : l.stretch = l.first := by rw [stretch, hcoefficient, hsecond]; rfl
      rw [hall]
      refine ⟨⟨[], fun c hc => absurd hc List.not_mem_nil⟩, ?_⟩
      rw [List.append_nil]
      exact Stretch.textIn_span hfirst

/-- **A literal that is written fits.** -/
theorem WrittenLiteral.numbersFit {l : WrittenLiteral dialect}
    (h : before ++ l.stretch.text <+: text) :
    (l.located (Position.start.after before)).NumbersFit dialect text
      (l.stretch.extent (Position.start.after before)) where
  value := by
    obtain ⟨space, hspace⟩ := textIn_magnitudeSpan h
    have hfinite := l.magnitude_isFinite
    refine ⟨l.magnitude.value, space, hspace, hfinite, rfl, ?_, fun hoverflow => ?_⟩
    · exact (Binary64.isNearest_mul hfinite (MetricPrefix.isFinite_factor _)).isNaN
    · by_contra hle
      have hproduct := Binary64.isFinite_mul_factor hfinite (not_lt.mp hle)
      exact Bool.false_ne_true (hoverflow.symm.trans hproduct)
  tolerance := by
    intro t ht
    obtain ⟨x, hx, rfl⟩ := Option.map_eq_some_iff.mp ht
    have htext := Stretch.textIn_span (prefix_tolerance h hx)
    rw [Position.after_append] at htext
    exact ⟨x.value, htext, rfl, l.tolerance_isFinite x hx⟩
  coefficient := by
    intro k hk
    obtain ⟨x, hx, rfl⟩ := Option.map_eq_some_iff.mp hk
    have htext := Stretch.textIn_span (prefix_coefficient h hx)
    rw [Position.after_append] at htext
    exact ⟨x.value, htext, x.value.value_eq, l.coefficient_fits x hx⟩

/-- **So does an expression that is written.** -/
theorem Written.numbersFit {w : Written dialect} (h : before ++ w.text <+: text) :
    (w.located (Position.start.after before)).NumbersFit dialect text := by
  induction w generalizing before with
  | binary left op right ihl ihr =>
    rw [text_binary] at h
    obtain ⟨hleft, -, hright⟩ := prefix_three h
    have hfit := ihr hright
    rw [Position.after_append] at hfit
    exact ⟨ihl hleft, hfit⟩
  | power base sign exponent hfinite ih =>
    rw [text_power] at h
    obtain ⟨hbase, -, hexponent⟩ := prefix_three h
    have htext := Stretch.textIn_span hexponent
    rw [Position.after_append] at htext
    refine ⟨ih hbase, exponent.value, ?_, rfl, hfinite⟩
    rw [List.append_nil]
    exact htext
  | atTemperature base sign degrees unit hfinite ih =>
    rw [text_atTemperature] at h
    obtain ⟨hbase, -, hdegrees⟩ := prefix_three h
    have htext := Stretch.textIn_span hdegrees
    rw [Position.after_append] at htext
    refine ⟨ih hbase, degrees.value, ?_⟩
    cases unit with
    | none => exact ⟨[], .inl rfl, by rw [List.append_nil]; exact htext, rfl, hfinite⟩
    | some space =>
      refine ⟨degrees.space.val ++ ['°', 'C'], .inr ⟨_, rfl⟩, ?_, rfl, hfinite⟩
      rw [← List.append_assoc]
      exact htext
  | group opening inner closing ih =>
    rw [text_group] at h
    obtain ⟨-, hinner, -⟩ := prefix_three h
    have hfit := ih hinner
    rw [Position.after_append] at hfit
    exact hfit
  | var name => trivial
  | literal l => exact WrittenLiteral.numbersFit h

/-- And so does a line. -/
theorem WrittenStatement.numbersFit {w : WrittenStatement dialect} (h : before ++ w.text <+: text) :
    (w.located (Position.start.after before)).NumbersFit dialect text := by
  cases w with
  | expression e => exact Written.numbersFit h
  | assign name sign value =>
    rw [text_assign] at h
    obtain ⟨-, -, hvalue⟩ := prefix_three h
    have hfit := Written.numbersFit hvalue
    rw [Position.after_append] at hfit
    exact hfit

end Written

/-! ## Whole texts -/

/-- **A text is checked for the size of its numbers.** `parse` is what reads it, and `NumbersWritten` and
`NumbersFit` are what is said of the numbers in the result. -/
structure NumbersChecked (dialect : Dialect) {α : Type} (parse : List Char → Except ParseError α)
    (NumbersWritten NumbersFit : List Char → α → Prop) (text : List Char) : Prop where
  /-- If the text is accepted, the numbers of the tree are those that are written. -/
  written : ∀ a, parse text = .ok a → NumbersWritten text a
  /-- If the text is accepted, its numbers fit. -/
  accepted : ∀ a, parse text = .ok a → NumbersFit text a
  /-- If the text is well formed but for the size of its numbers, it is accepted, or a number of it is named
  that does not fit. -/
  wellFormed : ∀ a, parse (zeroed text) = .ok a →
    (∃ b, parse text = .ok b) ∨ ∃ e, parse text = .error e ∧ e.IsMisfit dialect text
  /-- If it is not, what is wrong with it is the error, unless a number is named that does not fit. -/
  malformed : ∀ e, parse (zeroed text) = .error e →
    parse text = .error e ∨ ∃ e, parse text = .error e ∧ e.IsMisfit dialect text
  /-- An error that blames a number for its size names one that does not fit. -/
  blamed : ∀ e, parse text = .error e → (e.fault.BlamesNumber ↔ e.IsMisfit dialect text)

/-- What is read up to a misfit is checked. -/
theorem UpToMisfit.numbersChecked {dialect : Dialect} {α : Type} {parse : List Char → Except ParseError α}
    {NumbersWritten NumbersFit : List Char → α → Prop} {text : List Char}
    (h : UpToMisfit dialect text (fun _ _ => True) (parse text) (parse (zeroed text)))
    (hwritten : ∀ a, parse text = .ok a → NumbersWritten text a)
    (hfit : ∀ a, parse text = .ok a → NumbersFit text a) :
    NumbersChecked dialect parse NumbersWritten NumbersFit text := by
  refine ⟨hwritten, hfit, ?_, ?_, ?_⟩
  all_goals
    generalize parse text = x at h
    generalize parse (zeroed text) = y at h
  · rintro a rfl
    cases h with
    | ok => exact .inl ⟨_, rfl⟩
    | misfit h => exact .inr ⟨_, rfl, h⟩
  · rintro e rfl
    cases h with
    | error => exact .inl rfl
    | misfit h => exact .inr ⟨_, rfl, h⟩
  · rintro e rfl
    refine ⟨fun hblames => ?_, ParseError.IsMisfit.blamesNumber⟩
    cases h with
    | error h => exact absurd hblames h
    | misfit h => exact h

/-- **Every number of a text is checked for its size as it is read**, whether the text is read as an
expression or as a line.

If it is accepted, then the text is that of a formula whose numbers are the numbers of the tree, from left to
right and without a gap, and every number in the tree is the one that is written where the tree has it.
Exponents, temperatures and tolerances are finite, and a coefficient is the whole number written and fits in 32
bits.
The value of a quantity is the product of the number written, which is finite, and the power of ten that its
prefix stands for. It is never no number, and it is finite unless the prefix enlarges.

If the text with a zero for every digit is accepted, then so is the text, or else the error names a number of
the text that does not fit. If it is refused, the text is refused for the same reason, or again for a number
that does not fit. An error blames a number for its size exactly if it names one that does not fit. -/
theorem numbers_checked (dialect : Dialect) (text : List Char) :
    NumbersChecked dialect (parseExpression dialect) (Expr.NumbersWritten dialect) (Expr.NumbersFit dialect) text
    ∧ NumbersChecked dialect (parseStatement dialect) (Statement.NumbersWritten dialect)
        (Statement.NumbersFit dialect) text := by
  refine ⟨(parseExpression_beside dialect text).numbersChecked (fun e h => ?_) fun e h => ?_,
    (parseStatement_beside dialect text).numbersChecked (fun s h => ?_) fun s h => ?_⟩
  · obtain ⟨lead, w, htext, rfl⟩ := parseExpression_written h
    exact ⟨lead, w, htext, rfl, w.numbers_located _⟩
  · obtain ⟨lead, w, rfl, rfl⟩ := parseExpression_written h
    exact Written.numbersFit List.prefix_rfl
  · obtain ⟨lead, w, htext, rfl⟩ := parseStatement_written h
    exact ⟨lead, w, htext, rfl, w.numbers_located _⟩
  · obtain ⟨lead, w, rfl, rfl⟩ := parseStatement_written h
    exact WrittenStatement.numbersFit List.prefix_rfl

/-- The coefficient of `r = 1k 5% 2147483648ppm` is one too large. With zeros for digits the line is
accepted, and as it is, it is refused for the coefficient. -/
theorem numbers_checked_coefficient :
    (parseStatement {} (zeroed "r = 1k 5% 2147483648ppm".toList)).isOk = true
    ∧ parseStatement {} "r = 1k 5% 2147483648ppm".toList
      = .error ⟨10, .coefficientOutOfRange ⟨⟨10, 1, 11⟩, ⟨23, 1, 24⟩⟩⟩
    ∧ ParseError.IsMisfit {} "r = 1k 5% 2147483648ppm".toList
        ⟨10, .coefficientOutOfRange ⟨⟨10, 1, 11⟩, ⟨23, 1, 24⟩⟩⟩ := by
  have hrefused : parseStatement {} "r = 1k 5% 2147483648ppm".toList
      = .error ⟨10, .coefficientOutOfRange ⟨⟨10, 1, 11⟩, ⟨23, 1, 24⟩⟩⟩ := by decide +kernel
  obtain ⟨-, hchecked⟩ := numbers_checked {} "r = 1k 5% 2147483648ppm".toList
  exact ⟨by decide +kernel, hrefused, (hchecked.blamed _ hrefused).mp trivial⟩

/-- **A prefix makes a number infinite.** The number of `1e308k` is near the end of the range, and a thousand
times as much is beyond it. The text is accepted nevertheless. -/
theorem literal_overflows : ∃ extent l, parseExpression {} "1e308k".toList = .ok (.literal extent l)
    ∧ (readNumber "1e308".toList).isFinite = true ∧ l.value = .infinity false := by
  refine ⟨⟨⟨.start, ⟨6, 1, 7⟩⟩, ⟨⟨6, 1, 7⟩, ⟨6, 1, 7⟩⟩⟩, ⟨.infinity false, none, none, none⟩, ?_, ?_, rfl⟩
  · decide +kernel
  · decide +kernel

end WorstCase
