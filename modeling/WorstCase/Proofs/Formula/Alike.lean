import Mathlib.Data.List.Forall2
import WorstCase.Formula.Parsing

/-!
# Trees that are alike

Two trees are **alike** by a relation between positions if they are the same but for where their nodes
stand, and the relation holds between the position of each node and that of its counterpart. The same is
said of whatever else the reader makes of a text: tokens, what waits for an operand, faults and errors.

What the reader does with trees keeps them alike, since it only puts nodes together and takes their
extents from those of the parts.
-/

namespace WorstCase

variable {R : Position → Position → Prop}

/-! ## What has a place -/

/-- Spans that start and stop at related positions. -/
structure Span.Alike (R : Position → Position → Prop) (s t : Span) : Prop where
  start : R s.start t.start
  stop : R s.stop t.stop

/-- Extents that are alike in both their spans. -/
structure Extent.Alike (R : Position → Position → Prop) (e f : Extent) : Prop where
  span : e.span.Alike R f.span
  space : e.space.Alike R f.space

/-- The same value, standing at related places. -/
structure Node.Alike {α : Type} (R : Position → Position → Prop) (m n : Node α) : Prop where
  value : m.value = n.value
  extent : m.extent.Alike R n.extent

/-- **Literals of the same values**, each part at related places. -/
structure Literal.Alike {S : Type} (R : Position → Position → Prop) (k l : Literal S) : Prop where
  value : k.value = l.value
  unit : Option.Rel (Node.Alike R) k.unit l.unit
  tolerance : Option.Rel (Node.Alike R) k.tolerance l.tolerance
  coefficient : Option.Rel (Node.Alike R) k.coefficient l.coefficient

/-- **Expressions that are the same but for places**, and stand at related ones. -/
inductive Expr.Alike {S : Type} (R : Position → Position → Prop) : Expr S → Expr S → Prop where
  | binary {extent extent' op op' left left' right right'} (he : extent.Alike R extent')
    (hop : op.Alike R op') (hleft : Expr.Alike R left left') (hright : Expr.Alike R right right') :
    Expr.Alike R (.binary extent op left right) (.binary extent' op' left' right')
  | power {extent extent' base base' exponent exponent'} (he : extent.Alike R extent')
    (hbase : Expr.Alike R base base') (hexponent : exponent.Alike R exponent') :
    Expr.Alike R (.power extent base exponent) (.power extent' base' exponent')
  | atTemperature {extent extent' base base' degrees degrees'} (he : extent.Alike R extent')
    (hbase : Expr.Alike R base base') (hdegrees : degrees.Alike R degrees') :
    Expr.Alike R (.atTemperature extent base degrees) (.atTemperature extent' base' degrees')
  | group {extent extent' inner inner'} (he : extent.Alike R extent')
    (hinner : Expr.Alike R inner inner') : Expr.Alike R (.group extent inner) (.group extent' inner')
  | var {extent extent' name} (he : extent.Alike R extent') :
    Expr.Alike R (.var extent name) (.var extent' name)
  | literal {extent extent' literal literal'} (he : extent.Alike R extent')
    (h : literal.Alike R literal') : Expr.Alike R (.literal extent literal) (.literal extent' literal')

/-- Statements that are. -/
inductive Statement.Alike {S : Type} (R : Position → Position → Prop) :
    Statement S → Statement S → Prop where
  | assign {extent extent' name name' value value'} (he : extent.Alike R extent')
    (hname : name.Alike R name') (hvalue : value.Alike R value') :
    Statement.Alike R (.assign extent name value) (.assign extent' name' value')
  | expression {value value'} (h : value.Alike R value') :
    Statement.Alike R (.expression value) (.expression value')

/-- Offsets of related positions. -/
def OffsetAlike (R : Position → Position → Prop) (m n : Nat) : Prop :=
  ∃ p q, R p q ∧ p.offset = m ∧ q.offset = n

/-- **Faults of the same kind** that speak of related places. `start` and `start'` are the faults of texts
in which nothing is found at all. -/
inductive ParseFault.Alike (R : Position → Position → Prop) (start start' : ParseFault) :
    ParseFault → ParseFault → Prop where
  | atStart : Alike R start start' start start'
  | missingOperand {op cause cause'} (h : cause.Alike R cause') :
    Alike R start start' (.missingOperand op cause) (.missingOperand op cause')
  | emptyGroup {cause cause'} (h : cause.Alike R cause') :
    Alike R start start' (.emptyGroup cause) (.emptyGroup cause')
  | unclosedGroup {cause cause'} (h : cause.Alike R cause') :
    Alike R start start' (.unclosedGroup cause) (.unclosedGroup cause')
  | missingExponent {cause cause'} (h : cause.Alike R cause') :
    Alike R start start' (.missingExponent cause) (.missingExponent cause')
  | missingTemperature {cause cause'} (h : cause.Alike R cause') :
    Alike R start start' (.missingTemperature cause) (.missingTemperature cause')
  | missingValue {cause cause'} (h : cause.Alike R cause') :
    Alike R start start' (.missingValue cause) (.missingValue cause')
  | valueOutOfRange {cause cause'} (h : cause.Alike R cause') :
    Alike R start start' (.valueOutOfRange cause) (.valueOutOfRange cause')
  | toleranceOutOfRange {cause cause'} (h : cause.Alike R cause') :
    Alike R start start' (.toleranceOutOfRange cause) (.toleranceOutOfRange cause')
  | coefficientOutOfRange {cause cause'} (h : cause.Alike R cause') :
    Alike R start start' (.coefficientOutOfRange cause) (.coefficientOutOfRange cause')
  | unexpectedText : Alike R start start' .unexpectedText .unexpectedText
  | brokenNumber {part offset offset'} (h : OffsetAlike R offset offset') :
    Alike R start start' (.brokenNumber part offset) (.brokenNumber part offset')

/-- **Errors of the same kind**, at related places. -/
structure ParseError.Alike (R : Position → Position → Prop) (start start' : ParseFault)
    (e f : ParseError) : Prop where
  offset : OffsetAlike R e.offset f.offset
  fault : ParseFault.Alike R start start' e.fault f.fault

/-- **Tokens of the same text** at related places. The places before their last characters are related as
well, since a unit may stand there. -/
structure Token.Alike (R : Position → Position → Prop) (t u : Token) : Prop where
  text : t.text = u.text
  extent : t.extent.Alike R u.extent
  last : ∀ front c, t.text = front ++ [c] →
    R (t.span.stop.back c.utf8Size) (u.span.stop.back c.utf8Size)

/-- Where the faults at the start are of one kind, they are no exception. -/
theorem ParseFault.Alike.ordinary {start start' f g : ParseFault}
    (h : ParseFault.Alike R start start' f g)
    (hstart : ParseFault.Alike R .missingExpression .missingExpression start start') :
    ParseFault.Alike R .missingExpression .missingExpression f g := by
  cases h with
  | atStart => exact hstart
  | missingOperand h => exact .missingOperand h
  | emptyGroup h => exact .emptyGroup h
  | unclosedGroup h => exact .unclosedGroup h
  | missingExponent h => exact .missingExponent h
  | missingTemperature h => exact .missingTemperature h
  | missingValue h => exact .missingValue h
  | valueOutOfRange h => exact .valueOutOfRange h
  | toleranceOutOfRange h => exact .toleranceOutOfRange h
  | coefficientOutOfRange h => exact .coefficientOutOfRange h
  | unexpectedText => exact .unexpectedText
  | brokenNumber h => exact .brokenNumber h

/-! ## Putting nodes together -/

theorem Extent.Alike.through {first first' last last' : Extent} (h : first.Alike R first')
    (hlast : last.Alike R last') : (first.through last).Alike R (first'.through last') :=
  ⟨⟨h.span.start, hlast.span.stop⟩, hlast.space⟩

theorem Token.Alike.node {α : Type} {t u : Token} (h : t.Alike R u) (value : α) :
    (t.node value).Alike R (u.node value) :=
  ⟨rfl, h.extent⟩

namespace Expr.Alike

variable {S : Type} {e f left left' right right' : Expr S}

theorem extent (h : e.Alike R f) : e.extent.Alike R f.extent := by
  cases h <;> assumption

theorem join {op op' : Node BinaryOperator} (hleft : left.Alike R left') (hop : op.Alike R op')
    (hright : right.Alike R right') : (left.join op right).Alike R (left'.join op' right') :=
  .binary (hleft.extent.through hright.extent) hop hleft hright

theorem raise {value value' : Node S} (h : e.Alike R f) (hvalue : value.Alike R value') :
    (e.raise value).Alike R (f.raise value') :=
  .power (h.extent.through hvalue.extent) h hvalue

theorem shift {degrees degrees' : Node S} (h : e.Alike R f) (hdegrees : degrees.Alike R degrees') :
    (e.shift degrees).Alike R (f.shift degrees') :=
  .atTemperature (h.extent.through hdegrees.extent) h hdegrees

end Expr.Alike

/-! ## What waits for an operand -/

/-- Operands and operators that are alike. -/
def Waiting.Alike (R : Position → Position → Prop) (w v : Waiting) : Prop :=
  w.1.Alike R v.1 ∧ w.2.Alike R v.2

/-- What waits inside brackets, if it is alike. -/
structure Pending.Alike (R : Position → Position → Prop) (p q : Pending) : Prop where
  sum : Option.Rel (Waiting.Alike R) p.sum q.sum
  product : Option.Rel (Waiting.Alike R) p.product q.product

/-- Brackets that are alike, with what waits around them. -/
def OpenGroup.Alike (R : Position → Position → Prop) (g h : Token × Pending) : Prop :=
  g.1.Alike R h.1 ∧ g.2.Alike R h.2

/-- **Progress that is alike** in all that was read. -/
structure Progress.Alike (R : Position → Position → Prop) (p q : Progress) : Prop where
  pending : p.pending.Alike R q.pending
  outer : List.Forall₂ (OpenGroup.Alike R) p.outer q.outer
  operand : Option.Rel (Expr.Alike R) p.operand q.operand

theorem joinTo_alike {w v : Option Waiting} {e f : Expr Binary64}
    (h : Option.Rel (Waiting.Alike R) w v) (he : e.Alike R f) :
    (joinTo w e).Alike R (joinTo v f) := by
  cases h with
  | none => exact he
  | some h => exact h.1.join h.2 he

namespace Pending.Alike

variable {p q : Pending} {e f : Expr Binary64}

theorem empty : Pending.Alike R {} {} := ⟨.none, .none⟩

theorem factor (h : p.Alike R q) (he : e.Alike R f) : (p.factor e).Alike R (q.factor f) :=
  joinTo_alike h.product he

theorem total (h : p.Alike R q) (he : e.Alike R f) : (p.total e).Alike R (q.total f) :=
  joinTo_alike h.sum (h.factor he)

theorem push (h : p.Alike R q) (he : e.Alike R f) {op op' : Node BinaryOperator}
    (hop : op.Alike R op') : (p.push e op).Alike R (q.push f op') := by
  unfold Pending.push
  rw [← hop.value]
  split
  · exact ⟨.some ⟨h.total he, hop⟩, .none⟩
  · exact ⟨h.sum, .some ⟨h.factor he, hop⟩⟩

theorem lastOperator (h : p.Alike R q) :
    Option.Rel (Node.Alike R) p.lastOperator q.lastOperator := by
  obtain ⟨sum, product⟩ := p
  obtain ⟨sum', product'⟩ := q
  obtain ⟨hsum, hproduct⟩ := h
  cases hproduct with
  | some hwaiting => exact .some hwaiting.2
  | none =>
    cases hsum with
    | some hwaiting => exact .some hwaiting.2
    | none => exact .none

end Pending.Alike

/-- What is missing is alike. -/
theorem Progress.Alike.missing {p q : Progress} (h : p.Alike R q) (start start' : ParseFault) :
    ParseFault.Alike R start start' (p.missing start) (q.missing start') := by
  have hlast := h.pending.lastOperator
  unfold Progress.missing
  generalize p.pending.lastOperator = o at hlast ⊢
  generalize q.pending.lastOperator = o' at hlast ⊢
  cases hlast with
  | some hop =>
    dsimp only
    rw [← hop.value]
    exact .missingOperand hop.extent.span
  | none =>
    have houter := h.outer
    dsimp only
    generalize p.outer = outer at houter ⊢
    generalize q.outer = outer' at houter ⊢
    cases houter with
    | nil => exact .atStart
    | cons hgroup _ => exact .emptyGroup hgroup.1.extent.span

end WorstCase
