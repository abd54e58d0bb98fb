import WorstCase.Formula.Parsing

/-!
# The grammar as rules

A second reading of formulas, by **rules** that call each other as the grammar is written down: a sum is
products with signs between them, a product is operands with what follows them, and an operand in brackets
is a sum again. It is what the steps of `readSteps` are measured against.

A rule reads something at a cursor, or does not. If not, it either **refuses**, and another rule may be
tried in its place, or it **fails**, and nothing else is tried. It says where and why. A rule that is made
from another may make a failure of its refusals, or give them a reason of its own.

The rules rest on assumptions that they check: a reason is given once, a span does not end before it
starts, a unit lies in its text. A rule that finds one of them wrong has **tripped**. Two more ways to
trip belong to the entry points: the text may not be enough to tell, and brackets may be nested deeper
than the rules were unfolded. That no text trips them is a theorem elsewhere.
-/

namespace WorstCase.Grammar

open ParseFault (isBlank)

/-! ## Outcomes -/

/-- What the rules for characters look for. -/
inductive Primitive where
  /-- One character. -/
  | character
  /-- A piece of text. -/
  | text
  /-- Digits. -/
  | digits
  /-- The end of the text. -/
  | ending
  /-- One more of a list, none of which may be empty. -/
  | repetition
  deriving DecidableEq, Repr

/-- The kinds of tokens. -/
inductive Expected where
  | number
  | magnitude
  | percentage
  | coefficient
  | name
  /-- An operator, a sign or a bracket. -/
  | mark (text : List Char)
  deriving DecidableEq, Repr

/-- **Why there is no token.** -/
inductive TokenFault where
  /-- A rule for characters found nothing. -/
  | bare (what : Primitive)
  /-- The token is not there. -/
  | expected (what : Expected)
  /-- A number breaks off, in the part that starts at the offset. -/
  | broken (part : NumberPart) (offset : Nat)
  deriving DecidableEq, Repr

/-- **Why there is no formula.** -/
inductive Reason where
  /-- One of the faults that are reported. -/
  | fault (f : ParseFault)
  /-- The token is not there. -/
  | expected (what : Expected)
  /-- A rule for characters found nothing, and no token was named for it. -/
  | bareToken (what : Primitive)
  /-- A rule made of other rules found nothing, and no reason was given. -/
  | bare (what : Primitive)
  deriving DecidableEq, Repr

/-- The reason that a token is missing. A number that breaks off is a fault that is reported. -/
def Reason.ofToken : TokenFault → Reason
  | .bare what => .bareToken what
  | .expected what => .expected what
  | .broken part offset => .fault (.brokenNumber part offset)

/-- The reason that nothing was found. What is left over at the end is a fault that is reported. -/
def Reason.ofPrimitive : Primitive → Reason
  | .ending => .fault .unexpectedText
  | what => .bare what

/-- **What is wrong, and the byte offset where it shows.** -/
structure Complaint (φ : Type) where
  /-- Where. -/
  offset : Nat
  /-- Why. -/
  reason : φ
  deriving DecidableEq, Repr

/-- The complaint that reports a parse error. -/
def Complaint.ofError (e : ParseError) : Complaint Reason := ⟨e.offset, .fault e.fault⟩

/-- **The assumptions of the rules**, one of which is wrong. -/
inductive Slip where
  /-- The reason that a token is missing is given twice. -/
  | renamed
  /-- A span ends before it starts. -/
  | span (e : SpanError)
  /-- A unit starts before the text does, or before its line. -/
  | unit
  /-- The text is not enough to tell. -/
  | starved
  /-- Brackets are nested too deep. -/
  | depth
  deriving DecidableEq, Repr

/-- **What a rule comes to.** -/
inductive Outcome (φ α : Type) where
  /-- Something was read. -/
  | read (a : α)
  /-- It is not there, and something else may be. -/
  | refused (e : Complaint φ)
  /-- It is not there, and nothing else can be. -/
  | failed (e : Complaint φ)
  /-- A longer text would tell. No rule below says so of itself: the end of the text is the end of the
  formula. -/
  | starved
  /-- An assumption of the rules is wrong. -/
  | tripped (s : Slip)

namespace Outcome

variable {φ α β : Type}

/-- What comes after something was read. -/
def andThen (o : Outcome φ α) (f : α → Outcome φ β) : Outcome φ β :=
  match o with
  | read a => f a
  | refused e => refused e
  | failed e => failed e
  | starved => starved
  | tripped s => tripped s

instance : Monad (Outcome φ) where
  pure := read
  bind := andThen

/-- The span between two positions, which must be in order. -/
def span (start stop : Position) : Outcome φ Span :=
  match Span.between start stop with
  | .ok s => read s
  | .error e => tripped (.span e)

/-- The extent from the start of one node to the end of another, which must be in order. -/
def extent (first last : Extent) : Outcome φ Extent := do
  let span ← span first.span.start last.span.stop
  return ⟨span, last.space⟩

/-- What was read from a token, or the failure to do so. -/
def ofExcept : Except ParseError α → Outcome Reason α
  | .ok a => read a
  | .error e => failed (.ofError e)

/-- A refusal or a failure with a reason, unless the reason is a slip. -/
def withReason (kind : Complaint φ → Outcome φ α) (offset : Nat) : Except Slip φ → Outcome φ α
  | .ok reason => kind ⟨offset, reason⟩
  | .error s => tripped s

/-- **The answer that an outcome comes to in the end**: what was read or the complaint, unless an
assumption is wrong. -/
def answer : Outcome φ α → Except Slip (Except (Complaint φ) α)
  | read a => .ok (.ok a)
  | refused e | failed e => .ok (.error e)
  | starved => .error .starved
  | tripped s => .error s

end Outcome

/-! ## Rules from rules -/

/-- **A rule**: what it comes to at a cursor, and the cursor behind what it reads. -/
abbrev Rule (φ α : Type) : Type := Cursor → Outcome φ (α × Cursor)

section Rules

variable {φ ψ α β : Type}

/-- Gives other reasons for refusals, and keeps them refusals. -/
def convertErrorTo (rule : Rule φ α) (convert : φ → Except Slip ψ) (into : φ → ψ) : Rule ψ α :=
  fun c => match rule c with
  | .read x => .read x
  | .refused e => .withReason .refused e.offset (convert e.reason)
  | .failed e => .failed ⟨e.offset, into e.reason⟩
  | .starved => .starved
  | .tripped s => .tripped s

/-- Gives other reasons for refusals, and makes failures of them. -/
def orFailWith (rule : Rule φ α) (convert : φ → Except Slip ψ) (into : φ → ψ) : Rule ψ α :=
  fun c => match rule c with
  | .read x => .read x
  | .refused e => .withReason .failed e.offset (convert e.reason)
  | .failed e => .failed ⟨e.offset, into e.reason⟩
  | .starved => .starved
  | .tripped s => .tripped s

/-- A rule for a token among the rules for formulas. -/
def convertErrors (rule : Rule TokenFault α) : Rule Reason α :=
  convertErrorTo rule (fun f => .ok (.ofToken f)) .ofToken

/-- The second rule where the first refuses. -/
def either (first second : Rule φ α) : Rule φ α := fun c =>
  match first c with
  | .refused _ => second c
  | o => o

/-- What a rule reads, or nothing where it refuses. -/
def opt (rule : Rule φ α) : Rule φ (Option α) := fun c =>
  match rule c with
  | .read (a, next) => .read (some a, next)
  | .refused _ => .read (none, c)
  | .failed e => .failed e
  | .starved => .starved
  | .tripped s => .tripped s

/-- What a rule reads, without moving past it. -/
def ahead (rule : Rule φ α) : Rule φ α := fun c => do
  let (a, _) ← rule c
  return (a, c)

/-- **What a rule reads, over and over**, until it refuses. It may not read nothing. -/
def many (rule : Rule Reason α) (c : Cursor) : Outcome Reason (List α × Cursor) :=
  match rule c with
  | .read (a, next) =>
    if _h : next.rest.length < c.rest.length then do
      let (more, last) ← many rule next
      return (a :: more, last)
    else .refused ⟨c.position.offset, .ofPrimitive .repetition⟩
  | .refused _ => .read ([], c)
  | .failed e => .failed e
  | .starved => .starved
  | .tripped s => .tripped s
termination_by c.rest.length

/-- All that a rule reads over and over, put together from the left with what is there. -/
def folded (rule : Rule Reason β) (attach : α → β → Outcome Reason α) (first : α) : Rule Reason α :=
  fun c => do
    let (more, c) ← many rule c
    let whole ← more.foldlM attach first
    return (whole, c)

/-- What a rule reads, if nothing is left over. -/
def allConsuming (rule : Rule Reason α) : Rule Reason α := fun c => do
  let (a, c) ← rule c
  if c.rest = [] then return (a, c)
  else .refused ⟨c.position.offset, .ofPrimitive .ending⟩

end Rules

/-! ## Characters -/

/-- One character of a kind. -/
def character (p : Char → Bool) : Rule TokenFault Unit := fun c =>
  match c.rest with
  | x :: rest =>
    if p x then .read ((), ⟨c.position.next x, rest⟩)
    else .refused ⟨c.position.offset, .bare .character⟩
  | [] => .refused ⟨c.position.offset, .bare .character⟩

/-- A piece of text. -/
def word (text : List Char) : Rule TokenFault Unit := fun c =>
  match text.isPrefixOf? c.rest with
  | some rest => .read ((), ⟨c.position.after text, rest⟩)
  | none => .refused ⟨c.position.offset, .bare .text⟩

/-- All characters of a kind that are next, which may be none. -/
def run (p : Char → Bool) : Rule TokenFault Unit := fun c =>
  .read ((), ⟨c.position.after (c.rest.takeWhile p), c.rest.dropWhile p⟩)

/-- Digits. -/
def digits : Rule TokenFault Unit := fun c =>
  if c.rest.takeWhile Char.isDigit = [] then .refused ⟨c.position.offset, .bare .digits⟩
  else run Char.isDigit c

/-- The end of the text. -/
def ending : Rule TokenFault Unit := fun c =>
  if c.rest = [] then .read ((), c) else .refused ⟨c.position.offset, .bare .ending⟩

/-! ## Tokens -/

namespace TokenFault

/-- The fault with another reason. Only one without a name may have another. -/
def update (other : TokenFault) : TokenFault → Except Slip TokenFault
  | bare _ => .ok other
  | _ => .error .renamed

end TokenFault

/-- **The token whose characters a rule reads**, with the blanks behind it. -/
def token (body : Rule TokenFault Unit) (what : Expected) : Rule TokenFault Token := fun c => do
  let (_, behind) ← convertErrorTo body (TokenFault.update (.expected what)) id c
  let span ← .span c.position behind.position
  let (_, next) ← run isBlank behind
  let space ← .span behind.position next.position
  return (⟨c.rest.take (c.rest.length - behind.rest.length), span, space⟩, next)

/-- A decimal point with digits. -/
def fraction : Rule TokenFault Unit := fun c => do
  let (_, next) ← word ['.'] c
  orFailWith digits (TokenFault.update (.broken .fraction c.position.offset)) id next

/-- An exponent. -/
def exponentPart : Rule TokenFault Unit := fun c => do
  let (_, next) ← either (word ['e']) (word ['E']) c
  let (_, next) ← opt (character Lexeme.isSign) next
  orFailWith digits (TokenFault.update (.broken .exponent c.position.offset)) id next

/-- The characters of a number without a sign. -/
def unsignedBody : Rule TokenFault Unit := fun c => do
  let (_, c) ← digits c
  let (_, c) ← opt fraction c
  let (_, c) ← opt exponentPart c
  return ((), c)

/-- The characters of a number. -/
def numberBody : Rule TokenFault Unit := fun c => do
  let (_, c) ← opt (character Lexeme.isSign) c
  unsignedBody c

/-- A metric prefix and a unit, or either, or neither. -/
def suffixBody (dialect : Dialect) : Rule TokenFault Unit := fun c => do
  let (_, c) ← opt (character (Lexeme.isPrefixChar dialect)) c
  let (_, c) ← opt (character Lexeme.isUnitChar) c
  return ((), c)

/-- The characters of a magnitude. -/
def magnitudeBody (dialect : Dialect) : Rule TokenFault Unit := fun c => do
  let (_, c) ← numberBody c
  suffixBody dialect c

/-- The characters of a percentage. -/
def percentageBody : Rule TokenFault Unit := fun c => do
  let (_, c) ← unsignedBody c
  character (· == '%') c

/-- The characters of a coefficient. -/
def coefficientBody : Rule TokenFault Unit := fun c => do
  let (_, c) ← opt (character Lexeme.isSign) c
  let (_, c) ← digits c
  word ['p', 'p', 'm'] c

/-- The characters of a name. -/
def nameBody : Rule TokenFault Unit := fun c => do
  let (_, c) ← character Char.isAlpha c
  run Lexeme.isNameChar c

/-- The character `/`, unless it is the first of two. -/
def slashBody : Rule TokenFault Unit := fun c => do
  let (_, c) ← word ['/'] c
  either (ahead (character (· != '/'))) ending c

def number : Rule TokenFault Token := token numberBody .number

def magnitude (dialect : Dialect) : Rule TokenFault Token := token (magnitudeBody dialect) .magnitude

def percentage : Rule TokenFault Token := token percentageBody .percentage

def coefficient : Rule TokenFault Token := token coefficientBody .coefficient

def name : Rule TokenFault Token := token nameBody .name

/-- An operator, a sign or a bracket. -/
def mark (text : List Char) : Rule TokenFault Token := token (word text) (.mark text)

/-- The sign for division. -/
def slash : Rule TokenFault Token := token slashBody (.mark ['/'])

/-! ## Expressions -/

/-- A token that stands for an operator. -/
def operator (op : BinaryOperator) (sign : Rule TokenFault Token) :
    Rule TokenFault (Node BinaryOperator) := fun c => do
  let (t, c) ← sign c
  return (t.node op, c)

/-- The operators of sums. -/
def additiveOperator : Rule Reason (Node BinaryOperator) :=
  convertErrors (either (operator .add (mark ['+'])) (operator .sub (mark ['-'])))

/-- The operators of products and the like. -/
def multiplicativeOperator : Rule Reason (Node BinaryOperator) :=
  convertErrors (either (operator .mul (mark ['*']))
    (either (operator .divider (mark ['/', '/']))
      (either (operator .div slash) (operator .parallel (mark ['|'])))))

/-- The unit of a magnitude, at the end of its token. -/
def unitNode (magnitude : Token) (parts : MagnitudeParts) :
    Outcome Reason (Option (Node UnitSymbol)) :=
  match parts.unit.bind fun c => (UnitSymbol.ofChar? c).map fun unit => (c, unit) with
  | none => return none
  | some (c, unit) =>
    let stop := magnitude.span.stop
    if c.utf8Size ≤ stop.offset ∧ c.utf8Size ≤ stop.column then do
      let span ← .span (stop.back c.utf8Size) stop
      return some ⟨unit, span, magnitude.extent.space⟩
    else .tripped .unit

/-- The literal that its tokens spell. -/
def literalOf (magnitude : Token) (tolerance coefficient : Option Token) :
    Outcome Reason (Literal Binary64) := do
  let parts := MagnitudeParts.split magnitude.text
  let number ← .ofExcept (magnitude.readFinite parts.number .valueOutOfRange)
  let unit ← unitNode magnitude parts
  let tolerance ← .ofExcept
    (Literal.readOptional (fun t => t.readFinite t.text.dropLast .toleranceOutOfRange) tolerance)
  let coefficient ← .ofExcept (Literal.readOptional Token.readCoefficient coefficient)
  return { value := number * Literal.prefixFactor parts, unit, tolerance, coefficient }

/-- A literal. -/
def literal (dialect : Dialect) : Rule Reason (Expr Binary64) := fun c => do
  let (magnitude, c) ← convertErrors (magnitude dialect) c
  let (tolerance, c) ← opt (convertErrors percentage) c
  let (coefficient, c) ← opt (convertErrors coefficient) c
  let literal ← literalOf magnitude tolerance coefficient
  let extent ← .extent magnitude.extent (coefficient.getD (tolerance.getD magnitude)).extent
  return (.literal extent literal, c)

/-- A variable. -/
def var : Rule Reason (Expr Binary64) := fun c => do
  let (name, c) ← convertErrors name c
  return (.var name.extent (String.ofList name.text), c)

/-- An expression in brackets. -/
def group (inner : Rule Reason (Expr Binary64)) : Rule Reason (Expr Binary64) := fun c => do
  let (opening, c) ← convertErrors (mark ['(']) c
  let (e, c) ← orFailWith inner (fun _ => .ok (.fault (.emptyGroup opening.span))) id c
  let (closing, c) ← orFailWith (mark [')'])
    (fun _ => .ok (.fault (.unclosedGroup opening.span))) Reason.ofToken c
  let extent ← .extent opening.extent closing.extent
  return (.group extent e, c)

/-- An operand: a literal, a variable, or an expression in brackets. -/
def primary (dialect : Dialect) (inner : Rule Reason (Expr Binary64)) : Rule Reason (Expr Binary64) :=
  convertErrorTo (either (literal dialect) (either var (group inner)))
    (fun _ => .ok (.fault .missingExpression)) id

/-- What may follow an operand and belongs to it. -/
inductive Postfix where
  /-- An exponent. -/
  | power (exponent : Node Binary64)
  /-- A temperature. -/
  | atTemperature (degrees : Node Binary64)

/-- An exponent behind the sign for powers. -/
def power : Rule Reason Postfix := fun c => do
  let (sign, c) ← convertErrors (mark ['^']) c
  let (number, c) ← orFailWith number
    (fun _ => .ok (.fault (.missingExponent sign.span))) Reason.ofToken c
  let value ← .ofExcept (number.readFinite number.text .valueOutOfRange)
  return (.power (number.node value), c)

/-- A temperature behind the sign for temperatures. -/
def atTemperature : Rule Reason Postfix := fun c => do
  let (sign, c) ← convertErrors (mark ['@']) c
  let (number, c) ← orFailWith number
    (fun _ => .ok (.fault (.missingTemperature sign.span))) Reason.ofToken c
  let (unit, c) ← opt (convertErrors (mark ['°', 'C'])) c
  let value ← .ofExcept (number.readFinite number.text .valueOutOfRange)
  let extent ← .extent number.extent (unit.getD number).extent
  return (.atTemperature ⟨value, extent⟩, c)

/-- An operand with what follows it. -/
def Postfix.attach (base : Expr Binary64) : Postfix → Outcome Reason (Expr Binary64)
  | power exponent => do
    let extent ← .extent base.extent exponent.extent
    return .power extent base exponent
  | atTemperature degrees => do
    let extent ← .extent base.extent degrees.extent
    return .atTemperature extent base degrees

/-- An operand and all that follows it. -/
def operand (dialect : Dialect) (inner : Rule Reason (Expr Binary64)) : Rule Reason (Expr Binary64) :=
  fun c => do
    let (first, c) ← primary dialect inner c
    folded (either power atTemperature) Postfix.attach first c

/-- An operator, and the operand that must follow it. -/
def operation (operator : Rule Reason (Node BinaryOperator)) (operand : Rule Reason (Expr Binary64)) :
    Rule Reason (Node BinaryOperator × Expr Binary64) := fun c => do
  let (op, c) ← operator c
  let (right, c) ← orFailWith operand
    (fun _ => .ok (.fault (.missingOperand op.value op.extent.span))) id c
  return ((op, right), c)

/-- Two operands joined by an operator. -/
def join (left : Expr Binary64) (more : Node BinaryOperator × Expr Binary64) :
    Outcome Reason (Expr Binary64) := do
  let extent ← .extent left.extent more.2.extent
  return .binary extent more.1 left more.2

/-- Operands with operators between them, joined from the left. -/
def leftAssociative (operator : Rule Reason (Node BinaryOperator))
    (operand : Rule Reason (Expr Binary64)) : Rule Reason (Expr Binary64) := fun c => do
  let (first, c) ← operand c
  folded (operation operator operand) join first c

/-- A product or the like. -/
def product (dialect : Dialect) (inner : Rule Reason (Expr Binary64)) : Rule Reason (Expr Binary64) :=
  leftAssociative multiplicativeOperator (operand dialect inner)

/-- **An expression**, in which brackets are nested less deep than a number. -/
def expression (dialect : Dialect) : Nat → Rule Reason (Expr Binary64)
  | 0 => fun _ => .tripped .depth
  | depth + 1 => leftAssociative additiveOperator (product dialect (expression dialect depth))

/-! ## Statements -/

/-- An assignment. -/
def assignment (expression : Rule Reason (Expr Binary64)) : Rule Reason (Statement Binary64) :=
  fun c => do
    let (name, c) ← convertErrors name c
    let (sign, c) ← convertErrors (mark ['=']) c
    let (value, c) ← orFailWith expression (fun _ => .ok (.fault (.missingValue sign.span))) id c
    let extent ← .extent name.extent value.extent
    return (.assign extent (name.node (String.ofList name.text)) value, c)

/-- A statement: an assignment or an expression. -/
def statement (expression : Rule Reason (Expr Binary64)) : Rule Reason (Statement Binary64) :=
  either (assignment expression) fun c => do
    let (value, c) ← expression c
    return (.expression value, c)

/-- What a rule makes of a whole text, leading blanks apart. -/
def parse {α : Type} (rule : Rule Reason α) (text : List Char) :
    Except Slip (Except (Complaint Reason) α) :=
  Outcome.answer do
    let (_, c) ← convertErrors (run isBlank) ⟨Position.start, text⟩
    let (a, _) ← allConsuming rule c
    return a

/-- **The expression that a text spells**, by the rules. A text has less brackets than characters. -/
def parseExpression (dialect : Dialect) (text : List Char) :
    Except Slip (Except (Complaint Reason) (Expr Binary64)) :=
  parse (expression dialect (text.length + 1)) text

/-- **The statement that a text spells**, by the rules. -/
def parseStatement (dialect : Dialect) (text : List Char) :
    Except Slip (Except (Complaint Reason) (Statement Binary64)) :=
  parse (statement (expression dialect (text.length + 1))) text

end WorstCase.Grammar
