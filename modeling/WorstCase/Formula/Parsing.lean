import WorstCase.Formula.Token

/-!
# Reading formulas

A formula is read from left to right in **steps**, each of which takes one operand, operator or bracket.
What has been read is kept as a `Progress`: the operand just read, if any, and for the innermost open
bracket and every bracket around it the sum and the product that are still waiting for their right
operand. A sum waits while a product to its right is being read, since products bind tighter; a product
waits for one operand only. That is all that precedence comes to, and operators of one strength join from
the left.

So a text is a formula if the steps lead to a place where an operand was just read and no bracket is
open. Where a step finds nothing that it can take, either an operand is missing, or a bracket is not
closed, or the formula is over.

Every step leaves less text (`step_length_lt`), and so `readSteps` ends.
-/

namespace WorstCase

/-- What can be read where an operand is expected. -/
inductive Operand where
  /-- A literal or a variable. -/
  | atom (e : Expr Binary64)
  /-- An opening bracket. -/
  | opening (bracket : Token)
  deriving DecidableEq

/-- What can be read behind an operand that goes on with the formula. -/
inductive Continuation where
  /-- An operator that wants another operand. -/
  | operator (op : Node BinaryOperator)
  /-- An exponent. -/
  | exponent (value : Node Binary64)
  /-- A temperature. -/
  | temperature (degrees : Node Binary64)
  deriving DecidableEq

namespace Cursor

/-- The variable that is next, if one is. -/
def var (c : Cursor) : Except ParseError (Option (Expr Binary64 × Cursor)) := do
  match ← c.token Lexeme.name with
  | some (name, c) => return some (.var name.extent (String.ofList name.text), c)
  | none => return none

/-- The operand or opening bracket that is next, if one is. -/
def operand (dialect : Dialect) (c : Cursor) : Except ParseError (Option (Operand × Cursor)) := do
  match ← c.literal dialect with
  | some (e, next) => return some (.atom e, next)
  | none =>
    match ← c.var with
    | some (e, next) => return some (.atom e, next)
    | none =>
      match c.rest with
      | '(' :: rest =>
        let (bracket, next) := c.accept ['('] rest
        return some (.opening bracket, next)
      | _ => return none

/-- The number that must follow an operator. Where it is missing, its digits are: the fault shows behind
a sign of the number, if there is one. -/
def requiredNumber (c : Cursor) (missing : ParseFault) : Except ParseError (Token × Cursor) := do
  match ← c.token Lexeme.number with
  | some (number, next) => return (number, next)
  | none =>
    let sign := (Lexeme.optional Lexeme.isSign c.rest).1
    .error ⟨c.position.offset + byteSize sign, missing⟩

/-- The exponent behind the sign for powers. -/
def exponent (sign : Token) (c : Cursor) : Except ParseError (Node Binary64 × Cursor) := do
  let (number, c) ← c.requiredNumber (.missingExponent sign.span)
  let value ← number.readFinite number.text .valueOutOfRange
  return (number.node value, c)

/-- The temperature behind the sign for temperatures, with its unit if that is written. -/
def temperature (sign : Token) (c : Cursor) : Except ParseError (Node Binary64 × Cursor) := do
  let (number, c) ← c.requiredNumber (.missingTemperature sign.span)
  let (extent, c) := match c.rest with
    | '°' :: 'C' :: rest =>
      let (unit, c) := c.accept ['°', 'C'] rest
      (number.extent.through unit.extent, c)
    | _ => (number.extent, c)
  let value ← number.readFinite number.text .valueOutOfRange
  return (⟨value, extent⟩, c)

/-- The binary operator that a text starts with, and what follows it. -/
def binaryOperator? : List Char → Option (BinaryOperator × List Char × List Char)
  | '+' :: rest => some (.add, ['+'], rest)
  | '-' :: rest => some (.sub, ['-'], rest)
  | '*' :: rest => some (.mul, ['*'], rest)
  | '/' :: '/' :: rest => some (.divider, ['/', '/'], rest)
  | '/' :: rest => some (.div, ['/'], rest)
  | '|' :: rest => some (.parallel, ['|'], rest)
  | _ => none

/-- What goes on with the formula behind an operand, if anything does. -/
def continuation (c : Cursor) : Except ParseError (Option (Continuation × Cursor)) := do
  match binaryOperator? c.rest with
  | some (op, lexeme, rest) =>
    let (sign, next) := c.accept lexeme rest
    return some (.operator (sign.node op), next)
  | none =>
    match c.rest with
    | '^' :: rest =>
      let (sign, next) := c.accept ['^'] rest
      let (value, next) ← next.exponent sign
      return some (.exponent value, next)
    | '@' :: rest =>
      let (sign, next) := c.accept ['@'] rest
      let (degrees, next) ← next.temperature sign
      return some (.temperature degrees, next)
    | _ => return none

end Cursor

/-! ## Pending sums and products -/

/-- An operand with the operator behind it, waiting for the operand to come. -/
abbrev Waiting := Expr Binary64 × Node BinaryOperator

/-- An operand joined to one that waits for it, if one does. -/
def joinTo (waiting : Option Waiting) (e : Expr Binary64) : Expr Binary64 :=
  match waiting with
  | some (left, op) => left.join op e
  | none => e

/-- **What waits for its right operand** inside one pair of brackets. -/
structure Pending where
  /-- A sum or difference. -/
  sum : Option Waiting := none
  /-- A product or the like. -/
  product : Option Waiting := none
  deriving DecidableEq

namespace Pending

/-- An operand joined to the product that waits for it. -/
def factor (p : Pending) (e : Expr Binary64) : Expr Binary64 := joinTo p.product e

/-- An operand joined to all that waits for it. -/
def total (p : Pending) (e : Expr Binary64) : Expr Binary64 := joinTo p.sum (p.factor e)

/-- What waits after an operand and an operator behind it. -/
def push (p : Pending) (e : Expr Binary64) (op : Node BinaryOperator) : Pending :=
  if op.value.isAdditive then { sum := some (p.total e, op) }
  else { p with product := some (p.factor e, op) }

/-- The operator that an operand is expected after, if there is one. -/
def lastOperator (p : Pending) : Option (Node BinaryOperator) :=
  (p.product.or p.sum).map Prod.snd

end Pending

/-- **How far a formula has been read.** -/
structure Progress where
  /-- What waits inside the innermost bracket. -/
  pending : Pending := {}
  /-- The open brackets, innermost first, and what waits around each. -/
  outer : List (Token × Pending) := []
  /-- The operand just read. Without one, an operand is expected. -/
  operand : Option (Expr Binary64) := none
  deriving DecidableEq

/-- The fault if no operand is found: it depends on what the operand is expected after. At the very start
of the formula it is the fault given. -/
def Progress.missing (p : Progress) (atStart : ParseFault) : ParseFault :=
  match p.pending.lastOperator with
  | some op => .missingOperand op.value op.extent.span
  | none =>
    match p.outer with
    | (bracket, _) :: _ => .emptyGroup bracket.span
    | [] => atStart

/-- What one step of reading leads to. -/
inductive Step where
  /-- There is more to read. -/
  | more (p : Progress) (c : Cursor)
  /-- The formula is over. -/
  | done (e : Expr Binary64) (c : Cursor)
  /-- The text is no formula. -/
  | failed (e : ParseError)
  deriving DecidableEq

/-- The step where an operand is expected. -/
def stepOperand (dialect : Dialect) (atStart : ParseFault) (p : Progress) (c : Cursor) : Step :=
  match c.operand dialect with
  | .error e => .failed e
  | .ok none => .failed ⟨c.position.offset, p.missing atStart⟩
  | .ok (some (.atom e, next)) => .more { p with operand := some e } next
  | .ok (some (.opening bracket, next)) => .more { outer := (bracket, p.pending) :: p.outer } next

/-- The step behind an operand where nothing goes on with the formula: the innermost bracket closes, or
the formula is over. -/
def stepClose (p : Progress) (e : Expr Binary64) (c : Cursor) : Step :=
  match p.outer with
  | [] => .done (p.pending.total e) c
  | (bracket, pending) :: outer =>
    match c.rest with
    | ')' :: rest =>
      let (closing, next) := c.accept [')'] rest
      let group := .group (bracket.extent.through closing.extent) (p.pending.total e)
      .more ⟨pending, outer, some group⟩ next
    | _ => .failed ⟨c.position.offset, .unclosedGroup bracket.span⟩

/-- The step behind an operand. -/
def stepContinuation (p : Progress) (e : Expr Binary64) (c : Cursor) : Step :=
  match c.continuation with
  | .error err => .failed err
  | .ok (some (.operator op, next)) => .more ⟨p.pending.push e op, p.outer, none⟩ next
  | .ok (some (.exponent value, next)) => .more { p with operand := some (e.raise value) } next
  | .ok (some (.temperature degrees, next)) => .more { p with operand := some (e.shift degrees) } next
  | .ok none => stepClose p e c

/-- **One step of reading.** -/
def step (dialect : Dialect) (atStart : ParseFault) (p : Progress) (c : Cursor) : Step :=
  match p.operand with
  | none => stepOperand dialect atStart p c
  | some e => stepContinuation p e c

/-! ## A step leaves less text -/

namespace Cursor

theorem accept_length_lt {c : Cursor} (lexeme : List Char) {rest : List Char}
    (h : c.rest = lexeme ++ rest) (ne : lexeme ≠ []) : (c.accept lexeme rest).2.rest.length < c.rest.length := by
  have le := accept_length_le c lexeme rest
  have pos := List.length_pos_iff.2 ne
  rw [h, List.length_append]
  omega

theorem var_length_lt {c next : Cursor} {e : Expr Binary64}
    (h : c.var = .ok (some (e, next))) : next.rest.length < c.rest.length := by
  unfold Cursor.var at h
  generalize read : c.token Lexeme.name = r at h
  match r with
  | .error _ => cases h
  | .ok none => cases h
  | .ok (some (name, c₁)) =>
    cases h
    exact token_length_lt Lexeme.name_found read

theorem operand_length_lt {dialect : Dialect} {c next : Cursor} {o : Operand}
    (h : c.operand dialect = .ok (some (o, next))) : next.rest.length < c.rest.length := by
  unfold operand at h
  generalize first : c.literal dialect = r at h
  match r with
  | .error _ => cases h
  | .ok (some (e, c₁)) =>
    cases h
    exact literal_length_lt first
  | .ok none =>
    simp only [bind, Except.bind] at h
    generalize second : c.var = s at h
    match s with
    | .error _ => cases h
    | .ok (some (e, c₁)) =>
      cases h
      exact var_length_lt second
    | .ok none =>
      dsimp only at h
      split at h
      · rename_i rest eq
        cases h
        exact accept_length_lt ['('] eq (by simp)
      · cases h

theorem requiredNumber_length_lt {c next : Cursor} {missing : ParseFault} {t : Token}
    (h : c.requiredNumber missing = .ok (t, next)) : next.rest.length < c.rest.length := by
  unfold requiredNumber at h
  generalize read : c.token Lexeme.number = r at h
  match r with
  | .error _ => cases h
  | .ok none => cases h
  | .ok (some (number, c₁)) =>
    cases h
    exact token_length_lt Lexeme.number_found read

theorem exponent_length_lt {sign : Token} {c next : Cursor} {value : Node Binary64}
    (h : c.exponent sign = .ok (value, next)) : next.rest.length < c.rest.length := by
  unfold exponent at h
  generalize read : c.requiredNumber _ = r at h
  match r with
  | .error _ => cases h
  | .ok (number, c₁) =>
    have lt := requiredNumber_length_lt read
    simp only [bind, Except.bind] at h
    split at h
    · cases h
    · cases h
      exact lt

theorem temperature_length_lt {sign : Token} {c next : Cursor} {degrees : Node Binary64}
    (h : c.temperature sign = .ok (degrees, next)) : next.rest.length < c.rest.length := by
  unfold temperature at h
  generalize read : c.requiredNumber _ = r at h
  match r with
  | .error _ => cases h
  | .ok (number, c₁) =>
    have lt := requiredNumber_length_lt read
    simp only [bind, Except.bind] at h
    split at h
    · cases h
    · cases h
      split
      · rename_i rest eq
        have lt₂ := accept_length_lt ['°', 'C'] eq (by simp)
        exact Nat.lt_trans lt₂ lt
      · exact lt

theorem binaryOperator?_eq_some {cs lexeme rest : List Char} {op : BinaryOperator}
    (h : binaryOperator? cs = some (op, lexeme, rest)) : cs = lexeme ++ rest ∧ lexeme ≠ [] := by
  unfold binaryOperator? at h
  split at h <;> cases h <;> exact ⟨rfl, by simp⟩

theorem continuation_length_lt {c next : Cursor} {k : Continuation}
    (h : c.continuation = .ok (some (k, next))) : next.rest.length < c.rest.length := by
  unfold continuation at h
  split at h
  · rename_i op lexeme rest found
    cases h
    obtain ⟨eq, ne⟩ := binaryOperator?_eq_some found
    exact accept_length_lt _ eq ne
  · split at h
    · rename_i rest eq
      have lt := accept_length_lt ['^'] eq (by simp)
      simp only [bind, Except.bind] at h
      split at h
      · cases h
      · rename_i read
        cases h
        exact Nat.lt_trans (exponent_length_lt read) lt
    · rename_i rest eq
      have lt := accept_length_lt ['@'] eq (by simp)
      simp only [bind, Except.bind] at h
      split at h
      · cases h
      · rename_i read
        cases h
        exact Nat.lt_trans (temperature_length_lt read) lt
    · cases h

end Cursor

/-- A step that has more to read has less left to read. -/
theorem step_length_lt {dialect : Dialect} {atStart : ParseFault} {p q : Progress} {c next : Cursor}
    (h : step dialect atStart p c = .more q next) : next.rest.length < c.rest.length := by
  unfold step at h
  split at h
  · unfold stepOperand at h
    split at h
    · cases h
    · cases h
    · rename_i read
      cases h
      exact Cursor.operand_length_lt read
    · rename_i read
      cases h
      exact Cursor.operand_length_lt read
  · unfold stepContinuation at h
    split at h
    · cases h
    · rename_i read
      cases h
      exact Cursor.continuation_length_lt read
    · rename_i read
      cases h
      exact Cursor.continuation_length_lt read
    · rename_i read
      cases h
      exact Cursor.continuation_length_lt read
    · unfold stepClose at h
      split at h
      · cases h
      · split at h
        · rename_i rest eq
          cases h
          exact Cursor.accept_length_lt [')'] eq (by simp)
        · cases h

/-! ## Reading -/

/-- **Reads steps until the formula is over**, and gives it with the place behind it. -/
def readSteps (dialect : Dialect) (atStart : ParseFault) (p : Progress) (c : Cursor) :
    Except ParseError (Expr Binary64 × Cursor) :=
  match _h : step dialect atStart p c with
  | .more q next => readSteps dialect atStart q next
  | .done e next => .ok (e, next)
  | .failed e => .error e
termination_by c.rest.length
decreasing_by exact step_length_lt _h

/-- The formula that is next. -/
def Cursor.expr (dialect : Dialect) (atStart : ParseFault) (c : Cursor) :
    Except ParseError (Expr Binary64 × Cursor) :=
  readSteps dialect atStart {} c

/-- Accepts what was read if nothing is left over. -/
def finish {α : Type} (read : α × Cursor) : Except ParseError α :=
  if read.2.rest = [] then .ok read.1 else .error ⟨read.2.position.offset, .unexpectedText⟩

/-- **The expression that a text spells.** -/
def parseExpression (dialect : Dialect) (text : List Char) : Except ParseError (Expr Binary64) := do
  finish (← (Cursor.ofText text).expr dialect .missingExpression)

/-- A name with the sign for assignments behind it, if they are next. -/
def Cursor.assignment (c : Cursor) : Except ParseError (Option (Token × Token × Cursor)) := do
  match ← c.token Lexeme.name with
  | none => return none
  | some (name, next) =>
    match next.rest with
    | '=' :: rest =>
      let (sign, next) := next.accept ['='] rest
      return some (name, sign, next)
    | _ => return none

/-- **The statement that a text spells.** -/
def parseStatement (dialect : Dialect) (text : List Char) :
    Except ParseError (Statement Binary64) := do
  let start := Cursor.ofText text
  match ← start.assignment with
  | some (name, sign, next) =>
    let (value, next) ← next.expr dialect (.missingValue sign.span)
    finish (.assign (name.extent.through value.extent) (name.node (String.ofList name.text)) value, next)
  | none =>
    let (value, next) ← start.expr dialect .missingExpression
    finish (.expression value, next)

end WorstCase
