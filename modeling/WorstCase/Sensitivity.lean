import WorstCase.Evaluation

/-!
# Sensitivity

Which component's tolerance matters most for a result? The **sweep** gives one variable at a time each
tolerance of a ladder, leaves the others as they are, and notes the tolerance of the target. The table
has a row for every variable, and the variable whose row ends highest is the most sensitive one.

One environment serves the whole sweep. What is varied in it is put back before the next variable is
taken up.
-/

namespace WorstCase

/-- **The tolerances of a target**, by variable and by the tolerance that the variable was given. -/
structure SensitivityTable (S : Type) where
  /-- The tolerances that each variable was given, as fractions. -/
  tolerances : List S
  /-- For every variable the tolerance of the target at each of them, where it has one. -/
  rows : Ledger (List (Option S))
  deriving DecidableEq

section Sweep

variable {S : Type} [Scalar S]

/-- The relative tolerance of an outcome, if it has one. -/
def Outcome.tolerance : Outcome S → Option S
  | .quantity q => q.measure.tolerance
  | .bounds i => (meanAndTolerance i).2
  | .undefined => none

/-- **The row of one variable**, which takes one tolerance after the other. The environment keeps the
last that it took. -/
def sweepRow (target : Expr S) (name : String) (q : Quantity S) :
    Environment S → List S → Except (EvalError S) (List (Option S) × Environment S)
  | env, [] => .ok ([], env)
  | env, tolerance :: rest => do
    let varied ← metAt target.span (q.withTolerance tolerance)
    let env := env.assign name varied
    let outcome ← target.eval env
    let (row, env) ← sweepRow target name q env rest
    return (outcome.tolerance :: row, env)

/-- **The rows of variables**, entered one after the other. A variable gets its own value back before the
next one is varied. -/
def sweepRows (tolerances : List S) (target : Expr S) :
    Environment S → Ledger (List (Option S)) → List (String × Quantity S) →
      Except (EvalError S) (Ledger (List (Option S)))
  | _, rows, [] => .ok rows
  | env, rows, (name, q) :: rest => do
    let (row, env) ← sweepRow target name q env tolerances
    sweepRows tolerances target (env.assign name q) (rows.assign name row) rest

/-- **The sweep over all variables.** The target must have a value as things are. -/
def sweep (env : Environment S) (tolerances : List S) (target : Expr S) :
    Except (EvalError S) (SensitivityTable S) := do
  let _ ← target.eval env
  return ⟨tolerances, ← sweepRows tolerances target env .empty env.entries⟩

end Sweep

namespace SensitivityTable

/-- The last entry of a row, if there is one and it is a tolerance. -/
def effect (row : List (Option Binary64)) : Option Binary64 := row.getLast?.join

/-- The row of greater effect; of two like ones the later. -/
def stronger (best : Option (String × Binary64)) (row : String × Binary64) :
    Option (String × Binary64) :=
  match best with
  | some b => if Binary64.totalLessOrEqual b.2 row.2 then some row else some b
  | none => some row

/-- **The variable whose tolerance has the greatest effect** at the top of the ladder. -/
def mostSensitive (t : SensitivityTable Binary64) : Option String :=
  let effects := t.rows.entries.filterMap fun (name, row) => (effect row).map fun e => (name, e)
  (effects.foldl stronger none).map Prod.fst

/-- A text filled up with blanks behind it. -/
def padEnd (width : Nat) (s : String) : String := s ++ "".pushn ' ' (width - s.length)

/-- A text filled up with blanks before it. -/
def padStart (width : Nat) (s : String) : String := "".pushn ' ' (width - s.length) ++ s

/-- A fraction in percent, or a dash. -/
def percentText : Option Binary64 → String
  | some fraction => (fraction * Binary64.ofRat 100).fixedText 2 ++ "%"
  | none => "-"

/-- A line of the table. -/
def lineOf (width : Nat) (head : String) (cells : List (Option Binary64)) : String :=
  padEnd width head ++ String.join (cells.map fun cell => " " ++ padStart 8 (percentText cell))

/-- **The table as text**, one line for the ladder and one for every variable. -/
def text (t : SensitivityTable Binary64) : String :=
  let width := t.rows.names.foldl (fun width name => max width name.length) 8
  let head := lineOf width "variable" (t.tolerances.map some)
  "\n".intercalate (head :: t.rows.entries.map fun (name, row) => lineOf width name row)

end SensitivityTable

end WorstCase
