import WorstCase.MetricPrefix
import WorstCase.Quantity.Basic

/-!
# How quantities are shown

A quantity is shown in up to five clauses with a blank between them:

`8.5kΩ ± 1.0% (± 85.0Ω) [8.4150 .. 8.5850]kΩ @ 20°C α=200ppm`

which are its value, its relative tolerance, its variation to either side, its range, and for a
resistance its temperature. `Rendering` says which of them are wanted. A clause that has nothing to say
is left out: an exact value has no tolerance, variation or range, and a factor has no variation, since
that would read as a second factor.

The value and the variation each choose their own prefix; the range shares that of the value.
-/

namespace WorstCase

/-- **Which clauses to show.** -/
structure Rendering where
  value : Bool := true
  tolerance : Bool := true
  variation : Bool := true
  range : Bool := true
  temperature : Bool := true
  deriving DecidableEq, Repr

namespace Rendering

open Binary64

/-- A number rounded to hundredths, a half going away from zero. A zero has no sign. -/
def hundredths (x : Binary64) : Binary64 :=
  round (x * ofRat 100) / ofRat 100 + 0

/-- A number shown with one place at least. -/
def withPoint (x : Binary64) : String :=
  let shown := x.text
  if shown.toList.contains '.' || !x.isFinite then shown else shown ++ ".0"

/-- The number in the value clause, which is to be read with the prefix of the mean. -/
def shownValue (q : Quantity Binary64) : Binary64 :=
  let mean := q.measure.mean
  hundredths (mean / (MetricPrefix.ofMagnitude mean).factor)

/-- The value with its prefix and unit. -/
def valueClause (q : Quantity Binary64) : String :=
  withPoint (shownValue q) ++ (MetricPrefix.ofMagnitude q.measure.mean).symbol ++ q.kind.unitLabel

/-- The relative tolerance in percent, if there is one and it is not zero. -/
def toleranceClause (q : Quantity Binary64) : Option String :=
  match q.measure.tolerance with
  | some tolerance =>
    if 0 < tolerance then some ("± " ++ withPoint (hundredths (tolerance * ofRat 100)) ++ "%") else none
  | none => none

/-- Half the width of the range. -/
def variationClause (q : Quantity Binary64) : Option String :=
  if q.bounds.hasSpread && q.kind ≠ .factor then
    let width := q.bounds.halfWidth
    let metric := MetricPrefix.ofMagnitude width
    some ("(± " ++ withPoint (hundredths (abs (width / metric.factor))) ++ metric.symbol
      ++ q.kind.unitLabel ++ ")")
  else none

/-- The bounds, with the prefix of the value. -/
def rangeClause (q : Quantity Binary64) : Option String :=
  if q.bounds.hasSpread then
    let metric := MetricPrefix.ofMagnitude q.measure.mean
    some ("[" ++ fixedText 4 (q.bounds.lower / metric.factor) ++ " .. "
      ++ fixedText 4 (q.bounds.upper / metric.factor) ++ "]" ++ metric.symbol ++ q.kind.unitLabel)
  else none

/-- The temperature of a resistance, and its coefficient if it has one. -/
def temperatureClause (q : Quantity Binary64) : Option String :=
  q.resistance?.map fun r =>
    let temperature := match r.temperature with
      | .celsius degrees => "@ " ++ degrees.text ++ "°C"
      | .mixed => "@ mixed temp."
    match r.coefficient with
    | some coefficient => temperature ++ " α=" ++ toString coefficient ++ "ppm"
    | none => temperature

/-- A clause, if it is wanted. -/
def wanted (flag : Bool) (clause : Option String) : Option String :=
  if flag then clause else none

/-- **The text of a quantity**: the clauses that are wanted and have something to say. -/
def quantity (options : Rendering) (q : Quantity Binary64) : String :=
  " ".intercalate (List.filterMap id
    [wanted options.value (some (valueClause q)),
     wanted options.tolerance (toleranceClause q),
     wanted options.variation (variationClause q),
     wanted options.range (rangeClause q),
     wanted options.temperature (temperatureClause q)])

/-- The text of what an operation came to. -/
def outcome (options : Rendering) : Outcome Binary64 → String
  | .quantity q => options.quantity q
  | .bounds bounds => "(" ++ bounds.lower.text ++ ", " ++ bounds.upper.text ++ ")"
  | .undefined => "undefined"

end Rendering

end WorstCase
