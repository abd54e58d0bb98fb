import WorstCase.Binary64.Text

/-!
# Metric prefixes

The prefixes from pico to tera, as they are typed after a number and as they are chosen for display. A
value is shown with the **greatest prefix that does not exceed it**, so that what stands before the
prefix lies between 1 and 1000.

The value is rounded to twelve significant digits before the choice. A value that arithmetic left just
below `1 µ` is then shown as `1 µ` and not as `1000 n`.
-/

namespace WorstCase

/-- **A metric prefix**, or none. -/
inductive MetricPrefix where
  | pico | nano | micro | milli | one | kilo | mega | giga | tera
  deriving DecidableEq, Repr

namespace MetricPrefix

/-- The power of ten that the prefix stands for. -/
def exponent : MetricPrefix → Int
  | .pico => -12
  | .nano => -9
  | .micro => -6
  | .milli => -3
  | .one => 0
  | .kilo => 3
  | .mega => 6
  | .giga => 9
  | .tera => 12

/-- The power of ten as a number. -/
def factor (p : MetricPrefix) : Binary64 := Binary64.ofDecimal false ⟨1, p.exponent⟩

/-- How the prefix is shown. -/
def symbol : MetricPrefix → String
  | .pico => "p"
  | .nano => "n"
  | .micro => "µ"
  | .milli => "m"
  | .one => ""
  | .kilo => "k"
  | .mega => "M"
  | .giga => "G"
  | .tera => "T"

/-- The prefix a character stands for. The micro sign, the Greek letter mu and the Latin letter u all
mean micro. -/
def ofChar? : Char → Option MetricPrefix
  | 'p' => some .pico
  | 'n' => some .nano
  | '\u00b5' | '\u03bc' | 'u' => some .micro
  | 'm' => some .milli
  | 'k' => some .kilo
  | 'M' => some .mega
  | 'G' => some .giga
  | 'T' => some .tera
  | _ => none

/-- All prefixes, the greatest first. -/
def descending : List MetricPrefix :=
  [.tera, .giga, .mega, .kilo, .one, .milli, .micro, .nano, .pico]

/-- **The prefix to show a value with.** What is smaller than the least prefix gets the least one. -/
def ofMagnitude (value : Binary64) : MetricPrefix :=
  let magnitude := (Binary64.abs value).roundSignificant 12
  (descending.find? fun p => decide (p.factor ≤ magnitude)).getD .pico

end MetricPrefix

end WorstCase
