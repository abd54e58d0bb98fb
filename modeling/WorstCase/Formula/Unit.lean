import WorstCase.Kind

/-!
# Units in literals

The one-character units that a number literal may end in, and the kind of quantity each denotes. The
ohm has two characters, the Greek letter omega and the ohm sign, which look the same.
-/

namespace WorstCase

/-- **A unit as it is typed after a number.** -/
inductive UnitSymbol where
  | volt | ampere | ohm | watt | joule | second | factor
  deriving DecidableEq, Repr

namespace UnitSymbol

/-- The unit a character stands for. -/
def ofChar? : Char → Option UnitSymbol
  | 'V' => some .volt
  | 'A' => some .ampere
  | '\u03a9' | '\u2126' => some .ohm
  | 'W' => some .watt
  | 'J' => some .joule
  | 's' => some .second
  | 'f' => some .factor
  | _ => none

/-- The character of the unit. -/
def symbol : UnitSymbol → Char
  | .volt => 'V'
  | .ampere => 'A'
  | .ohm => '\u03a9'
  | .watt => 'W'
  | .joule => 'J'
  | .second => 's'
  | .factor => 'f'

/-- The kind of quantity the unit is of. -/
def kind : UnitSymbol → Kind
  | .volt => .voltage
  | .ampere => .current
  | .ohm => .resistance
  | .watt => .power
  | .joule => .energy
  | .second => .time
  | .factor => .factor

@[simp] theorem ofChar?_symbol (u : UnitSymbol) : ofChar? u.symbol = some u := by
  cases u <;> rfl

end UnitSymbol

end WorstCase
