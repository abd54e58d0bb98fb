import WorstCase.Proofs.Formula.Reading
import WorstCase.Proofs.Source.Lines
import WorstCase.Proofs.Source.Slices

/-!
# The extents of a tree

Every extent in the tree of a written formula is that of a stretch of its text
(`Written.placed`). So it can be said of all extents at once what is true of a
stretch: the text between the ends of its span is the text of the stretch, the
blanks after it are where its space says, and where the text has no line end,
all of it is on one line.

The text of a formula never has a line end, since no lexeme has one.
-/

namespace WorstCase

open Lexeme (Numeral Magnitude Percentage Coefficient Name)

/-! ## All extents -/

section Extents

variable {S : Type}

/-- The extents of the parts of a literal that have nodes. -/
def Literal.extents (l : Literal S) : List Extent :=
  (l.unit.map Node.extent).toList ++ (l.tolerance.map Node.extent).toList
    ++ (l.coefficient.map Node.extent).toList

/-- **The extents of an expression**: its own, and those of all nodes in it. -/
def Expr.extents : Expr S → List Extent
  | .binary extent op left right => extent :: op.extent :: (left.extents ++ right.extents)
  | .power extent base exponent => extent :: exponent.extent :: base.extents
  | .atTemperature extent base degrees => extent :: degrees.extent :: base.extents
  | .group extent inner => extent :: inner.extents
  | .var extent _ => [extent]
  | .literal extent l => extent :: l.extents

/-- The extents of a statement. -/
def Statement.extents : Statement S → List Extent
  | .assign extent name value => extent :: name.extent :: value.extents
  | .expression value => value.extents

/-- An expression's own extent is one of them. -/
theorem Expr.extent_mem_extents (e : Expr S) : e.extent ∈ e.extents := by
  cases e <;> exact List.mem_cons_self

end Extents

/-! ## Extents of stretches -/

/-- **An extent of the text**: that of a stretch where the text has it. -/
def Extent.PlacedIn (text : List Char) (x : Extent) : Prop :=
  ∃ (before : List Char) (s : Stretch), before ++ s.text <+: text ∧ s.body ≠ []
    ∧ x = s.extent (Position.start.after before)

section Prefix

variable {α : Type} {text before piece more : List α}

/-- What comes first is there. -/
theorem prefix_first (h : before ++ (piece ++ more) <+: text) :
    before ++ piece <+: text := by
  rw [← List.append_assoc] at h
  exact (List.prefix_append _ _).trans h

/-- What comes next is behind it. -/
theorem prefix_next (h : before ++ (piece ++ more) <+: text) :
    (before ++ piece) ++ more <+: text := by
  rw [List.append_assoc]
  exact h

/-- Of three pieces each is where it stands. -/
theorem prefix_three {last : List α} (h : before ++ (piece ++ more ++ last) <+: text) :
    before ++ piece <+: text ∧ (before ++ piece) ++ more <+: text
      ∧ (before ++ (piece ++ more)) ++ last <+: text := by
  have hmore := prefix_first h
  exact ⟨prefix_first hmore, prefix_next hmore, prefix_next h⟩

end Prefix

variable {dialect : Dialect} {text before : List Char}

/-- A stretch of the text has an extent of the text. -/
theorem Stretch.placedIn {s : Stretch} (h : before ++ s.text <+: text)
    (hbody : s.body ≠ []) : (s.extent (Position.start.after before)).PlacedIn text :=
  ⟨before, s, h, hbody, rfl⟩

theorem degreesStretch_ne_nil (x : Spaced Numeral) (unit : Option Blanks) :
    (degreesStretch x unit).body ≠ [] := by
  cases unit with
  | none => exact x.value.ne_nil
  | some space => exact List.append_ne_nil_of_right_ne_nil _ (List.cons_ne_nil _ _)

namespace WrittenLiteral

theorem second_ne_nil (l : WrittenLiteral dialect) : l.second.body ≠ [] := by
  rw [second]
  cases l.tolerance with
  | none => exact l.magnitude.value.ne_nil
  | some t => exact List.append_ne_nil_of_right_ne_nil _ t.value.ne_nil

theorem stretch_ne_nil (l : WrittenLiteral dialect) : l.stretch.body ≠ [] := by
  rw [stretch]
  cases l.coefficient with
  | none => exact l.second_ne_nil
  | some x => exact List.append_ne_nil_of_right_ne_nil _ x.value.ne_nil

/-- The magnitude and the tolerance come first in a literal. -/
theorem prefix_second {l : WrittenLiteral dialect}
    (h : before ++ l.stretch.text <+: text) : before ++ l.second.text <+: text := by
  rw [stretch, Stretch.optional_text] at h
  exact prefix_first h

/-- The magnitude comes first. -/
theorem prefix_magnitude {l : WrittenLiteral dialect}
    (h : before ++ l.stretch.text <+: text) : before ++ l.first.text <+: text := by
  have hsecond := prefix_second h
  rw [second, Stretch.optional_text] at hsecond
  exact prefix_first hsecond

/-- The tolerance comes next, if there is one. -/
theorem prefix_tolerance {l : WrittenLiteral dialect} {t : Spaced Percentage}
    (h : before ++ l.stretch.text <+: text) (ht : l.tolerance = some t) :
    (before ++ l.first.text) ++ (t.stretch Percentage.text).text <+: text := by
  have hsecond := prefix_second h
  rw [second, ht, Stretch.optional_text] at hsecond
  exact prefix_next hsecond

/-- The coefficient comes last, if there is one. -/
theorem prefix_coefficient {l : WrittenLiteral dialect} {x : Spaced Coefficient}
    (h : before ++ l.stretch.text <+: text) (hx : l.coefficient = some x) :
    (before ++ l.second.text) ++ (x.stretch Coefficient.text).text <+: text := by
  rw [stretch, hx, Stretch.optional_text] at h
  exact prefix_next h

/-- The unit comes last in the magnitude, if there is one. -/
theorem prefix_unit {l : WrittenLiteral dialect} {c : Lexeme.CharOf Lexeme.isUnitChar}
    (h : before ++ l.stretch.text <+: text) (hc : l.magnitude.value.unit = some c) :
    (before ++ (l.magnitude.value.number.text
        ++ Lexeme.optionalText l.magnitude.value.metric))
      ++ Stretch.text ⟨[c.val], l.magnitude.space⟩ <+: text := by
  have hmagnitude := prefix_magnitude h
  have htext : l.first.text = l.magnitude.value.number.text
      ++ Lexeme.optionalText l.magnitude.value.metric
      ++ Stretch.text ⟨[c.val], l.magnitude.space⟩ := by
    show l.magnitude.value.text ++ l.magnitude.space.val = _
    rw [Magnitude.text, hc, Stretch.text]
    simp only [Lexeme.optionalText, List.append_assoc]
  rw [htext] at hmagnitude
  exact prefix_next hmagnitude

/-- **The parts of a literal have extents of the text.** -/
theorem placed {l : WrittenLiteral dialect} (h : before ++ l.stretch.text <+: text) :
    ∀ x ∈ (l.located (Position.start.after before)).extents, x.PlacedIn text := by
  intro x hx
  simp only [Literal.extents, located, Option.map_map, List.mem_append,
    Option.mem_toList, Option.map_eq_some_iff, Function.comp_apply,
    ← Position.after_append] at hx
  rcases hx with (⟨c, hc, rfl⟩ | ⟨t, ht, rfl⟩) | ⟨y, hy, rfl⟩
  · exact Stretch.placedIn (prefix_unit h hc) (List.cons_ne_nil _ _)
  · exact Stretch.placedIn (prefix_tolerance h ht) t.value.ne_nil
  · exact Stretch.placedIn (prefix_coefficient h hy) y.value.ne_nil

end WrittenLiteral

namespace Written

theorem stretch_ne_nil (w : Written dialect) : w.stretch.body ≠ [] := by
  cases w with
  | binary left op right =>
    exact List.append_ne_nil_of_right_ne_nil _ right.stretch_ne_nil
  | power base sign exponent h =>
    exact List.append_ne_nil_of_right_ne_nil _ exponent.value.ne_nil
  | atTemperature base sign degrees unit h =>
    exact List.append_ne_nil_of_right_ne_nil _ (degreesStretch_ne_nil degrees unit)
  | group opening inner closing =>
    exact List.append_ne_nil_of_right_ne_nil _ (List.cons_ne_nil _ _)
  | var name => exact name.value.ne_nil
  | literal l => exact l.stretch_ne_nil

/-- A written expression has an extent of the text. -/
theorem placed_extent {w : Written dialect} (h : before ++ w.text <+: text) :
    (w.stretch.extent (Position.start.after before)).PlacedIn text :=
  Stretch.placedIn h w.stretch_ne_nil

/-- **All extents of a written expression are extents of the text.** -/
theorem placed {w : Written dialect} (h : before ++ w.text <+: text) :
    ∀ x ∈ (w.located (Position.start.after before)).extents, x.PlacedIn text := by
  have hself := placed_extent h
  intro x hx
  induction w generalizing before with
  | binary left op right ihl ihr =>
    rw [text_binary] at h
    obtain ⟨hleft, hop, hright⟩ := prefix_three h
    simp only [located, Expr.extents, List.mem_cons, List.mem_append,
      ← Position.after_append] at hx
    rcases hx with rfl | rfl | hx | hx
    · exact hself
    · exact Stretch.placedIn hop op.value.lexeme_ne_nil
    · exact ihl hleft (placed_extent hleft) hx
    · exact ihr hright (placed_extent hright) hx
  | power base sign exponent hfinite ih =>
    rw [text_power] at h
    obtain ⟨hbase, -, hexponent⟩ := prefix_three h
    simp only [located, Expr.extents, List.mem_cons, ← Position.after_append] at hx
    rcases hx with rfl | rfl | hx
    · exact hself
    · exact Stretch.placedIn hexponent exponent.value.ne_nil
    · exact ih hbase (placed_extent hbase) hx
  | atTemperature base sign degrees unit hfinite ih =>
    rw [text_atTemperature] at h
    obtain ⟨hbase, -, hdegrees⟩ := prefix_three h
    simp only [located, Expr.extents, List.mem_cons, ← Position.after_append] at hx
    rcases hx with rfl | rfl | hx
    · exact hself
    · exact Stretch.placedIn hdegrees (degreesStretch_ne_nil degrees unit)
    · exact ih hbase (placed_extent hbase) hx
  | group opening inner closing ih =>
    rw [text_group] at h
    obtain ⟨-, hinner, -⟩ := prefix_three h
    simp only [located, Expr.extents, List.mem_cons, ← Position.after_append] at hx
    rcases hx with rfl | hx
    · exact hself
    · exact ih hinner (placed_extent hinner) hx
  | var name =>
    obtain rfl := List.mem_singleton.mp hx
    exact hself
  | literal l =>
    rcases List.mem_cons.mp hx with rfl | hx
    · exact hself
    · exact WrittenLiteral.placed h x hx

end Written

/-- The assignment or expression itself, and all in it, have extents of the
text. -/
theorem WrittenStatement.placed {w : WrittenStatement dialect}
    (h : before ++ w.text <+: text) :
    ∀ x ∈ (w.located (Position.start.after before)).extents, x.PlacedIn text := by
  intro x hx
  cases w with
  | expression e => exact Written.placed h x hx
  | assign name sign value =>
    have hself : ((assign name sign value).stretch.extent
        (Position.start.after before)).PlacedIn text :=
      Stretch.placedIn h (List.append_ne_nil_of_right_ne_nil _ value.stretch_ne_nil)
    rw [text_assign] at h
    obtain ⟨hname, -, hvalue⟩ := prefix_three h
    simp only [located, Statement.extents, List.mem_cons, ← Position.after_append] at hx
    rcases hx with rfl | rfl | hx
    · exact hself
    · exact Stretch.placedIn hname name.value.ne_nil
    · exact Written.placed hvalue x hx

/-! ## A formula is one line -/

theorem Blanks.oneLine (space : Blanks) : OneLine space.val := by
  intro hn
  have hblank := space.property _ hn
  cases hblank

theorem Lexeme.Solid.oneLine (h : Lexeme.Solid text) : OneLine text := h.not_newline

/-- A lexeme and its blanks are on one line. -/
theorem Spaced.oneLine {α : Type} (x : Spaced α) {spell : α → List Char}
    (h : Lexeme.Solid (spell x.value)) : OneLine (x.stretch spell).text :=
  h.oneLine.append x.space.oneLine

/-- A mark and its blanks are on one line. -/
theorem Blanks.oneLine_behind (space : Blanks) {mark : List Char} (h : OneLine mark) :
    OneLine (space.behind mark).text :=
  h.append space.oneLine

theorem BinaryOperator.solid_lexeme (op : BinaryOperator) : Lexeme.Solid op.lexeme := by
  cases op <;> decide

theorem WrittenLiteral.oneLine (l : WrittenLiteral dialect) : OneLine l.stretch.text := by
  rw [stretch, second, Stretch.optional_text, Stretch.optional_text]
  refine ((l.magnitude.oneLine l.magnitude.value.solid).append ?_).append ?_
  · cases l.tolerance with
    | none => exact List.not_mem_nil
    | some t => exact t.oneLine t.value.solid
  · cases l.coefficient with
    | none => exact List.not_mem_nil
    | some x => exact x.oneLine x.value.solid

theorem degreesStretch_oneLine (x : Spaced Numeral) (unit : Option Blanks) :
    OneLine (degreesStretch x unit).text := by
  have hnumber := x.oneLine x.value.solid
  cases unit with
  | none => exact hnumber
  | some space =>
    rw [degreesStretch, Stretch.append_text]
    exact hnumber.append (space.oneLine_behind (by decide))

/-- **A written expression is on one line.** -/
theorem Written.oneLine (w : Written dialect) : OneLine w.text := by
  induction w with
  | binary left op right ihl ihr =>
    rw [text_binary]
    exact (ihl.append (op.oneLine op.value.solid_lexeme)).append ihr
  | power base sign exponent h ih =>
    rw [text_power]
    exact (ih.append (sign.oneLine_behind (by decide))).append
      (exponent.oneLine exponent.value.solid)
  | atTemperature base sign degrees unit h ih =>
    rw [text_atTemperature]
    exact (ih.append (sign.oneLine_behind (by decide))).append
      (degreesStretch_oneLine degrees unit)
  | group opening inner closing ih =>
    rw [text_group]
    exact ((opening.oneLine_behind (by decide)).append ih).append
      (closing.oneLine_behind (by decide))
  | var name => exact name.oneLine name.value.solid
  | literal l => exact l.oneLine

theorem WrittenStatement.oneLine (w : WrittenStatement dialect) : OneLine w.text := by
  cases w with
  | expression e => exact e.oneLine
  | assign name sign value =>
    rw [text_assign]
    exact ((name.oneLine name.value.solid).append
      (sign.oneLine_behind (by decide))).append value.oneLine

end WorstCase
