import WorstCase.Proofs.Formula.Extents

/-!
# A syntax tree loses nothing of its text

The tree of an accepted formula keeps the whole text it was read from, to the
last blank. Every node has a span for its text and a space for the blanks after
it; the nodes inside a node follow each other without a gap, but for the marks
that have no node, which are the signs for powers, temperatures and
assignments and the brackets. So the text can be read off the tree again.

`Statement.Lossless` says this in full, `Statement.lossless` that it holds of
every tree that the reader gives. Nothing in it depends on how the tree came
about: it speaks of extents and of slices of the text alone. That it holds is
seen from the formula as it was written, whose tree the reader gives.
-/

namespace WorstCase

open Lexeme (Numeral Magnitude Percentage Coefficient Name)

/-! ## What it is to lose nothing -/

/-- A position on the first line, where the column is one more than the
offset. -/
def Position.OnFirstLine (p : Position) : Prop := p.line = 1 ∧ p.column = p.offset + 1

namespace Extent

/-- All four ends of an extent are on the first line. -/
def OnFirstLine (x : Extent) : Prop :=
  x.span.start.OnFirstLine ∧ x.span.stop.OnFirstLine
    ∧ x.space.start.OnFirstLine ∧ x.space.stop.OnFirstLine

/-- **The space starts where the span stops**, and has nothing but blanks in
it. -/
def EndsInBlanks (text : List Char) (x : Extent) : Prop :=
  x.space.start = x.span.stop ∧ ∃ space : Blanks, x.space.textIn text = some space.val

/-- The extent of a mark, with the blanks after it. -/
def IsMark (text mark : List Char) (x : Extent) : Prop :=
  x.span.textIn text = some mark ∧ x.EndsInBlanks text

/-- The extent of a token: there are no blanks in its text, only after it. -/
def IsToken (text : List Char) (x : Extent) : Prop :=
  ∃ token, Lexeme.Solid token ∧ x.IsMark text token

/-- **Parts fill an extent from a position on**: each starts where the space of
the part before it stops, and the last one ends as the whole does. -/
def Fills (whole : Extent) : Position → List Extent → Prop
  | _, [] => False
  | p, [x] => x.span.start = p ∧ x.span.stop = whole.span.stop ∧ x.space = whole.space
  | p, x :: y :: rest => x.span.start = p ∧ whole.Fills x.space.stop (y :: rest)

/-- **Parts tile an extent**: they fill it from its start. -/
def TiledBy (whole : Extent) (parts : List Extent) : Prop :=
  whole.Fills whole.span.start parts

end Extent

/-- The extents of the tolerance and of the coefficient of a literal. -/
def Literal.tail {S : Type} (l : Literal S) : List Extent :=
  (l.tolerance.map Node.extent).toList ++ (l.coefficient.map Node.extent).toList

/-- A unit stands at the end of a magnitude: it is the last character of it. -/
def Extent.EndsInUnit (text : List Char) (magnitude : Extent) (unit : Node UnitSymbol) :
    Prop :=
  unit.extent.span.stop = magnitude.span.stop ∧ unit.extent.space = magnitude.space
    ∧ ∃ c, unit.extent.span.textIn text = some [c]
      ∧ UnitSymbol.ofChar? c = some unit.value

/-- **The nodes in every node tile it**, together with the marks that have no
node. -/
def Expr.Tiled (text : List Char) : Expr Binary64 → Prop
  | .binary extent op left right =>
    extent.TiledBy [left.extent, op.extent, right.extent]
      ∧ op.extent.span.textIn text = some op.value.symbol.toList
      ∧ left.Tiled text ∧ right.Tiled text
  | .power extent base exponent =>
    (∃ mark : Extent, mark.IsMark text ['^']
      ∧ extent.TiledBy [base.extent, mark, exponent.extent]) ∧ base.Tiled text
  | .atTemperature extent base degrees =>
    (∃ mark : Extent, mark.IsMark text ['@']
      ∧ extent.TiledBy [base.extent, mark, degrees.extent]) ∧ base.Tiled text
  | .group extent inner =>
    (∃ opening closing : Extent, opening.IsMark text ['('] ∧ closing.IsMark text [')']
      ∧ extent.TiledBy [opening, inner.extent, closing]) ∧ inner.Tiled text
  | .var extent name => extent.span.textIn text = some name.toList
  | .literal extent l => ∃ magnitude : Extent,
      (∀ part ∈ magnitude :: l.tail, part.IsToken text)
      ∧ extent.TiledBy (magnitude :: l.tail)
      ∧ ∀ unit, l.unit = some unit → magnitude.EndsInUnit text unit

/-- The same for a statement. -/
def Statement.Tiled (text : List Char) : Statement Binary64 → Prop
  | .assign extent name value =>
    (∃ mark : Extent, mark.IsMark text ['=']
      ∧ extent.TiledBy [name.extent, mark, value.extent])
      ∧ name.extent.span.textIn text = some name.value.toList ∧ value.Tiled text
  | .expression value => value.Tiled text

section Reading

variable {S : Type}

/-- **The tree from left to right**: the spans of its leaves and of the blanks
after them, and what is between two nodes where a mark has no node. -/
def Expr.spans : Expr S → List Span
  | .binary _ op left right => left.spans ++ [op.extent.span, op.extent.space] ++ right.spans
  | .power _ base exponent =>
    base.spans ++ [⟨base.extent.space.stop, exponent.extent.span.start⟩,
      exponent.extent.span, exponent.extent.space]
  | .atTemperature _ base degrees =>
    base.spans ++ [⟨base.extent.space.stop, degrees.extent.span.start⟩,
      degrees.extent.span, degrees.extent.space]
  | .group extent inner =>
    [⟨extent.span.start, inner.extent.span.start⟩] ++ inner.spans
      ++ [⟨inner.extent.space.stop, extent.span.stop⟩, extent.space]
  | .var extent _ => [extent.span, extent.space]
  | .literal extent _ => [extent.span, extent.space]

/-- A statement from left to right. -/
def Statement.spans : Statement S → List Span
  | .assign _ name value =>
    [name.extent.span, name.extent.space,
      ⟨name.extent.space.stop, value.extent.span.start⟩] ++ value.spans
  | .expression value => value.spans

end Reading

/-- The text of spans, one after the other. -/
def Span.readAll (spans : List Span) (text : List Char) : Option (List Char) :=
  (spans.mapM (Span.textIn · text)).map List.flatten

/-- **A statement loses nothing of a text.** -/
structure Statement.Lossless (text : List Char) (s : Statement Binary64) : Prop where
  /-- All of it is on the first line. -/
  firstLine : ∀ x ∈ s.extents, x.OnFirstLine
  /-- Every node has its blanks directly after it. -/
  blanks : ∀ x ∈ s.extents, x.EndsInBlanks text
  /-- It starts behind the blanks that the text starts with. -/
  starts : s.extent.span.start = Position.start.after (text.takeWhile ParseFault.isBlank)
  /-- It ends where the text does. -/
  ends : s.extent.space.stop.offset = byteSize text
  /-- The nodes in every node tile it. -/
  tiled : s.Tiled text
  /-- Read from left to right, behind the first blanks, it is the text. -/
  reads : Span.readAll (⟨Position.start, s.extent.span.start⟩ :: s.spans) text = some text

/-! ## Why nothing is lost -/

variable {dialect : Dialect} {text before : List Char}

/-! ### Extents -/

/-- A position on the first line stays there where no line ends. -/
theorem Position.OnFirstLine.after {p : Position} (hp : p.OnFirstLine)
    (h : OneLine text) : (p.after text).OnFirstLine := by
  induction text generalizing p with
  | nil => exact hp
  | cons c text ih =>
    have hc : c ≠ '\n' := by
      rintro rfl
      exact h List.mem_cons_self
    have hnext : (p.next c).OnFirstLine := by
      unfold Position.next
      rw [if_neg hc]
      refine ⟨hp.1, ?_⟩
      show p.column + c.utf8Size = p.offset + c.utf8Size + 1
      rw [hp.2]
      omega
    exact ih hnext fun hn => h (List.mem_cons_of_mem c hn)

/-- **An extent of a text of one line is on the first line.** -/
theorem Extent.PlacedIn.onFirstLine {x : Extent} (h : x.PlacedIn text)
    (htext : OneLine text) : x.OnFirstLine := by
  obtain ⟨front, s, ⟨rest, rfl⟩, -, rfl⟩ := h
  have hfront : OneLine front := fun hn =>
    htext (List.mem_append_left _ (List.mem_append_left _ hn))
  have hs : OneLine s.text := fun hn =>
    htext (List.mem_append_left _ (List.mem_append_right _ hn))
  have hbody : OneLine s.body := fun hn => hs (List.mem_append_left _ hn)
  have hstart : Position.start.OnFirstLine := ⟨rfl, rfl⟩
  have hbefore := hstart.after hfront
  exact ⟨hbefore, hbefore.after hbody, hbefore.after hbody, hbefore.after hs⟩

/-- The text of a stretch is where its span is. -/
theorem Stretch.textIn_span {s : Stretch} (h : before ++ s.text <+: text) :
    (s.extent (Position.start.after before)).span.textIn text = some s.body := by
  have hbody := Span.textIn_after (prefix_first h)
  rw [Position.after_append] at hbody
  exact hbody

/-- The blanks of a stretch are where its space is. -/
theorem Stretch.textIn_space {s : Stretch} (h : before ++ s.text <+: text) :
    (s.extent (Position.start.after before)).space.textIn text = some s.space.val := by
  have hspace := Span.textIn_after (prefix_next h)
  rw [List.append_assoc, Position.after_append, Position.after_append] at hspace
  exact hspace

theorem Stretch.endsInBlanks {s : Stretch} (h : before ++ s.text <+: text) :
    (s.extent (Position.start.after before)).EndsInBlanks text :=
  ⟨rfl, s.space, s.textIn_space h⟩

theorem Stretch.isMark {s : Stretch} (h : before ++ s.text <+: text) :
    (s.extent (Position.start.after before)).IsMark text s.body :=
  ⟨s.textIn_span h, s.endsInBlanks h⟩

/-- An extent of a text ends in blanks. -/
theorem Extent.PlacedIn.endsInBlanks {x : Extent} (h : x.PlacedIn text) :
    x.EndsInBlanks text := by
  obtain ⟨front, s, hfront, -, rfl⟩ := h
  exact s.endsInBlanks hfront

/-! ### Tiles -/

/-- A stretch is tiled by itself. -/
theorem Stretch.tiledBy_self (s : Stretch) (p : Position) :
    (s.extent p).TiledBy [s.extent p] := ⟨rfl, rfl, rfl⟩

/-- Parts that fill a stretch, with one more, fill the two stretches. -/
theorem Stretch.fills_append {s : Stretch} {p q : Position} {parts : List Extent}
    (h : (s.extent p).Fills q parts) (t : Stretch) :
    ((s ++ t).extent p).Fills q (parts ++ [t.extent (p.after s.text)]) := by
  induction parts generalizing q with
  | nil => exact h.elim
  | cons x parts ih =>
    cases parts with
    | nil =>
      obtain ⟨hstart, -, hspace⟩ := h
      refine ⟨hstart, ?_, ?_, ?_⟩
      · rw [hspace]
        rfl
      · show (p.after s.text).after t.body = p.after (s.text ++ t.body)
        rw [Position.after_append]
      · show Span.mk ((p.after s.text).after t.body) ((p.after s.text).after t.text)
          = ⟨p.after (s ++ t).body, p.after (s ++ t).text⟩
        rw [append_body, append_text, Position.after_append, Position.after_append]
    | cons y rest => exact ⟨h.1, ih h.2⟩

/-- **Parts that tile a stretch, with one more, tile the two stretches.** -/
theorem Stretch.tiledBy_append {s : Stretch} {p : Position} {parts : List Extent}
    (h : (s.extent p).TiledBy parts) (t : Stretch) :
    ((s ++ t).extent p).TiledBy (parts ++ [t.extent (p.after s.text)]) :=
  s.fills_append h t

/-- Three stretches tile what they make up. -/
theorem Stretch.tiledBy_three (s t u : Stretch) (p : Position) :
    ((s ++ t ++ u).extent p).TiledBy
      [s.extent p, t.extent (p.after s.text), u.extent (p.after (s.text ++ t.text))] := by
  have h := tiledBy_append (tiledBy_append (s.tiledBy_self p) t) u
  rw [append_text] at h
  exact h

/-- Another stretch, if there is one, is another tile. -/
theorem Stretch.tiledBy_optional {s : Stretch} {p : Position} {parts : List Extent}
    (h : (s.extent p).TiledBy parts) (o : Option Stretch) :
    ((s.optional o).extent p).TiledBy
      (parts ++ (o.map fun t => t.extent (p.after s.text)).toList) := by
  cases o with
  | none =>
    rw [Option.map_none, Option.toList_none, List.append_nil]
    exact h
  | some t => exact tiledBy_append h t

/-- **The parts of a written literal tile it.** -/
theorem WrittenLiteral.tiled {l : WrittenLiteral dialect}
    (h : before ++ l.stretch.text <+: text) :
    ((Written.literal l).located (Position.start.after before)).Tiled text := by
  refine ⟨l.first.extent (Position.start.after before), ?_, ?_, ?_⟩
  · intro part hpart
    simp only [Literal.tail, located, Option.map_map, List.mem_cons, List.mem_append,
      Option.mem_toList, Option.map_eq_some_iff, Function.comp_apply,
      ← Position.after_append] at hpart
    rcases hpart with rfl | ⟨t, ht, rfl⟩ | ⟨x, hx, rfl⟩
    · exact ⟨_, l.magnitude.value.solid, Stretch.isMark (prefix_magnitude h)⟩
    · exact ⟨_, t.value.solid, Stretch.isMark (prefix_tolerance h ht)⟩
    · exact ⟨_, x.value.solid, Stretch.isMark (prefix_coefficient h hx)⟩
  · have htiles := Stretch.tiledBy_optional (Stretch.tiledBy_optional
      (l.first.tiledBy_self (Position.start.after before))
      (l.tolerance.map (Spaced.stretch · Percentage.text)))
      (l.coefficient.map (Spaced.stretch · Coefficient.text))
    rw [List.append_assoc, Option.map_map, Option.map_map] at htiles
    unfold Literal.tail located
    rw [Option.map_map, Option.map_map]
    exact htiles
  · intro unit hunit
    obtain ⟨c, hc, rfl⟩ := Option.map_eq_some_iff.mp hunit
    have htext := Stretch.textIn_span (prefix_unit h hc)
    rw [Position.after_append] at htext
    have hmagnitude : l.first.body = l.magnitude.value.number.text
        ++ Lexeme.optionalText l.magnitude.value.metric ++ [c.val] := by
      show l.magnitude.value.text = _
      rw [Magnitude.text, hc, List.append_assoc]
      rfl
    refine ⟨?_, ?_, c.val, htext, (Option.some_get c.property).symm⟩
    · show ((Position.start.after before).after _).after [c.val]
        = (Position.start.after before).after l.first.body
      rw [hmagnitude, Position.after_append _ _ [c.val]]
    · show Span.mk (((Position.start.after before).after _).after [c.val])
          (((Position.start.after before).after _).after ([c.val] ++ l.magnitude.space.val))
        = ⟨(Position.start.after before).after l.first.body,
          (Position.start.after before).after (l.first.body ++ l.magnitude.space.val)⟩
      rw [hmagnitude, Position.after_append _ _ [c.val], List.append_assoc _ [c.val],
        Position.after_append _ _ ([c.val] ++ _)]

/-- **The parts of a written expression tile it.** -/
theorem Written.tiled {w : Written dialect} (h : before ++ w.text <+: text) :
    (w.located (Position.start.after before)).Tiled text := by
  induction w generalizing before with
  | binary left op right ihl ihr =>
    rw [text_binary] at h
    obtain ⟨hleft, hop, hright⟩ := prefix_three h
    have hmark := Stretch.textIn_span hop
    have htiled := ihr hright
    rw [Position.after_append] at hmark htiled
    refine ⟨?_, ?_, ihl hleft, htiled⟩
    · rw [extent_located, extent_located]
      exact Stretch.tiledBy_three left.stretch _ right.stretch _
    · rw [BinaryOperator.toList_symbol]
      exact hmark
  | power base sign exponent hfinite ih =>
    rw [text_power] at h
    obtain ⟨hbase, hsign, -⟩ := prefix_three h
    have hmark := Stretch.isMark hsign
    rw [Position.after_append] at hmark
    refine ⟨⟨_, hmark, ?_⟩, ih hbase⟩
    rw [extent_located]
    exact Stretch.tiledBy_three base.stretch _ (exponent.stretch Numeral.text) _
  | atTemperature base sign degrees unit hfinite ih =>
    rw [text_atTemperature] at h
    obtain ⟨hbase, hsign, -⟩ := prefix_three h
    have hmark := Stretch.isMark hsign
    rw [Position.after_append] at hmark
    refine ⟨⟨_, hmark, ?_⟩, ih hbase⟩
    rw [extent_located]
    exact Stretch.tiledBy_three base.stretch _ (degreesStretch degrees unit) _
  | group opening inner closing ih =>
    rw [text_group] at h
    obtain ⟨hopening, hinner, hclosing⟩ := prefix_three h
    have hmark := Stretch.isMark hclosing
    have htiled := ih hinner
    rw [Position.after_append] at hmark htiled
    refine ⟨⟨_, _, Stretch.isMark hopening, hmark, ?_⟩, htiled⟩
    rw [extent_located]
    exact Stretch.tiledBy_three (opening.behind ['(']) inner.stretch _ _
  | var name =>
    have hname := Stretch.textIn_span h
    show _ = some (String.ofList name.value.text).toList
    rw [String.toList_ofList]
    exact hname
  | literal l => exact WrittenLiteral.tiled h

/-- **The parts of a written statement tile it.** -/
theorem WrittenStatement.tiled {w : WrittenStatement dialect}
    (h : before ++ w.text <+: text) :
    (w.located (Position.start.after before)).Tiled text := by
  cases w with
  | expression e => exact Written.tiled h
  | assign name sign value =>
    rw [text_assign] at h
    obtain ⟨hname, hsign, hvalue⟩ := prefix_three h
    have hmark := Stretch.isMark hsign
    have htiled := Written.tiled hvalue
    rw [Position.after_append] at hmark htiled
    refine ⟨⟨_, hmark, ?_⟩, ?_, htiled⟩
    · rw [Written.extent_located]
      exact Stretch.tiledBy_three (name.stretch Name.text) _ value.stretch _
    · show _ = some (String.ofList name.value.text).toList
      rw [String.toList_ofList]
      exact Stretch.textIn_span hname

/-! ### From left to right -/

namespace Span

variable {spans more : List Span} {piece next : List Char}

/-- What is read in two parts is read. -/
theorem readAll_append (h : readAll spans text = some piece)
    (hmore : readAll more text = some next) :
    readAll (spans ++ more) text = some (piece ++ next) := by
  obtain ⟨xs, hxs, rfl⟩ := Option.map_eq_some_iff.mp h
  obtain ⟨ys, hys, rfl⟩ := Option.map_eq_some_iff.mp hmore
  unfold readAll
  rw [List.mapM_append, hxs, hys, ← List.flatten_append]
  rfl

theorem readAll_cons {span : Span} (h : span.textIn text = some piece)
    (hmore : readAll more text = some next) :
    readAll (span :: more) text = some (piece ++ next) := by
  have hspan : readAll [span] text = some piece := by
    unfold readAll
    rw [List.mapM_cons, h]
    exact congrArg some (List.append_nil piece)
  exact readAll_append hspan hmore

/-- What is between two positions is read. -/
theorem textIn_between (h : before ++ piece <+: text) :
    Span.textIn ⟨Position.start.after before, (Position.start.after before).after piece⟩ text
      = some piece := by
  rw [← Position.after_append]
  exact textIn_after h

end Span

/-- A stretch is read by its text and its blanks. -/
theorem Stretch.readAll_extent {s : Stretch} (h : before ++ s.text <+: text) :
    Span.readAll [(s.extent (Position.start.after before)).span,
      (s.extent (Position.start.after before)).space] text = some s.text := by
  have hread := Span.readAll_cons (textIn_span h)
    (Span.readAll_cons (textIn_space h) (show Span.readAll [] text = some [] from rfl))
  rw [List.append_nil] at hread
  exact hread

/-- Behind an expression, a mark without a node and the stretch after it are
read. -/
theorem Written.readAll_marked {base : Written dialect} {mark s : Stretch}
    (hbase : Span.readAll (base.located (Position.start.after before)).spans text
      = some base.text)
    (hmark : (before ++ base.text) ++ mark.text <+: text)
    (hs : (before ++ (base.text ++ mark.text)) ++ s.text <+: text) :
    let x := s.extent ((Position.start.after before).after (base.text ++ mark.text))
    Span.readAll ((base.located (Position.start.after before)).spans
        ++ [⟨(base.located (Position.start.after before)).extent.space.stop, x.span.start⟩,
          x.span, x.space]) text
      = some ((base.text ++ mark.text) ++ s.text) := by
  intro x
  have hbetween := Span.textIn_between hmark
  rw [Position.after_append, ← Position.after_append (Position.start.after before)] at hbetween
  have hlast := Stretch.readAll_extent hs
  rw [Position.after_append] at hlast
  rw [extent_located, List.append_assoc]
  exact Span.readAll_append hbase (Span.readAll_cons hbetween hlast)

/-- **A written expression is read from left to right.** -/
theorem Written.reads {w : Written dialect} (h : before ++ w.text <+: text) :
    Span.readAll (w.located (Position.start.after before)).spans text = some w.text := by
  induction w generalizing before with
  | binary left op right ihl ihr =>
    rw [text_binary] at h ⊢
    obtain ⟨hleft, hop, hright⟩ := prefix_three h
    have hmark := Stretch.readAll_extent hop
    have hlast := ihr hright
    rw [Position.after_append] at hmark hlast
    exact Span.readAll_append (Span.readAll_append (ihl hleft) hmark) hlast
  | power base sign exponent hfinite ih =>
    rw [text_power] at h ⊢
    obtain ⟨hbase, hsign, hexponent⟩ := prefix_three h
    exact readAll_marked (ih hbase) hsign hexponent
  | atTemperature base sign degrees unit hfinite ih =>
    rw [text_atTemperature] at h ⊢
    obtain ⟨hbase, hsign, hdegrees⟩ := prefix_three h
    exact readAll_marked (ih hbase) hsign hdegrees
  | group opening inner closing ih =>
    rw [text_group] at h ⊢
    obtain ⟨hopening, hinner, hclosing⟩ := prefix_three h
    have hfirst := Span.readAll_cons (Span.textIn_between hopening)
      (show Span.readAll [] text = some [] from rfl)
    have hlast := Stretch.readAll_extent hclosing
    have hin := ih hinner
    rw [Position.after_append] at hin hlast
    rw [Position.after_append _ (opening.behind ['(']).text] at hlast
    rw [List.append_nil] at hfirst
    rw [located_group, Position.after_append _ (opening.behind ['(']).text]
    unfold Expr.spans
    rw [extent_located]
    exact Span.readAll_append (Span.readAll_append hfirst hin) hlast
  | var name => exact Stretch.readAll_extent h
  | literal l => exact Stretch.readAll_extent h

/-- **A written statement is read from left to right.** -/
theorem WrittenStatement.reads {w : WrittenStatement dialect}
    (h : before ++ w.text <+: text) :
    Span.readAll (w.located (Position.start.after before)).spans text = some w.text := by
  cases w with
  | expression e => exact Written.reads h
  | assign name sign value =>
    rw [text_assign] at h ⊢
    obtain ⟨hname, hsign, hvalue⟩ := prefix_three h
    have hmark := Span.textIn_between hsign
    have hlast := Written.reads hvalue
    rw [Position.after_append] at hmark hlast
    rw [← Position.after_append (Position.start.after before)] at hmark
    have hread := Span.readAll_append (Stretch.readAll_extent hname)
      (Span.readAll_cons hmark hlast)
    rw [List.append_assoc]
    show Span.readAll ([_, _, ⟨_, (value.located _).extent.span.start⟩] ++ _) text = _
    rw [Written.extent_located]
    exact hread

/-- **The tree of a written statement loses nothing** of the text that has
blanks before the statement. -/
theorem WrittenStatement.lossless_located (w : WrittenStatement dialect) (lead : Blanks)
    (htext : text = lead.val ++ w.text) :
    (w.located (Position.start.after lead.val)).Lossless text := by
  have hfront : lead.val ++ w.text <+: text := htext ▸ List.prefix_rfl
  have hline : OneLine text := htext ▸ lead.oneLine.append w.oneLine
  have hblanks : text.takeWhile ParseFault.isBlank = lead.val := by
    have hstops := w.stops_isBlank []
    rw [List.append_nil] at hstops
    rw [htext]
    exact Lexeme.takeWhile_append lead.property hstops
  have hlead : Span.textIn ⟨Position.start, Position.start.after lead.val⟩ text
      = some lead.val := @Span.textIn_after text [] lead.val (prefix_first hfront)
  refine ⟨fun x hx => (WrittenStatement.placed hfront x hx).onFirstLine hline,
    fun x hx => (WrittenStatement.placed hfront x hx).endsInBlanks, ?_, ?_,
    WrittenStatement.tiled hfront, ?_⟩
  · rw [extent_located, hblanks]
    rfl
  · rw [extent_located]
    show ((Position.start.after lead.val).after w.text).offset = byteSize text
    rw [← Position.after_append, ← htext, Position.offset_after]
    exact Nat.zero_add _
  · rw [extent_located]
    exact (Span.readAll_cons hlead (WrittenStatement.reads hfront)).trans
      (congrArg some htext.symm)

/-- **A syntax tree loses nothing of its text.** Whatever expression or
statement the reader gives for a text, in every dialect: all positions are on
the first line, every node has its blanks directly after it, the tree spans the
text behind its first blanks, the nodes in every node tile it, and read from
left to right the tree is the text. -/
theorem Statement.lossless (dialect : Dialect) (text : List Char) :
    (∀ e, parseExpression dialect text = .ok e → (Statement.expression e).Lossless text)
      ∧ ∀ s, parseStatement dialect text = .ok s → s.Lossless text := by
  constructor
  · intro e h
    obtain ⟨lead, w, htext, rfl⟩ := parseExpression_written h
    exact (WrittenStatement.expression w).lossless_located lead htext
  · intro s h
    obtain ⟨lead, w, htext, rfl⟩ := parseStatement_written h
    exact w.lossless_located lead htext

/-- An expression with blanks of all sorts in it, and an assignment of it. -/
theorem Statement.lossless_spaced :
    (∃ e, parseExpression {} " (r1\t| 4.7kΩ 5% -50ppm ) ^ 2 @ 60 °C".toList = .ok e
        ∧ (Statement.expression e).Lossless
          " (r1\t| 4.7kΩ 5% -50ppm ) ^ 2 @ 60 °C".toList)
      ∧ ∃ s, parseStatement {} "\tp = (r1\t| 4.7kΩ 5%) ^ 2 ".toList = .ok s
        ∧ s.Lossless "\tp = (r1\t| 4.7kΩ 5%) ^ 2 ".toList := by
  constructor
  · have hok : (parseExpression {} " (r1\t| 4.7kΩ 5% -50ppm ) ^ 2 @ 60 °C".toList).isOk
        = true := by decide +kernel
    cases h : parseExpression {} " (r1\t| 4.7kΩ 5% -50ppm ) ^ 2 @ 60 °C".toList with
    | error e => rw [h] at hok; cases hok
    | ok e => exact ⟨e, rfl, (Statement.lossless {} _).1 e h⟩
  · have hok : (parseStatement {} "\tp = (r1\t| 4.7kΩ 5%) ^ 2 ".toList).isOk = true := by
      decide +kernel
    cases h : parseStatement {} "\tp = (r1\t| 4.7kΩ 5%) ^ 2 ".toList with
    | error e => rw [h] at hok; cases hok
    | ok s => exact ⟨s, rfl, (Statement.lossless {} _).2 s h⟩

end WorstCase
