import WorstCase.Proofs.Formula.Tokens
import WorstCase.Proofs.Source.Slices

/-!
# Taking a magnitude apart

A magnitude is read forwards: a number, then a prefix, then a unit. It is taken apart backwards, by tests
of its last characters that are not the ones it was read with: whatever is no digit counts as a prefix, and
the dialect is not asked. What the prefix stands for is looked up in a table of its own.

Both ways come to the same (`MagnitudeParts.split_inverts_reading`). The number ends in a digit, and no
digit, prefix or unit is of another of these sorts, so that the last characters tell what they were read as
(`MagnitudeParts.split_text`). And every character that is read as a prefix stands for one
(`Lexeme.exists_metricPrefix`), so that a value is scaled if and only if a prefix was written.
-/

namespace WorstCase

open Lexeme (CharOf optionalText isUnitChar isPrefixChar Numeral Magnitude)

/-! ## The tables of prefixes -/

/-- **Every character that is read as a prefix stands for one**, in all dialects. -/
theorem Lexeme.exists_metricPrefix {dialect : Dialect} {c : Char} (h : isPrefixChar dialect c = true) :
    ∃ metric, MetricPrefix.ofChar? c = some metric ∧ metric ≠ .one := by
  have hall : prefixChars.all (fun c => (MetricPrefix.ofChar? c).any (· != .one)) = true := by decide
  have hany := List.all_eq_true.mp hall c (mem_prefixChars h)
  rw [Option.any_eq_true] at hany
  obtain ⟨metric, hmetric, hne⟩ := hany
  exact ⟨metric, hmetric, bne_iff_ne.mp hne⟩

/-- Only no prefix leaves a number as it is. -/
theorem MetricPrefix.factor_eq_one {metric : MetricPrefix} : metric.factor = 1 ↔ metric = .one := by
  cases metric <;> decide +kernel

/-- The extent of the end of a stretch stops where the stretch does, with the same blanks after it. -/
theorem Stretch.extent_behind (front more : List Char) (space : Blanks) (p : Position) :
    Stretch.extent ⟨more, space⟩ (p.after front)
      = ⟨⟨p.after front, p.after (front ++ more)⟩, (Stretch.extent ⟨front ++ more, space⟩ p).space⟩ := by
  show Extent.mk ⟨_, (p.after front).after more⟩
      ⟨(p.after front).after more, (p.after front).after (more ++ space.val)⟩
    = ⟨_, ⟨p.after (front ++ more), p.after (front ++ more ++ space.val)⟩⟩
  rw [← Position.after_append, ← Position.after_append, List.append_assoc]

/-! ## Parts that were matched -/

namespace MagnitudeParts

/-- The parts, one after the other. -/
def text (parts : MagnitudeParts) : List Char :=
  parts.number ++ parts.metric.toList ++ parts.unit.toList

/-- **The parts are those that a text starts with**, as they are read: a number, then a prefix if one is
next, and then a unit if one is next. -/
def MatchedIn (dialect : Dialect) (parts : MagnitudeParts) (cs rest : List Char) : Prop :=
  ∃ suffix afterMetric,
    Lexeme.number cs = .found parts.number suffix
      ∧ Lexeme.optional (isPrefixChar dialect) suffix = (parts.metric.toList, afterMetric)
      ∧ Lexeme.optional isUnitChar afterMetric = (parts.unit.toList, rest)

/-- The text of a character that may be left out, as a list. -/
theorem toList_map_val {p : Char → Bool} (o : Option (CharOf p)) :
    (o.map Subtype.val).toList = optionalText o := by
  cases o <;> rfl

namespace MatchedIn

variable {dialect : Dialect} {parts : MagnitudeParts} {cs rest : List Char}

/-- What was matched as a prefix is read as one. -/
theorem isPrefixChar (h : parts.MatchedIn dialect cs rest) {c : Char} (hc : parts.metric = some c) :
    Lexeme.isPrefixChar dialect c = true := by
  obtain ⟨suffix, afterMetric, -, hmetric, -⟩ := h
  obtain ⟨metric, htext⟩ := Lexeme.exists_optionalText (Lexeme.isPrefixChar dialect) suffix
  rw [hmetric, hc] at htext
  cases metric with
  | none => cases htext
  | some d =>
    cases htext
    exact d.property

/-- **A prefix that was matched is the one the number is scaled by**, and it scales it. -/
theorem exists_metricPrefix (h : parts.MatchedIn dialect cs rest) {c : Char}
    (hc : parts.metric = some c) :
    ∃ metric, MetricPrefix.ofChar? c = some metric ∧ metric ≠ .one
      ∧ Literal.prefixFactor parts = metric.factor := by
  obtain ⟨metric, hmetric, hne⟩ := Lexeme.exists_metricPrefix (h.isPrefixChar hc)
  refine ⟨metric, hmetric, hne, ?_⟩
  rw [Literal.prefixFactor, hc, Option.bind_some, hmetric, Option.getD_some]

/-- **A number is not scaled only if no prefix was matched.** -/
theorem prefixFactor_eq_one (h : parts.MatchedIn dialect cs rest) :
    Literal.prefixFactor parts = 1 ↔ parts.metric = none := by
  cases hc : parts.metric with
  | none =>
    rw [Literal.prefixFactor, hc]
    exact iff_of_true (MetricPrefix.factor_eq_one.mpr rfl) rfl
  | some c =>
    obtain ⟨metric, -, hne, hfactor⟩ := h.exists_metricPrefix hc
    rw [hfactor, MetricPrefix.factor_eq_one]
    exact iff_of_false hne (Option.some_ne_none c)

end MatchedIn

/-- **A magnitude that is found is taken apart as it was matched.** -/
theorem exists_matchedIn {dialect : Dialect} {cs lexeme rest : List Char}
    (h : Lexeme.magnitude dialect cs = .found lexeme rest) :
    ∃ m : Magnitude dialect, m.text = lexeme ∧ (split m.text).MatchedIn dialect cs rest := by
  unfold Lexeme.magnitude at h
  generalize hscan : Lexeme.number cs = s at h
  cases s with
  | absent => cases h
  | broken => cases h
  | found digits suffix =>
    cases h
    obtain ⟨number, rfl, -⟩ := Lexeme.number_spells.found hscan
    obtain ⟨metric, hmetric⟩ := Lexeme.exists_optionalText (isPrefixChar dialect) suffix
    obtain ⟨unit, hunit⟩ := Lexeme.exists_optionalText isUnitChar
      (Lexeme.optional (isPrefixChar dialect) suffix).2
    refine ⟨⟨number, metric, unit⟩, ?_, ?_⟩
    · show number.text ++ (optionalText metric ++ optionalText unit) = _
      rw [hmetric, hunit]
      rfl
    · rw [split_text]
      refine ⟨suffix, _, hscan, Prod.ext ?_ rfl, Prod.ext ?_ rfl⟩
      · rw [toList_map_val, hmetric]
      · rw [toList_map_val, hunit]

/-- The token of a magnitude is the magnitude that was matched, with the blanks after it. -/
theorem exists_matchedIn_token {dialect : Dialect} {c next : Cursor} {t : Token}
    (h : c.token (Lexeme.magnitude dialect) = .ok (some (t, next))) :
    ∃ (x : Spaced (Magnitude dialect)) (rest : List Char),
      t = (x.stretch Magnitude.text).token c.position ∧ c.rest = x.value.text ++ rest
        ∧ (split x.value.text).MatchedIn dialect c.rest rest := by
  unfold Cursor.token at h
  generalize hscan : Lexeme.magnitude dialect c.rest = s at h
  cases s with
  | absent => cases h
  | broken => cases h
  | found lexeme rest =>
    obtain ⟨m, rfl, hmatched⟩ := exists_matchedIn hscan
    have hrest : c.rest = m.text ++ rest := (Lexeme.magnitude_found hscan).1.symm
    obtain ⟨space, htoken, -⟩ := Cursor.accept_reads m.text hrest
    have hboth := Option.some.inj (Except.ok.inj h)
    exact ⟨⟨m, space⟩, rest, (congrArg Prod.fst hboth).symm.trans htoken, hrest, hmatched⟩

/-! ## Splitting inverts reading -/

/-- **Splitting a magnitude inverts reading it.** Take a text, and any place in it where a magnitude is
read as a token. The parts that its lexeme is split into are the number, the prefix and the unit that were
matched there, each of the last two if and only if there was one, and they are the whole lexeme. The number
is a sign, digits, a decimal part and an exponent, of which only the first digits must be there. A prefix
stands for one of the prefixes of the table, and the number is multiplied by one if and only if there is
none. A unit stands for one of the units, and the span of its node is the character of the unit at the end
of the lexeme, and nothing else. -/
theorem split_inverts_reading {dialect : Dialect} {before cs : List Char} {t : Token} {next : Cursor}
    (h : (Cursor.mk (Position.start.after before) cs).token (Lexeme.magnitude dialect)
      = .ok (some (t, next))) :
    ∃ parts rest, parts.MatchedIn dialect cs rest ∧ cs = t.text ++ rest ∧ t.text = parts.text
      ∧ split t.text = parts
      ∧ (∃ n : Numeral, n.text = parts.number)
      ∧ (∀ c, parts.metric = some c → ∃ metric, MetricPrefix.ofChar? c = some metric
        ∧ Literal.prefixFactor parts = metric.factor)
      ∧ (Literal.prefixFactor parts = 1 ↔ parts.metric = none)
      ∧ (parts.unit = none → Literal.unitNode t parts = none)
      ∧ ∀ c, parts.unit = some c → ∃ node, Literal.unitNode t parts = some node
        ∧ UnitSymbol.ofChar? c = some node.value
        ∧ node.extent = ⟨⟨t.span.start.after (parts.number ++ parts.metric.toList), t.span.stop⟩,
          t.extent.space⟩
        ∧ node.extent.span.textIn (before ++ cs) = some [c] := by
  obtain ⟨x, rest, rfl, hrest, hmatched⟩ := exists_matchedIn_token h
  have hunit := Literal.unitNode_token x (Position.start.after before)
  have htext : x.value.text = (split x.value.text).text := by
    rw [split_text, text, toList_map_val, toList_map_val, List.append_assoc]
    rfl
  refine ⟨split x.value.text, rest, hmatched, hrest, htext, rfl,
    ⟨x.value.number, by rw [split_text]⟩, fun c hc => ?_, hmatched.prefixFactor_eq_one,
    fun hnone => ?_, fun c hc => ?_⟩
  · obtain ⟨metric, hmetric, -, hfactor⟩ := hmatched.exists_metricPrefix hc
    exact ⟨metric, hmetric, hfactor⟩
  · rw [split_text, Option.map_eq_none_iff] at hnone
    rw [hunit, hnone, Option.map_none]
  · rw [split_text] at hc
    obtain ⟨u, hu, rfl⟩ := Option.map_eq_some_iff.mp hc
    rw [hu, Option.map_some] at hunit
    have hfront : (split x.value.text).number ++ (split x.value.text).metric.toList
        = x.value.number.text ++ optionalText x.value.metric := by
      rw [split_text, toList_map_val]
    have hvalue : x.value.text = x.value.number.text ++ optionalText x.value.metric ++ [u.val] := by
      rw [Magnitude.text, hu, List.append_assoc]
      rfl
    generalize x.value.number.text ++ optionalText x.value.metric = front at hunit hfront hvalue
    have hextent := Stretch.extent_behind front [u.val] x.space (Position.start.after before)
    rw [← hvalue] at hextent
    refine ⟨_, hunit, (Option.some_get u.property).symm, ?_, ?_⟩
    · rw [hfront]
      exact hextent
    · -- the character stands behind `before` and the front of the lexeme
      have hpiece : before ++ front ++ [u.val] <+: before ++ cs := by
        rw [List.append_assoc, ← hvalue, List.prefix_append_right_inj]
        exact ⟨rest, hrest.symm⟩
      have hspan := Span.textIn_after hpiece
      rw [List.append_assoc before, ← hvalue, Position.after_append, Position.after_append] at hspan
      show (Stretch.extent ⟨[u.val], x.space⟩ _).span.textIn (before ++ cs) = _
      rw [hextent]
      exact hspan

/-- The magnitude of `4.7kΩ 1%`, behind `1V + `. -/
theorem split_inverts_reading_kiloohm :
    ∃ t next, (Cursor.mk (Position.start.after "1V + ".toList) "4.7kΩ 1%".toList).token
        (Lexeme.magnitude {}) = .ok (some (t, next))
      ∧ split t.text = ⟨"4.7".toList, some 'k', some 'Ω'⟩
      ∧ ∃ node, Literal.unitNode t (split t.text) = some node
        ∧ node.extent.span = ⟨⟨9, 1, 10⟩, ⟨11, 1, 12⟩⟩
        ∧ node.extent.span.textIn "1V + 4.7kΩ 1%".toList = some ['Ω'] := by
  obtain ⟨t, next, h⟩ : ∃ t next,
      (Cursor.mk (Position.start.after "1V + ".toList) "4.7kΩ 1%".toList).token
        (Lexeme.magnitude {}) = .ok (some (t, next)) := ⟨_, _, rfl⟩
  obtain ⟨parts, rest, -, -, -, rfl, -, -, -, -, hunit⟩ := split_inverts_reading h
  have hparts : split t.text = ⟨"4.7".toList, some 'k', some 'Ω'⟩ := by
    cases h
    rfl
  obtain ⟨node, hnode, -, hextent, htext⟩ := hunit 'Ω' (by rw [hparts])
  refine ⟨t, next, h, hparts, node, hnode, ?_, htext⟩
  rw [hextent, hparts]
  cases h
  rfl

end MagnitudeParts

end WorstCase
