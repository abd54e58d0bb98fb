import WorstCase.Proofs.Formula.Alongside
import WorstCase.Proofs.Formula.AsciiMicro

/-!
# Micro signs for the letter u

The prefix u of a literal may be replaced by a micro sign. The two texts are then the same up to the
character that is replaced, and the same behind it. The reader goes along both: as long as the character is
ahead, it takes the same from either (`Swapped`), since neither a mark nor a blank is there; at the literal
it takes the same magnitude, however its prefix is spelt; and from then on the texts that are left are the
same (`SameRest`).

A letter u elsewhere may be a letter of a name, where a micro sign cannot stand. But a literal that is still
to come lies ahead of all that was read, so no name before it reaches as far as its prefix.
-/

namespace WorstCase

open Lexeme (Stops StopsAtMarks Spells Solid Numeral Magnitude CharOf isMarkChar isUnitChar isPrefixChar
  isNameChar stops_cons stops_nil)

/-- **The micro sign, and the Greek letter mu**, which looks the same. -/
def microSigns : List Char := ['\u00b5', '\u03bc']

/-- Cursors in two texts, one with the letter u and the other with another character in the same place,
which is still ahead. -/
def Swapped (m : Char) (back : List Char) (c d : Cursor) : Prop :=
  ∃ front, c.rest = front ++ 'u' :: back ∧ d.rest = front ++ m :: back

/-- Cursors that have the same text left. -/
def SameRest (c d : Cursor) : Prop := c.rest = d.rest

/-! ## Micro signs -/

section Characters

variable {m : Char}

theorem isMarkChar_microSign (hm : m ∈ microSigns) : isMarkChar m = false :=
  Lexeme.eq_false_of_any (show microSigns.any isMarkChar = false by decide) hm

theorem isBlank_microSign (hm : m ∈ microSigns) : ParseFault.isBlank m = false :=
  Lexeme.eq_false_of_any (show microSigns.any ParseFault.isBlank = false by decide) hm

theorem isEquals_microSign (hm : m ∈ microSigns) : (m == '=') = false :=
  Lexeme.eq_false_of_any (show microSigns.any (· == '=') = false by decide) hm

theorem isUnitChar_microSign (hm : m ∈ microSigns) : isUnitChar m = false :=
  Lexeme.eq_false_of_any (show microSigns.any isUnitChar = false by decide) hm

theorem isNameChar_microSign (hm : m ∈ microSigns) : isNameChar m = false :=
  Lexeme.eq_false_of_any (show microSigns.any isNameChar = false by decide) hm

theorem isAlpha_microSign (hm : m ∈ microSigns) : m.isAlpha = false :=
  Lexeme.eq_false_of_any (show microSigns.any Char.isAlpha = false by decide) hm

theorem isPrefixChar_microSign (hm : m ∈ microSigns) : isPrefixChar .ascii m = true :=
  List.all_eq_true.mp (show microSigns.all (isPrefixChar .ascii) = true by decide) m hm

/-- **They stand for the same as the letter u.** -/
theorem ofChar?_microSign (hm : m ∈ microSigns) : MetricPrefix.ofChar? m = MetricPrefix.ofChar? 'u' :=
  eq_of_beq (List.all_eq_true.mp
    (show microSigns.all (MetricPrefix.ofChar? · == MetricPrefix.ofChar? 'u') = true by decide) m hm)

end Characters

/-! ## Scans -/

namespace Lexeme

variable {dialect : Dialect} {m : Char} {front rest more back : List Char}

/-- A suffix that starts before a character which is no unit ends before it. -/
theorem suffix_stops (hrest : rest ≠ []) (h : Stops isUnitChar more) :
    suffix dialect (rest ++ more) = ((suffix dialect rest).1, (suffix dialect rest).2 ++ more) := by
  obtain ⟨c, cs, rfl⟩ := List.exists_cons_of_ne_nil hrest
  have hmetric : optional (isPrefixChar dialect) (c :: cs ++ more)
      = ((optional (isPrefixChar dialect) (c :: cs)).1,
        (optional (isPrefixChar dialect) (c :: cs)).2 ++ more) := by
    rw [List.cons_append, optional, optional]
    split <;> rfl
  unfold suffix
  rw [hmetric]
  dsimp only
  rw [optional_stops h]

/-- **A magnitude ends before a character that is no mark and no unit**, unless all of the text before the
character is its number. -/
theorem magnitude_stops (hfront : ¬∃ n : Numeral, front = n.text) {c : Char}
    (hmark : isMarkChar c = false) (hunit : isUnitChar c = false) :
    magnitude dialect (front ++ c :: back) = (magnitude dialect front).followedBy (c :: back) := by
  unfold magnitude
  rw [number_stopsAtMarks front (c :: back) (stops_cons hmark)]
  cases hnumber : number front with
  | absent => rfl
  | broken => rfl
  | found digits rest =>
    obtain ⟨n, rfl, hwhole⟩ := number_spells.found hnumber
    have hrest : rest ≠ [] := by
      rintro rfl
      exact hfront ⟨n, by rw [hwhole, List.append_nil]⟩
    simp only [Scan.followedBy, Scan.extend, suffix_stops hrest (stops_cons hunit)]

/-- **A name before a letter u and before a micro sign** is the same, or goes on with the letter. -/
theorem name_swapped (hm : m ∈ microSigns) (front back : List Char) :
    (name (front ++ 'u' :: back)).Alike (name (front ++ m :: back))
      ∨ (∃ lexeme rest, name (front ++ 'u' :: back) = .found lexeme rest
          ∧ rest.length ≤ back.length)
        ∧ (name (front ++ m :: back) = .absent
          ∨ name (front ++ m :: back) = .found front (m :: back)) := by
  have hstops : Stops isNameChar (m :: back) := stops_cons (isNameChar_microSign hm)
  cases front with
  | nil =>
    refine .inr ⟨⟨_, _, rfl, (List.dropWhile_sublist _).length_le⟩, .inl ?_⟩
    exact name_absent (stops_cons (isAlpha_microSign hm))
  | cons a front =>
    rw [List.cons_append, List.cons_append, name, name]
    by_cases ha : a.isAlpha = true
    · rw [if_pos ha, if_pos ha]
      by_cases hall : ∀ c ∈ front, isNameChar c = true
      · refine .inr ⟨⟨_, _, rfl, ?_⟩, .inr ?_⟩
        · rw [List.dropWhile_append_of_pos hall, List.dropWhile_cons_of_pos (by decide)]
          exact (List.dropWhile_sublist _).length_le
        · rw [takeWhile_append hall hstops, dropWhile_append hall hstops]
      · have hlength : (front.takeWhile isNameChar).length ≠ front.length := by
          intro hlength
          have hwhole := (List.takeWhile_prefix isNameChar).eq_of_length hlength
          exact hall (List.all_eq_true.mp (hwhole ▸ List.all_takeWhile))
        rw [List.takeWhile_append, if_neg hlength, List.takeWhile_append, if_neg hlength]
        exact .inl .found
    · rw [if_neg ha, if_neg ha]
      exact .inl .absent

end Lexeme

/-! ## Cursors -/

section Cursors

variable {m : Char} {back : List Char} {c d : Cursor}

theorem swapped_behind (hm : m ≠ 'u') {front piece rest rest' : List Char}
    (hc : front ++ 'u' :: back = piece ++ rest) (hd : front ++ m :: back = piece ++ rest') :
    ∃ more, rest = more ++ 'u' :: back ∧ rest' = more ++ m :: back := by
  induction piece generalizing front with
  | nil => exact ⟨front, hc.symm, hd.symm⟩
  | cons a piece ih =>
    cases front with
    | nil => exact absurd ((List.cons.inj hd).1.trans (List.cons.inj hc).1.symm) hm
    | cons b front => exact ih (List.cons.inj hc).2 (List.cons.inj hd).2

theorem abreast_swapped (hm : m ∈ microSigns) (back : List Char) : Abreast (Swapped m back) where
  sameMarks := by
    rintro c d ⟨front, hc, hd⟩
    exact ⟨front, _, _, hc, hd, stops_cons (by decide), stops_cons (isMarkChar_microSign hm)⟩
  behind := by
    rintro c d piece rest rest' ⟨front, hc, hd⟩ hcrest hdrest -
    have hne : m ≠ 'u' := by
      rintro rfl
      exact absurd hm (by decide)
    exact swapped_behind hne (hc.symm.trans hcrest) (hd.symm.trans hdrest)
  skipBlanks := by
    rintro c d ⟨front, hc, hd⟩
    refine ⟨front.dropWhile ParseFault.isBlank, ?_, ?_⟩
    · show c.rest.dropWhile _ = _
      rw [hc, Lexeme.dropWhile_stops (stops_cons (by decide))]
    · show d.rest.dropWhile _ = _
      rw [hd, Lexeme.dropWhile_stops (stops_cons (isBlank_microSign hm))]

theorem alongside_sameRest : Alongside SameRest where
  respaced := by
    rintro c d h
    rw [show c.rest = d.rest from h]
    exact .refl _
  behind := by
    rintro c d piece rest rest' h hc hd -
    exact List.append_cancel_left (hc.symm.trans (Eq.trans h hd))
  skipBlanks h := congrArg (List.dropWhile ParseFault.isBlank) h

/-- Neither relation says anything of places. -/
theorem together_swapped (m : Char) (back : List Char) :
    Together (Swapped m back) = fun _ _ => True := by
  funext p q
  exact eq_true ⟨_, _, [], rfl, rfl⟩

theorem together_sameRest : Together SameRest = fun _ _ => True := by
  funext p q
  exact eq_true ⟨[], [], rfl⟩

end Cursors

/-! ## Operands -/

section Operands

variable {m : Char} {back : List Char} {c d : Cursor} {start start' : ParseFault}
  {R : Position → Position → Prop}

/-- Magnitudes of the same number, factor and unit are the same, wherever they stand. -/
theorem sameMagnitude_of {dialect : Dialect} {x y : Spaced (Magnitude dialect)} {p q : Position}
    (hR : ∀ p q, R p q) (hnumber : x.value.number = y.value.number)
    (hfactor : Lexeme.prefixFactor x.value.metric = Lexeme.prefixFactor y.value.metric)
    (hunit : x.value.unit = y.value.unit) :
    ((x.stretch Magnitude.text).token p).SameMagnitude R ((y.stretch Magnitude.text).token q) where
  extent := ⟨⟨hR _ _, hR _ _⟩, ⟨hR _ _, hR _ _⟩⟩
  number := by
    show (MagnitudeParts.split x.value.text).number = (MagnitudeParts.split y.value.text).number
    rw [MagnitudeParts.split_text, MagnitudeParts.split_text, hnumber]
  factor := by
    show Literal.prefixFactor (MagnitudeParts.split x.value.text)
      = Literal.prefixFactor (MagnitudeParts.split y.value.text)
    rw [Literal.prefixFactor_split, Literal.prefixFactor_split, hfactor]
  unit := by
    show Option.Rel _ (Literal.unitNode _ (MagnitudeParts.split x.value.text))
      (Literal.unitNode _ (MagnitudeParts.split y.value.text))
    rw [Literal.unitNode_token, Literal.unitNode_token, hunit]
    cases y.value.unit with
    | none => exact .none
    | some u => exact .some ⟨rfl, ⟨hR _ _, hR _ _⟩, ⟨hR _ _, hR _ _⟩⟩

/-- The token of a number with a prefix behind it. -/
theorem Cursor.token_of_prefix {n : Numeral} {u : CharOf (isPrefixChar .ascii)}
    {unit : Option (CharOf isUnitChar)} (hu : isMarkChar u.val = false)
    (hunit : Lexeme.optionalText unit = (Lexeme.optional isUnitChar back).1)
    (hc : c.rest = n.text ++ u.val :: back) :
    ∃ (space : Blanks) (next : Cursor),
      next.rest = (Lexeme.optional isUnitChar back).2.dropWhile ParseFault.isBlank
        ∧ c.token (Lexeme.magnitude .ascii) = .ok (some
          ((Spaced.stretch ⟨⟨n, some u, unit⟩, space⟩ Magnitude.text).token c.position, next)) := by
  have hstops : Stops Lexeme.isNumberChar (u.val :: back) :=
    Stops.mono (stops_cons hu) fun _ => Lexeme.isMarkChar_of_isNumberChar
  have hnumber : Lexeme.number c.rest = .found n.text (u.val :: back) := by
    rw [hc]
    exact Lexeme.number_spelt n hstops
  have hscan := Lexeme.magnitude_of_prefix u.property hnumber
  rw [← hunit] at hscan
  obtain ⟨space, htoken, -⟩ := Cursor.accept_reads _ (Lexeme.magnitude_found hscan).1.symm
  refine ⟨space, (c.accept (n.text ++ u.val :: Lexeme.optionalText unit)
    (Lexeme.optional isUnitChar back).2).2, rfl, ?_⟩
  unfold token
  rw [hscan]
  exact congrArg (fun t => Except.ok (some (t, _))) htoken

/-- **At the place of the prefix the literal is the same**, and the texts behind it are. -/
theorem literal_swapped_at (hm : m ∈ microSigns) {n : Numeral} (hc : c.rest = n.text ++ 'u' :: back)
    (hd : d.rest = n.text ++ m :: back) :
    Except.Rel (ParseError.Alike (Together SameRest) start start')
      (Option.Rel (ReadAlike (Expr.Alike (Together SameRest)) SameRest))
      (c.literal .ascii) (d.literal .ascii) := by
  refine alongside_sameRest.abreast.literal_of_magnitude ?_
  obtain ⟨unit, hunit⟩ := Lexeme.exists_optionalText isUnitChar back
  obtain ⟨space, next, hnext, hread⟩ :=
    Cursor.token_of_prefix (u := ⟨'u', rfl⟩) (by decide) hunit hc
  obtain ⟨space', next', hnext', hread'⟩ :=
    Cursor.token_of_prefix (u := ⟨m, isPrefixChar_microSign hm⟩) (isMarkChar_microSign hm) hunit hd
  rw [hread, hread']
  refine .ok (.some ⟨sameMagnitude_of ?_ rfl ?_ rfl, hnext.trans hnext'.symm⟩)
  · rw [together_sameRest]
    exact fun _ _ => trivial
  · show ((MetricPrefix.ofChar? 'u').getD .one).factor = ((MetricPrefix.ofChar? m).getD .one).factor
    rw [ofChar?_microSign hm]

/-- **Before it the literal is the same**, and the place is still ahead. -/
theorem literal_swapped (hm : m ∈ microSigns) (h : Swapped m back c d)
    (hbefore : ¬∃ n : Numeral, c.rest = n.text ++ 'u' :: back) :
    Except.Rel (ParseError.Alike (Together (Swapped m back)) start start')
      (Option.Rel (ReadAlike (Expr.Alike (Together (Swapped m back))) (Swapped m back)))
      (c.literal .ascii) (d.literal .ascii) := by
  have ha := abreast_swapped hm back
  obtain ⟨front, hc, hd⟩ := h
  have hfront : ¬∃ n : Numeral, front = n.text := by
    rintro ⟨n, rfl⟩
    exact hbefore ⟨n, hc⟩
  have hscan : (Lexeme.magnitude .ascii c.rest).Alike (Lexeme.magnitude .ascii d.rest) := by
    rw [hc, hd, Lexeme.magnitude_stops hfront (by decide) (by decide),
      Lexeme.magnitude_stops hfront (isMarkChar_microSign hm) (isUnitChar_microSign hm)]
    exact Scan.followedBy_alike _ _ _
  have hmagnitude : Except.Rel (ParseError.Alike (Together (Swapped m back)) start start') _ _ _ :=
    ha.token_of_scan hscan (Lexeme.magnitude_spells .ascii) Lexeme.Magnitude.solid ⟨front, hc, hd⟩
  refine ha.literal_of_magnitude (hmagnitude.mono id fun hsame => ?_)
  cases hsame with
  | none => exact .none
  | some hsame => exact .some ⟨hsame.result.sameMagnitude, hsame.cursor⟩

/-- **A name is the same, unless it goes on with the letter.** Then the letter is no longer ahead, and the
other text has no name there or one that ends at the micro sign. -/
theorem name_token_swapped (hm : m ∈ microSigns) (h : Swapped m back c d) :
    Except.Rel (ParseError.Alike (Together (Swapped m back)) start start')
        (Option.Rel (ReadAlike (Token.Alike (Together (Swapped m back))) (Swapped m back)))
        (c.token Lexeme.name) (d.token Lexeme.name)
      ∨ (∃ t next, c.token Lexeme.name = .ok (some (t, next)) ∧ next.rest.length ≤ back.length)
        ∧ (d.token Lexeme.name = .ok none
          ∨ ∃ t next, d.token Lexeme.name = .ok (some (t, next)) ∧ next.rest = m :: back) := by
  obtain ⟨front, hc, hd⟩ := h
  rcases Lexeme.name_swapped hm front back with hsame | ⟨⟨lexeme, rest, hfound, hle⟩, hother⟩
  · rw [← hc, ← hd] at hsame
    exact .inl ((abreast_swapped hm back).token_of_scan hsame Lexeme.name_spells Lexeme.Name.solid
      ⟨front, hc, hd⟩)
  · rw [← hc] at hfound
    rw [← hd] at hother
    refine .inr ⟨⟨_, _, by rw [Cursor.token, hfound], ?_⟩, hother.imp (fun h => ?_) fun h => ?_⟩
    · exact (c.accept_length_le lexeme rest).trans hle
    · exact Cursor.token_absent h
    · refine ⟨_, _, by rw [Cursor.token, h], ?_⟩
      exact List.dropWhile_cons_of_neg (by rw [isBlank_microSign hm]; exact Bool.false_ne_true)

end Operands

/-! ## Reading -/

section Reading

variable {m : Char} {front back before : List Char} {c d next : Cursor} {start start' : ParseFault}
  {p q : Progress} {e : Expr Binary64} {s : Span}

/-- **The step that reads the literal reads the same**, and the same text is left. -/
theorem step_swapped_at (hm : m ∈ microSigns) (hp : p.Alike (fun _ _ => True) q)
    (hnone : p.operand = none) {n : Numeral} (hc : c.rest = n.text ++ 'u' :: back)
    (hd : d.rest = n.text ++ m :: back) :
    StepAlike SameRest start start' (step .ascii start p c) (step .ascii start' q d) := by
  have hfound : c.literal .ascii ≠ .ok none := by
    obtain ⟨unit, hunit⟩ := Lexeme.exists_optionalText isUnitChar back
    obtain ⟨space, next, -, hread⟩ := Cursor.token_of_prefix (u := ⟨'u', rfl⟩) (by decide) hunit hc
    exact Cursor.literal_ne_none hread
  have hoperand : Except.Rel (ParseError.Alike (Together SameRest) start start') _ _ _ :=
    alongside_sameRest.abreast.operand_of_atom (fun h => absurd h hfound)
      (literal_swapped_at hm hc hd) fun h => absurd h hfound
  rw [← together_sameRest] at hp
  have hnone' : q.operand = none := by
    have hsame := hp.operand
    rw [hnone] at hsame
    cases hq : q.operand with
    | none => rfl
    | some x =>
      rw [hq] at hsame
      cases hsame
  unfold step
  rw [hnone, hnone']
  refine Abreast.stepOperand_of_operand hp ⟨c.position, d.position, ?_, rfl, rfl⟩ hoperand
  rw [together_sameRest]
  trivial

/-- **A step before it does the same**, as long as it leaves the letter ahead. -/
theorem step_swapped (hm : m ∈ microSigns) (hp : p.Alike (fun _ _ => True) q)
    (h : Swapped m back c d)
    (hbefore : ¬(p.operand = none ∧ ∃ n : Numeral, c.rest = n.text ++ 'u' :: back))
    (hahead : ∀ p₁ c₁, step .ascii start p c = .more p₁ c₁ → back.length < c₁.rest.length) :
    StepAlike (Swapped m back) start start' (step .ascii start p c) (step .ascii start' q d) := by
  have ha := abreast_swapped hm back
  rw [← together_swapped m back] at hp
  refine ha.step_of_operand hp h fun hnone => ?_
  refine ha.operand_of_atom (fun _ => h) (literal_swapped hm h fun hat => hbefore ⟨hnone, hat⟩)
    fun hliteral => ?_
  rcases name_token_swapped hm h with hsame | ⟨⟨t, next, htoken, hle⟩, -⟩
  · exact Abreast.var_of_name hsame
  · have hvar : c.var = .ok (some (.var t.extent (String.ofList t.text), next)) := by
      unfold Cursor.var
      rw [htoken]
      rfl
    have hoperand : c.operand .ascii
        = .ok (some (.atom (.var t.extent (String.ofList t.text)), next)) := by
      unfold Cursor.operand
      rw [hliteral, hvar]
      rfl
    exact absurd (hahead _ next (step_of_atom hnone hoperand)) (Nat.not_lt_of_le hle)

/-- A literal that is not read yet is in the text that is left, with all that comes behind it. -/
theorem length_lt_of_prefixed (hs : s.Prefixed front 'u' back)
    (hc : c.IsAt (front ++ 'u' :: back) before)
    (hread : readSteps .ascii start p c = .ok (e, next)) (hmem : s ∈ e.literals)
    (hnew : s ∉ p.literals) : back.length < c.rest.length := by
  obtain ⟨more, n, hrest, -⟩ := hc.prefixed_behind hs (readSteps_literal_behind hread hmem hnew)
  rw [hrest, List.length_append, List.length_cons]
  omega

/-- **The rest of the formula is read the same.** By induction on the steps, up to the one that reads the
literal. -/
theorem readSteps_swapped (hm : m ∈ microSigns) (hs : s.Prefixed front 'u' back)
    (hp : p.Alike (fun _ _ => True) q) (h : Swapped m back c d)
    (hc : c.IsAt (front ++ 'u' :: back) before)
    (hread : readSteps .ascii start p c = .ok (e, next)) (hmem : s ∈ e.literals)
    (hnew : s ∉ p.literals) :
    ∃ f next', readSteps .ascii start' q d = .ok (f, next') ∧ e.Alike (fun _ _ => True) f
      ∧ SameRest next next' := by
  induction p, c using readSteps.induct .ascii start generalizing q d before with
  | case1 p c p₁ c₁ hstep ih =>
    rw [readSteps_of_more hstep] at hread
    by_cases hat : p.operand = none ∧ ∃ n : Numeral, c.rest = n.text ++ 'u' :: back
    · obtain ⟨hnone, n, hcrest⟩ := hat
      obtain ⟨front', hcrest', hdrest⟩ := h
      obtain rfl : front' = n.text := List.append_cancel_right (hcrest'.symm.trans hcrest)
      have hsame : StepAlike SameRest start start' _ _ := step_swapped_at hm hp hnone hcrest hdrest
      rw [hstep] at hsame
      generalize hstep' : step .ascii start' q d = t at hsame
      cases hsame with
      | more hp₁ h₁ =>
        rw [readSteps_of_more hstep']
        have hrest : Except.Rel (ParseError.Alike (Together SameRest) start start') _ _ _ :=
          alongside_sameRest.readSteps .ascii hp₁ h₁
        rw [hread, together_sameRest] at hrest
        generalize readSteps .ascii start' _ _ = r at hrest ⊢
        cases hrest with
        | ok hrest => exact ⟨_, _, rfl, hrest.result, hrest.cursor⟩
    · obtain ⟨piece, hreads⟩ := step_reads hstep
      have hc₁ := hc.reads hreads
      have hnew₁ : s ∉ p₁.literals := by
        rcases step_literals hstep with hp₁ | ⟨x, hnone, hliteral, -, hp₁⟩
        · rwa [hp₁]
        · rw [hp₁, List.mem_append, List.mem_singleton]
          rintro (hold | rfl)
          · exact hnew hold
          -- the literal just read would have the letter behind its number
          · exact hat ⟨hnone, hc.prefixed_here hliteral hs⟩
      have hahead := length_lt_of_prefixed hs hc₁ hread hmem hnew₁
      have hsame : StepAlike (Swapped m back) start start' _ _ := step_swapped hm hp h hat
        fun p₂ c₂ hstep₂ => by
          cases hstep.symm.trans hstep₂
          exact hahead
      rw [hstep] at hsame
      generalize hstep' : step .ascii start' q d = t at hsame
      cases hsame with
      | more hp₁ h₁ =>
        rw [readSteps_of_more hstep']
        rw [together_swapped] at hp₁
        exact ih hp₁ h₁ hc₁ hread hnew₁
  | case2 p c x c₁ hstep =>
    rw [readSteps_of_done hstep] at hread
    cases hread
    rw [literals_of_step_done hstep] at hmem
    exact absurd hmem hnew
  | case3 p c err hstep =>
    rw [readSteps_of_failed hstep] at hread
    cases hread

/-- So is the whole of a formula. -/
theorem Cursor.expr_swapped (hm : m ∈ microSigns) (hs : s.Prefixed front 'u' back)
    (h : Swapped m back c d) (hc : c.IsAt (front ++ 'u' :: back) before)
    (hread : c.expr .ascii start = .ok (e, next)) (hmem : s ∈ e.literals) (start' : ParseFault) :
    ∃ f next', d.expr .ascii start' = .ok (f, next') ∧ e.Alike (fun _ _ => True) f
      ∧ SameRest next next' :=
  readSteps_swapped hm hs (p := {}) (q := {}) ⟨.empty, .nil, .none⟩ h hc hread hmem List.not_mem_nil

end Reading

/-! ## Whole texts -/

section Whole

variable {m : Char} {front back : List Char} {s : Span}

/-- An assignment has its sign behind its name. -/
theorem Cursor.assignment_length_le {c c₁ next : Cursor} {t name sign : Token}
    (htoken : c.token Lexeme.name = .ok (some (t, c₁)))
    (hread : c.assignment = .ok (some (name, sign, next))) : next.rest.length ≤ c₁.rest.length := by
  unfold assignment at hread
  obtain ⟨_, htoken', hread⟩ := Except.bind_eq_ok.mp hread
  cases htoken.symm.trans htoken'
  dsimp only at hread
  split at hread
  · rename_i rest hrest
    cases hread
    rw [hrest, List.length_cons]
    exact (accept_length_le c₁ ['='] rest).trans (Nat.le_succ _)
  · cases hread

/-- **An assignment before the letter is the same.** Where its name goes on with the letter, the other text
has no assignment. -/
theorem assignment_swapped {c d : Cursor} (hm : m ∈ microSigns) (h : Swapped m back c d)
    (start start' : ParseFault) :
    Except.Rel (ParseError.Alike (Together (Swapped m back)) start start')
        (Option.Rel fun r s => r.1.Alike (Together (Swapped m back)) s.1
          ∧ ReadAlike (Token.Alike (Together (Swapped m back))) (Swapped m back) r.2 s.2)
        c.assignment d.assignment
      ∨ (∀ name sign next, c.assignment = .ok (some (name, sign, next)) →
          next.rest.length ≤ back.length)
        ∧ d.assignment = .ok none := by
  rcases name_token_swapped hm h with hsame | ⟨⟨t, c₁, htoken, hle⟩, hother⟩
  · exact .inl ((abreast_swapped hm back).assignment_of_name hsame)
  · refine .inr ⟨fun name sign next hread => ?_, ?_⟩
    · exact (Cursor.assignment_length_le htoken hread).trans hle
    · rcases hother with hnone | ⟨t', d₁, htoken', hrest⟩
      · unfold Cursor.assignment
        rw [hnone]
        rfl
      · refine Cursor.assignment_of_stops htoken' ?_
        rw [hrest]
        exact stops_cons (isEquals_microSign hm)

/-- The texts with the letter and with a micro sign start so. -/
theorem swapped_ofText (hm : m ∈ microSigns) (front back : List Char) :
    Swapped m back (Cursor.ofText (front ++ 'u' :: back)) (Cursor.ofText (front ++ m :: back)) :=
  (abreast_swapped hm back).skipBlanks (c := ⟨.start, _⟩) (d := ⟨.start, _⟩) ⟨front, rfl, rfl⟩

/-- **The prefix u of a literal of an expression may be a micro sign.** -/
theorem parseExpression_microSign {t : Expr Binary64} (hm : m ∈ microSigns)
    (hs : s.Prefixed front 'u' back)
    (hread : parseExpression .ascii (front ++ 'u' :: back) = .ok t) (hmem : s ∈ t.literals) :
    ∃ t', parseExpression .ascii (front ++ m :: back) = .ok t' ∧ t.Alike (fun _ _ => True) t' := by
  obtain ⟨⟨e, next⟩, he, hread⟩ := Except.bind_eq_ok.mp hread
  obtain ⟨rfl, hnil⟩ := finish_eq_ok hread
  obtain ⟨f, next', hf, halike, hrest⟩ :=
    Cursor.expr_swapped hm hs (swapped_ofText hm front back) (Cursor.isAt_ofText _) he hmem
      .missingExpression
  refine ⟨f, Except.bind_eq_ok.mpr ⟨_, hf, ?_⟩, halike⟩
  exact if_pos (hrest.symm.trans hnil)

/-- And so may that of a literal of a statement. -/
theorem parseStatement_microSign {t : Statement Binary64} (hm : m ∈ microSigns)
    (hs : s.Prefixed front 'u' back)
    (hread : parseStatement .ascii (front ++ 'u' :: back) = .ok t) (hmem : s ∈ t.literals) :
    ∃ t', parseStatement .ascii (front ++ m :: back) = .ok t' ∧ t.Alike (fun _ _ => True) t' := by
  have hstart := swapped_ofText hm front back
  have hc := Cursor.isAt_ofText (front ++ 'u' :: back)
  have hassignment := assignment_swapped hm hstart .missingExpression .missingExpression
  unfold parseStatement at hread ⊢
  obtain ⟨r, hr, hread⟩ := Except.bind_eq_ok.mp hread
  cases r with
  | none =>
    have hnone : (Cursor.ofText (front ++ m :: back)).assignment = .ok none := by
      rcases hassignment with hsame | ⟨-, hnone⟩
      · rw [hr] at hsame
        generalize (Cursor.ofText (front ++ m :: back)).assignment = r at hsame ⊢
        cases hsame with
        | ok hsame =>
          cases hsame
          rfl
      · exact hnone
    obtain ⟨⟨e, next⟩, he, hread⟩ := Except.bind_eq_ok.mp hread
    obtain ⟨rfl, hnil⟩ := finish_eq_ok hread
    obtain ⟨f, next', hf, halike, hrest⟩ :=
      Cursor.expr_swapped hm hs hstart hc he hmem .missingExpression
    refine ⟨.expression f, ?_, .expression halike⟩
    refine Except.bind_eq_ok.mpr ⟨_, hnone, Except.bind_eq_ok.mpr ⟨_, hf, ?_⟩⟩
    exact if_pos (hrest.symm.trans hnil)
  | some found =>
    obtain ⟨name, sign, c₁⟩ := found
    obtain ⟨x, space, -, -, hreads⟩ := Cursor.assignment_eq_some hr
    have hc₁ := hc.reads hreads
    obtain ⟨⟨e, next⟩, he, hread⟩ := Except.bind_eq_ok.mp hread
    obtain ⟨rfl, hnil⟩ := finish_eq_ok hread
    have hahead := length_lt_of_prefixed hs hc₁ he hmem List.not_mem_nil
    rcases hassignment with hsame | ⟨hle, -⟩
    · rw [hr, together_swapped] at hsame
      generalize hr' : (Cursor.ofText (front ++ m :: back)).assignment = r at hsame
      cases hsame with
      | ok hsame =>
        cases hsame with
        | @some _ r hsame =>
          obtain ⟨name', sign', d₁⟩ := r
          obtain ⟨hname, hsign⟩ := hsame
          obtain ⟨f, next', hf, halike, hrest⟩ :=
            Cursor.expr_swapped hm hs hsign.cursor hc₁ he hmem (.missingValue sign'.span)
          have hnode : (name.node (String.ofList name.text)).Alike (fun _ _ => True)
              (name'.node (String.ofList name'.text)) := by
            rw [← hname.text]
            exact hname.node _
          refine ⟨_, ?_, .assign (hname.extent.through halike.extent) hnode halike⟩
          refine Except.bind_eq_ok.mpr ⟨_, hr', Except.bind_eq_ok.mpr ⟨_, hf, ?_⟩⟩
          exact if_pos (hrest.symm.trans hnil)
    · exact absurd hahead (Nat.not_lt_of_le (hle _ _ _ hr))

end Whole

/-! ## The letter u for micro -/

/-- **The letter u for micro adds to the plain dialect and takes nothing from it.** The dialect that has it
is conservative over the plain one, and what it adds can be spelt without it: for the prefix u of a literal
that it reads, a micro sign may be written, and the tree is the same. -/
structure AddsMicroLetter {α : Type} (parse : Dialect → List Char → Except ParseError α)
    (literals : α → List Span) (Same : α → α → Prop) (text : List Char) : Prop
    extends ConservativeOver literals text (parse .plain text) (parse .ascii text) where
  microSign : ∀ t, parse .ascii text = .ok t → ∀ s ∈ literals t, ∀ front back,
    text = front ++ 'u' :: back → s.Prefixed front 'u' back → ∀ m ∈ microSigns,
      ∃ t', parse .ascii (front ++ m :: back) = .ok t' ∧ Same t t'

/-- **The letter u for micro is a conservative extension**, for lines and for expressions alike.

Without it, a text is accepted if and only if it is with it and no literal of the tree is written with the
letter, and the trees are identical. A text without the letter in it is read the same either way, and is
refused with the same error. And the tree of a text in which the prefix u of a literal is replaced by a micro
sign is the same but for places: the values of all literals are. -/
theorem ascii_micro_conservative (text : List Char) :
    AddsMicroLetter parseStatement Statement.literals (Statement.Alike fun _ _ => True) text
      ∧ AddsMicroLetter parseExpression Expr.literals (Expr.Alike fun _ _ => True) text := by
  refine ⟨⟨parseStatement_conservative text, ?_⟩, ⟨parseExpression_conservative text, ?_⟩⟩
  · rintro t hread s hmem front back rfl hs m hm
    exact parseStatement_microSign hm hs hread hmem
  · rintro t hread s hmem front back rfl hs m hm
    exact parseExpression_microSign hm hs hread hmem

/-- In `v = 5u*2k`, the plain dialect has text left over at the letter. The other one accepts the line and
gives the same tree for `v = 5µ*2k`. -/
theorem ascii_micro_conservative_product :
    parseStatement .plain "v = 5u*2k".toList = .error ⟨5, .unexpectedText⟩
      ∧ ∃ t, parseStatement .ascii "v = 5u*2k".toList = .ok t
        ∧ (∃ s ∈ t.literals, s.WrittenWith 'u' "v = 5u*2k".toList)
        ∧ ∃ t', parseStatement .ascii "v = 5µ*2k".toList = .ok t' ∧ t.Alike (fun _ _ => True) t' := by
  obtain ⟨hline, -⟩ := ascii_micro_conservative "v = 5u*2k".toList
  have hliterals : (parseStatement .ascii "v = 5u*2k".toList).map Statement.literals
      = .ok [⟨⟨4, 1, 5⟩, ⟨6, 1, 7⟩⟩, ⟨⟨7, 1, 8⟩, ⟨9, 1, 10⟩⟩] := by decide +kernel
  cases hread : parseStatement .ascii "v = 5u*2k".toList with
  | error e =>
    rw [hread] at hliterals
    cases hliterals
  | ok t =>
    rw [hread] at hliterals
    have hmem : (⟨⟨4, 1, 5⟩, ⟨6, 1, 7⟩⟩ : Span) ∈ t.literals := by
      rw [Except.ok.inj hliterals]
      exact List.mem_cons_self
    have hs : Span.Prefixed "v = 5".toList 'u' "*2k".toList ⟨⟨4, 1, 5⟩, ⟨6, 1, 7⟩⟩ := by
      have hnumber : Lexeme.number ['5'] = .found ['5'] [] := rfl
      obtain ⟨n, hn, -⟩ := Lexeme.number_spells.found hnumber
      exact ⟨"v = ".toList, n, [], "*2k".toList, by rw [hn]; rfl, rfl, by rw [hn]; decide⟩
    exact ⟨by decide +kernel, t, rfl, ⟨_, hmem, _, _, rfl, hs⟩,
      hline.microSign t hread _ hmem _ _ rfl hs 'µ' (by decide)⟩

end WorstCase
