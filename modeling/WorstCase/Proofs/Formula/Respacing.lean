import WorstCase.Proofs.Formula.Alongside
import WorstCase.Proofs.Formula.Faults

/-!
# Blanks only separate

How many blanks stand between two words of a formula, and whether they are spaces or tabs, makes no
difference (`parse_respaced`). Of two texts with the same words and blanks between the same words, either
both are formulas, and their trees are the same but for places, or neither is, and the errors are of one
kind. What stands at a place in one text stands at the **same place** in the other: the one that has the
same words before it and behind it, and is as much before or behind the blanks there.

A place inside a run of blanks has no counterpart, and none is needed: the reader stops at the ends of
words and behind the blanks only.
-/

namespace WorstCase

open ParseFault (isBlank)
open Lexeme (Stops Solid)

/-- **Texts that differ in their blanks only.** At the start of a text there may be blanks or not; anywhere
else there are some in both texts or in neither. -/
inductive RespacedText : List Char → List Char → Prop where
  | leading (a b : Blanks) {cs ds : List Char} (hcs : Stops isBlank cs) (h : Respaced cs ds) :
    RespacedText (a.val ++ cs) (b.val ++ ds)

/-- **Two texts cut at the same place**: what is before the cuts differs in blanks only, so does what is
behind them, and neither cut is inside a run of blanks. -/
structure CutAlike (s t before rest before' rest' : List Char) : Prop where
  left_eq : s = before ++ rest
  right_eq : t = before' ++ rest'
  words_before : RespacedText before before'
  words_behind : Respaced rest rest'
  left_seam : Seam before rest
  right_seam : Seam before' rest'

/-- **The same place in two texts.** -/
def SamePlace (s t : List Char) (p q : Position) : Prop :=
  ∃ before rest before' rest', CutAlike s t before rest before' rest'
    ∧ p = Position.start.after before ∧ q = Position.start.after before'

/-! ## Seams -/

section Seams

variable {before rest piece : List Char}

theorem seam_of_stops (h : Stops isBlank rest) : Seam before rest := fun _ _ _ => h

/-- A solid text does not start with a blank. -/
theorem Lexeme.Solid.stops (h : Solid piece) : Stops isBlank piece := by
  cases piece with
  | nil => exact fun _ hc => nomatch hc
  | cons c cs => exact Lexeme.stops_cons (h.isBlank_eq_false c List.mem_cons_self)

/-- A cut behind a lexeme is not inside a run of blanks. -/
theorem Seam.behind (h : Seam before (piece ++ rest)) (hsolid : Solid piece) :
    Seam (before ++ piece) rest := by
  intro c hc hblank
  rcases List.eq_nil_or_concat piece with rfl | ⟨front, last, rfl⟩
  · rw [List.append_nil] at hc
    exact h c hc hblank
  · rw [List.concat_eq_append, ← List.append_assoc, List.getLast?_concat] at hc
    cases hc
    rw [hsolid.isBlank_eq_false c (by simp)] at hblank
    cases hblank

end Seams

/-- Texts that go on with respaced texts at a seam differ in blanks only. -/
theorem RespacedText.append {s t es fs : List Char} (h : RespacedText s t) (hseam : Seam s es)
    (hmore : Respaced es fs) : RespacedText (s ++ es) (t ++ fs) := by
  obtain ⟨a, b, hcs, h⟩ := h
  rename_i cs ds
  cases cs with
  | nil =>
    obtain rfl := h.nil_iff.mp rfl
    rw [List.append_nil, List.append_nil]
    cases hmore with
    | nil => exact .leading a b hcs .nil
    | char hc hmore => exact .leading a b (Lexeme.stops_cons hc) (.char hc hmore)
    | blanks x y hx hy hes hmore =>
      rw [← List.append_assoc, ← List.append_assoc]
      exact .leading ⟨a.val ++ x.val, List.forall_mem_append.mpr ⟨a.property, x.property⟩⟩
        ⟨b.val ++ y.val, List.forall_mem_append.mpr ⟨b.property, y.property⟩⟩ hes hmore
  | cons c cs =>
    rw [List.append_assoc, List.append_assoc]
    refine .leading a b (Lexeme.stops_cons (hcs c rfl)) (h.append ?_ hmore)
    intro d hd hblank
    refine hseam d ?_ hblank
    rw [List.getLast?_append, hd]
    rfl

/-- Blanks that are next are next in both. -/
theorem Respaced.skip {cs ds : List Char} (h : Respaced cs ds) :
    ∃ (a b : Blanks) (es fs : List Char), cs = a.val ++ es ∧ ds = b.val ++ fs
      ∧ Stops isBlank es ∧ Respaced es fs ∧ Respaced a.val b.val := by
  have hnone : ∀ c ∈ ([] : List Char), isBlank c = true := fun _ hc => nomatch hc
  cases h with
  | nil => exact ⟨⟨[], hnone⟩, ⟨[], hnone⟩, [], [], rfl, rfl, Lexeme.stops_nil, .nil, .nil⟩
  | char hc h =>
    exact ⟨⟨[], hnone⟩, ⟨[], hnone⟩, _, _, rfl, rfl, Lexeme.stops_cons hc, .char hc h, .nil⟩
  | blanks a b ha hb hcs h =>
    refine ⟨a, b, _, _, rfl, rfl, hcs, h, ?_⟩
    have hblanks := Respaced.blanks a b ha hb Lexeme.stops_nil .nil
    rwa [List.append_nil, List.append_nil] at hblanks

/-! ## Cursors at the same place -/

/-- Cursors in two texts that differ in blanks only, at the same place. -/
def CursorsAlike (s t : List Char) (c d : Cursor) : Prop :=
  ∃ before before', CutAlike s t before c.rest before' d.rest
    ∧ c.position = Position.start.after before ∧ d.position = Position.start.after before'

/-- The positions of such cursors are the same place. -/
theorem together_cursorsAlike (s t : List Char) : Together (CursorsAlike s t) = SamePlace s t := by
  funext p q
  apply propext
  constructor
  · rintro ⟨rest, rest', before, before', hcut, hp, hq⟩
    exact ⟨before, rest, before', rest', hcut, hp, hq⟩
  · rintro ⟨before, rest, before', rest', hcut, hp, hq⟩
    exact ⟨rest, rest', before, before', hcut, hp, hq⟩

/-- **Reading keeps cursors at the same place.** -/
theorem alongside_cursorsAlike (s t : List Char) : Alongside (CursorsAlike s t) where
  respaced := by
    rintro c d ⟨before, before', hcut, -, -⟩
    exact hcut.words_behind
  behind := by
    rintro c d piece rest rest' ⟨before, before', hcut, hp, hq⟩ hc hd hsolid
    obtain ⟨hs, ht, hbefore, hbehind, hleft, hright⟩ := hcut
    rw [hc] at hs hleft hbehind
    rw [hd] at ht hright hbehind
    obtain ⟨rest'', hrest, hmore⟩ := hbehind.piece hsolid.isBlank_eq_false
    obtain rfl := List.append_cancel_left hrest
    refine ⟨before ++ piece, before' ++ piece, ⟨?_, ?_, ?_, hmore, hleft.behind hsolid,
      hright.behind hsolid⟩, ?_, ?_⟩
    · rw [hs, List.append_assoc]
    · rw [ht, List.append_assoc]
    · exact hbefore.append (seam_of_stops hsolid.stops) (.refl piece)
    · rw [hp, Position.after_append]
    · rw [hq, Position.after_append]
  skipBlanks := by
    rintro ⟨p, rest⟩ ⟨q, rest'⟩ ⟨before, before', hcut, hp, hq⟩
    obtain ⟨hs, ht, hbefore, hbehind, hleft, hright⟩ := hcut
    dsimp only at hs ht hbehind hleft hright hp hq
    obtain ⟨a, b, es, fs, rfl, rfl, hes, hmore, hblanks⟩ := hbehind.skip
    rw [Cursor.skipBlanks_append a hes, Cursor.skipBlanks_append b (hmore.stops hes)]
    refine ⟨before ++ a.val, before' ++ b.val, ⟨?_, ?_, ?_, hmore, seam_of_stops hes,
      seam_of_stops (hmore.stops hes)⟩, ?_, ?_⟩
    · rw [hs, List.append_assoc]
    · rw [ht, List.append_assoc]
    · refine hbefore.append ?_ hblanks
      intro c hc hblank d hd
      refine hleft c hc hblank d ?_
      rw [List.head?_append, hd]
      rfl
    · rw [hp, Position.after_append]
    · rw [hq, Position.after_append]

/-- Texts that differ in blanks only are read from the same place on. -/
theorem RespacedText.cursorsAlike {s t : List Char} (h : RespacedText s t) :
    CursorsAlike s t (Cursor.ofText s) (Cursor.ofText t) := by
  obtain ⟨a, b, hcs, h⟩ := h
  unfold Cursor.ofText
  rw [Cursor.skipBlanks_append a hcs, Cursor.skipBlanks_append b (h.stops hcs)]
  refine ⟨a.val, b.val, ⟨rfl, rfl, ?_, h, seam_of_stops hcs, seam_of_stops (h.stops hcs)⟩, rfl, rfl⟩
  have hblanks := RespacedText.leading a b Lexeme.stops_nil .nil
  rwa [List.append_nil, List.append_nil] at hblanks

/-! ## The same place is one place -/

/-- The characters that are no blanks. -/
def inked (text : List Char) : List Char := text.filter (!isBlank ·)

theorem inked_append (text more : List Char) : inked (text ++ more) = inked text ++ inked more :=
  List.filter_append ..

theorem inked_eq_nil {text : List Char} : inked text = [] ↔ ∀ c ∈ text, isBlank c = true := by
  simp [inked, List.filter_eq_nil_iff]

theorem Respaced.inked_eq {cs ds : List Char} (h : Respaced cs ds) : inked cs = inked ds := by
  induction h with
  | nil => rfl
  | @char c cs ds hc _ ih =>
    rw [← List.singleton_append, inked_append, ih, ← inked_append, List.singleton_append]
  | blanks a b _ _ _ _ ih =>
    rw [inked_append, inked_append, inked_eq_nil.mpr a.property, inked_eq_nil.mpr b.property, ih]

theorem RespacedText.inked_eq {s t : List Char} (h : RespacedText s t) : inked s = inked t := by
  obtain ⟨a, b, _, h⟩ := h
  rw [inked_append, inked_append, inked_eq_nil.mpr a.property, inked_eq_nil.mpr b.property, h.inked_eq]

/-- Two cuts that have the same counterpart have nothing between them: it would be blanks, and one of
the cuts would be inside a run of them. -/
theorem CutAlike.eq_nil {s t before rest before' between rest' : List Char}
    (h : CutAlike s t before rest before' (between ++ rest'))
    (h' : CutAlike s t before rest (before' ++ between) rest') : between = [] := by
  have hinked : inked before' = inked (before' ++ between) :=
    h.words_before.inked_eq.symm.trans h'.words_before.inked_eq
  have hblank : ∀ c ∈ between, isBlank c = true := by
    rw [inked_append, List.self_eq_append_right] at hinked
    exact inked_eq_nil.mp hinked
  -- The second cut is behind a blank, so no blank follows it; then none follows the first.
  by_contra hne
  have hlast : (before' ++ between).getLast? = some (between.getLast hne) := by
    rw [List.getLast?_append, List.getLast?_eq_some_getLast hne]
    rfl
  have hrest' : Stops isBlank rest' :=
    h'.right_seam _ hlast (hblank _ (List.getLast_mem hne))
  have hrest : Stops isBlank (between ++ rest') :=
    h.words_behind.stops (h'.words_behind.symm.stops hrest')
  obtain ⟨c, hc, hcblank⟩ := Blanks.head?_append (a := ⟨between, hblank⟩) hne rest'
  rw [hrest c hc] at hcblank
  cases hcblank

/-- **A place has one counterpart at most.** -/
theorem SamePlace.unique {s t : List Char} {p q q' : Position} (h : SamePlace s t p q)
    (h' : SamePlace s t p q') : q = q' := by
  obtain ⟨before, rest, before₁, rest₁, hcut, hp, rfl⟩ := h
  obtain ⟨front, back, before₂, rest₂, hcut', hp', rfl⟩ := h'
  have hsize : byteSize before = byteSize front := by
    rw [← offset_start_after, ← hp, hp', offset_start_after]
  obtain ⟨rfl, rfl⟩ := append_inj_of_byteSize (hcut.left_eq.symm.trans hcut'.left_eq) hsize
  rcases List.append_eq_append_iff.mp (hcut.right_eq.symm.trans hcut'.right_eq) with
    ⟨between, rfl, rfl⟩ | ⟨between, rfl, rfl⟩
  · rw [hcut.eq_nil hcut', List.append_nil]
  · rw [hcut'.eq_nil hcut, List.append_nil]

/-! ## Formulas that are respaced -/

/-- **Blanks only separate.** Texts that differ in their blanks only are parsed alike, as expressions and
as statements: to the same trees but for places, or to errors of the same kind, each at the same place in
its text. There is one such place at most. -/
theorem parse_respaced (dialect : Dialect) {s t : List Char} (h : RespacedText s t) :
    Except.Rel (ParseError.Alike (SamePlace s t) .missingExpression .missingExpression)
        (Expr.Alike (SamePlace s t)) (parseExpression dialect s) (parseExpression dialect t)
      ∧ Except.Rel (ParseError.Alike (SamePlace s t) .missingExpression .missingExpression)
        (Statement.Alike (SamePlace s t)) (parseStatement dialect s) (parseStatement dialect t)
      ∧ ∀ p q q', SamePlace s t p q → SamePlace s t p q' → q = q' := by
  have ha := alongside_cursorsAlike s t
  have hstart := h.cursorsAlike
  rw [← together_cursorsAlike]
  refine ⟨ha.parseExpression dialect hstart, ha.parseStatement dialect hstart, ?_⟩
  rw [together_cursorsAlike]
  exact fun _ _ _ => SamePlace.unique

/-- In a sum, the blank before it, and the one behind the sign made two. -/
theorem parse_respaced_sum :
    RespacedText [' ', '1', '+', ' ', '2'] ['1', '+', '\t', ' ', '2']
      ∧ Except.Rel
        (ParseError.Alike (SamePlace [' ', '1', '+', ' ', '2'] ['1', '+', '\t', ' ', '2'])
          .missingExpression .missingExpression)
        (Expr.Alike (SamePlace [' ', '1', '+', ' ', '2'] ['1', '+', '\t', ' ', '2']))
        (parseExpression {} [' ', '1', '+', ' ', '2'])
        (parseExpression {} ['1', '+', '\t', ' ', '2']) := by
  have htexts : RespacedText [' ', '1', '+', ' ', '2'] ['1', '+', '\t', ' ', '2'] := by
    refine .leading ⟨[' '], List.all_eq_true.mp rfl⟩ ⟨[], List.all_eq_true.mp rfl⟩
      (Lexeme.stops_cons rfl) (.char rfl (.char rfl ?_))
    exact .blanks ⟨[' '], List.all_eq_true.mp rfl⟩ ⟨['\t', ' '], List.all_eq_true.mp rfl⟩
      (List.cons_ne_nil _ _) (List.cons_ne_nil _ _) (Lexeme.stops_cons rfl) (.char rfl .nil)
  exact ⟨htexts, (parse_respaced {} htexts).1⟩

end WorstCase
