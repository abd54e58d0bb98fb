import Mathlib.Order.Interval.Basic
import WorstCase.Proofs.Source.Slices

/-!
# Merging the spans of one text

A span goes from one place of a text to another, and the places of a text are in order. So the spans of a
text are the intervals of its places, and to merge two of them is to take the least interval that covers
both (`Span.merge_ofInterval`). All laws of merging come from there: the spans of one text form a
semilattice (`Span.merge_semilattice`).

Merging picks the earlier start and the later stop by their offsets alone, and what it picks has to pass a
test of lines and columns as well. It does because in one text the three never disagree: of two places the
one with the smaller offset comes first by line and column too, and places of one offset are one place
(`Position.IsPlaceOf.le_iff`, `Position.IsPlaceOf.eq_of_offset`). Positions of two texts have no such order.
-/

namespace WorstCase

/-! ## The places of a text -/

namespace Position

/-- **One position comes before another**, or is the same: the offsets say so, and so do the lines and the
columns. -/
def Precedes (p q : Position) : Prop :=
  p.offset ≤ q.offset ∧ (p.line < q.line ∨ p.line = q.line ∧ p.column ≤ q.column)

/-- **A place of a text**: a position behind something that the text starts with. -/
def IsPlaceOf (text : List Char) (p : Position) : Prop :=
  ∃ before, before <+: text ∧ p = start.after before

/-- What is further on in a text comes later. -/
theorem precedes_after (p : Position) (text : List Char) : p.Precedes (p.after text) := by
  refine ⟨?_, p.line_column_after text⟩
  rw [offset_after]
  exact Nat.le_add_right _ _

namespace IsPlaceOf

variable {text : List Char} {p q : Position}

/-- Of two places in a text, one is further on than the other. -/
theorem total (hp : p.IsPlaceOf text) (hq : q.IsPlaceOf text) :
    (∃ between, q = p.after between) ∨ ∃ between, p = q.after between := by
  obtain ⟨before, hbefore, rfl⟩ := hp
  obtain ⟨front, hfront, rfl⟩ := hq
  rcases List.prefix_or_prefix_of_prefix hbefore hfront with ⟨between, rfl⟩ | ⟨between, rfl⟩
  · exact .inl ⟨between, after_append start before between⟩
  · exact .inr ⟨between, after_append start front between⟩

/-- **Places of one offset are one place.** -/
theorem eq_of_offset (hp : p.IsPlaceOf text) (hq : q.IsPlaceOf text) (h : p.offset = q.offset) :
    p = q := by
  have hnone : ∀ (r : Position) (between : List Char), r.offset = (r.after between).offset →
      r = r.after between := by
    intro r between hsame
    rw [offset_after] at hsame
    have hnil : between = [] := byteSize_eq_zero.mp (by omega)
    rw [hnil, after_nil]
  rcases hp.total hq with ⟨between, rfl⟩ | ⟨between, rfl⟩
  · exact hnone p between h
  · exact (hnone q between h.symm).symm

/-- Offsets tell which of two places comes first. -/
theorem precedes_iff (hp : p.IsPlaceOf text) (hq : q.IsPlaceOf text) :
    p.Precedes q ↔ p.offset ≤ q.offset := by
  refine ⟨And.left, fun h => ?_⟩
  rcases hp.total hq with ⟨between, rfl⟩ | ⟨between, rfl⟩
  · exact p.precedes_after between
  · have hback := (q.precedes_after between).1
    rw [hp.eq_of_offset hq (Nat.le_antisymm h hback)]
    exact q.precedes_after []

/-- **Lines and columns tell the same**: where they say that one place comes first, the offsets cannot say
the opposite, since then the lines and columns would say it too. -/
theorem le_iff (hp : p.IsPlaceOf text) (hq : q.IsPlaceOf text) :
    p.offset ≤ q.offset ↔ p.line < q.line ∨ p.line = q.line ∧ p.column ≤ q.column := by
  refine ⟨fun h => ((hp.precedes_iff hq).mpr h).2, fun h => ?_⟩
  rcases hp.total hq with ⟨between, rfl⟩ | ⟨between, rfl⟩
  · exact (p.precedes_after between).1
  · cases between with
    | nil => exact Nat.le_refl _
    | cons c between =>
      -- the first character makes the line later, or the column, and none after it makes up for that
      have hrest := (q.next c).line_column_after between
      have hfirst : q.line < (q.next c).line
          ∨ q.line = (q.next c).line ∧ q.column < (q.next c).column := by
        have hsize := Char.utf8Size_pos c
        unfold next
        split
        · exact .inl (Nat.lt_succ_self q.line)
        · exact .inr ⟨rfl, show q.column < q.column + c.utf8Size by omega⟩
      rw [after_cons] at h
      omega

end IsPlaceOf

end Position

/-- **The places of a text**, in order. -/
abbrev PlaceOf (text : List Char) : Type := { p : Position // p.IsPlaceOf text }

instance (text : List Char) : LinearOrder (PlaceOf text) :=
  LinearOrder.lift' (fun p => p.val.offset)
    fun p q h => Subtype.ext (p.property.eq_of_offset q.property h)

/-! ## Spans as intervals -/

namespace Span

/-- **One span covers another**: it starts no later and stops no earlier. -/
def Covers (s t : Span) : Prop := s.start.Precedes t.start ∧ t.stop.Precedes s.stop

/-- **A span of a text**: both its ends are places of the text, and as ends of a span they have been
accepted. -/
structure IsSpanOf (text : List Char) (s : Span) : Prop where
  start : s.start.IsPlaceOf text
  stop : s.stop.IsPlaceOf text
  accepted : between s.start s.stop = .ok s

/-- Positions are accepted as the ends of a span if they are in order. -/
theorem between_of_precedes {p q : Position} (h : p.Precedes q) : between p q = .ok ⟨p, q⟩ := by
  unfold between
  rw [if_neg (Nat.not_lt.mpr h.1), if_pos h.2]

/-- Otherwise they are not. -/
theorem precedes_of_between {p q : Position} {s : Span} (h : between p q = .ok s) : p.Precedes q := by
  unfold between at h
  split at h
  · cases h
  · rename_i hoffset
    split at h
    · rename_i hcolumn
      exact ⟨Nat.not_lt.mp hoffset, hcolumn⟩
    · cases h

variable {text : List Char}

/-- The span from the first place of an interval to its last. -/
def ofInterval (i : NonemptyInterval (PlaceOf text)) : Span := ⟨i.fst.val, i.snd.val⟩

theorem between_interval (i : NonemptyInterval (PlaceOf text)) :
    between i.fst.val i.snd.val = .ok (ofInterval i) :=
  between_of_precedes ((i.fst.property.precedes_iff i.snd.property).mpr i.fst_le_snd)

theorem isSpanOf_ofInterval (i : NonemptyInterval (PlaceOf text)) : (ofInterval i).IsSpanOf text :=
  ⟨i.fst.property, i.snd.property, between_interval i⟩

/-- **The spans of a text are the intervals of its places.** -/
theorem IsSpanOf.exists_interval {s : Span} (h : s.IsSpanOf text) :
    ∃ i : NonemptyInterval (PlaceOf text), s = ofInterval i :=
  ⟨⟨⟨⟨s.start, h.start⟩, ⟨s.stop, h.stop⟩⟩, (precedes_of_between h.accepted).1⟩, rfl⟩

/-- A span covers another as one interval covers the other. -/
theorem covers_iff {i j : NonemptyInterval (PlaceOf text)} :
    (ofInterval i).Covers (ofInterval j) ↔ j ≤ i := by
  rw [NonemptyInterval.le_def]
  exact and_congr (i.fst.property.precedes_iff j.fst.property)
    (j.snd.property.precedes_iff i.snd.property)

/-- **Merging is the join of intervals**: the earlier start, and the later stop. -/
theorem merge_ofInterval (i j : NonemptyInterval (PlaceOf text)) :
    (ofInterval i).merge (ofInterval j) = .ok (ofInterval (i ⊔ j)) := by
  have hstart : (if i.fst.val.offset ≤ j.fst.val.offset then i.fst.val else j.fst.val)
      = (i ⊔ j).fst.val := by
    rw [NonemptyInterval.fst_sup, min_def]
    exact (apply_ite Subtype.val (i.fst ≤ j.fst) i.fst j.fst).symm
  have hstop : (if j.snd.val.offset ≤ i.snd.val.offset then i.snd.val else j.snd.val)
      = (i ⊔ j).snd.val := by
    rw [NonemptyInterval.snd_sup, sup_comm, max_def]
    exact (apply_ite Subtype.val (j.snd ≤ i.snd) i.snd j.snd).symm
  show between (if i.fst.val.offset ≤ j.fst.val.offset then i.fst.val else j.fst.val)
    (if j.snd.val.offset ≤ i.snd.val.offset then i.snd.val else j.snd.val) = _
  rw [hstart, hstop]
  exact between_interval (i ⊔ j)

/-! ## The laws -/

/-- **The spans of one text form a semilattice under merging.** Its places have one order, by offset as by
line and column, and those of one offset are the same. Two spans of the text are always merged, to a span
of the text, in which order they come does not matter, nor how three are grouped, and a span merged with
itself is that span. The merged span covers both, and every span of the text that covers both covers it. -/
theorem merge_semilattice (text : List Char) :
    (∀ p q : Position, p.IsPlaceOf text → q.IsPlaceOf text →
      (p.offset ≤ q.offset ↔ p.line < q.line ∨ p.line = q.line ∧ p.column ≤ q.column)
      ∧ (p.offset = q.offset → p = q))
    ∧ ∀ s t u : Span, s.IsSpanOf text → t.IsSpanOf text → u.IsSpanOf text →
      s.merge s = .ok s
      ∧ ∃ st tu all : Span, st.IsSpanOf text ∧ all.IsSpanOf text
        ∧ s.merge t = .ok st ∧ t.merge s = .ok st
        ∧ t.merge u = .ok tu ∧ st.merge u = .ok all ∧ s.merge tu = .ok all
        ∧ st.Covers s ∧ st.Covers t
        ∧ ∀ v : Span, v.IsSpanOf text → v.Covers s → v.Covers t → v.Covers st := by
  refine ⟨fun p q hp hq => ⟨hp.le_iff hq, hp.eq_of_offset hq⟩, fun s t u hs ht hu => ?_⟩
  obtain ⟨i, rfl⟩ := hs.exists_interval
  obtain ⟨j, rfl⟩ := ht.exists_interval
  obtain ⟨k, rfl⟩ := hu.exists_interval
  refine ⟨?_, ofInterval (i ⊔ j), ofInterval (j ⊔ k), ofInterval (i ⊔ j ⊔ k),
    isSpanOf_ofInterval _, isSpanOf_ofInterval _, merge_ofInterval i j, ?_, merge_ofInterval j k,
    merge_ofInterval (i ⊔ j) k, ?_, covers_iff.mpr le_sup_left, covers_iff.mpr le_sup_right, ?_⟩
  · rw [merge_ofInterval, sup_idem]
  · rw [merge_ofInterval, sup_comm]
  · rw [merge_ofInterval, sup_assoc]
  · intro v hv hvs hvt
    obtain ⟨l, rfl⟩ := hv.exists_interval
    exact covers_iff.mpr (sup_le (covers_iff.mp hvs) (covers_iff.mp hvt))

/-- Three spans of `1V`, a line feed and `2µV`. The first is the first line, the second begins in the first
line and ends before the `µ`, and the third is the `µ`. -/
theorem merge_semilattice_lines :
    IsSpanOf "1V\n2µV".toList ⟨⟨0, 1, 1⟩, ⟨2, 1, 3⟩⟩
    ∧ IsSpanOf "1V\n2µV".toList ⟨⟨1, 1, 2⟩, ⟨4, 2, 2⟩⟩
    ∧ IsSpanOf "1V\n2µV".toList ⟨⟨4, 2, 2⟩, ⟨6, 2, 4⟩⟩
    ∧ ∃ all, merge ⟨⟨0, 1, 1⟩, ⟨4, 2, 2⟩⟩ ⟨⟨4, 2, 2⟩, ⟨6, 2, 4⟩⟩ = .ok all
      ∧ merge ⟨⟨0, 1, 1⟩, ⟨2, 1, 3⟩⟩ ⟨⟨1, 1, 2⟩, ⟨6, 2, 4⟩⟩ = .ok all := by
  have hplace : ∀ n, Position.IsPlaceOf "1V\n2µV".toList (.after .start ("1V\n2µV".toList.take n)) :=
    fun n => ⟨_, List.take_prefix n _, rfl⟩
  have hs : IsSpanOf "1V\n2µV".toList ⟨⟨0, 1, 1⟩, ⟨2, 1, 3⟩⟩ := ⟨hplace 0, hplace 2, rfl⟩
  have ht : IsSpanOf "1V\n2µV".toList ⟨⟨1, 1, 2⟩, ⟨4, 2, 2⟩⟩ := ⟨hplace 1, hplace 4, rfl⟩
  have hu : IsSpanOf "1V\n2µV".toList ⟨⟨4, 2, 2⟩, ⟨6, 2, 4⟩⟩ := ⟨hplace 4, hplace 5, rfl⟩
  obtain ⟨-, st, tu, all, -, -, hst, -, htu, hleft, hright, -⟩ :=
    (merge_semilattice "1V\n2µV".toList).2 _ _ _ hs ht hu
  cases hst
  cases htu
  exact ⟨hs, ht, hu, all, hleft, hright⟩

end Span

end WorstCase
