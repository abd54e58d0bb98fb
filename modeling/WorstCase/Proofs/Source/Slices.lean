import WorstCase.Source.Location

/-!
# Pieces of a text

A piece of a text is found again by its byte offset and its size. Offsets are
those of positions, and the offset of a position is the size of the text before
it, so a piece is found between the positions before and behind it.
-/

namespace WorstCase

/-- A character has a size. -/
theorem byteSize_cons_pos (c : Char) (text : List Char) : 0 < byteSize (c :: text) := by
  rw [byteSize_cons]
  exact Nat.add_pos_left (Char.utf8Size_pos c) _

/-- A text without bytes has no characters. -/
theorem byteSize_eq_zero {text : List Char} : byteSize text = 0 ↔ text = [] := by
  constructor
  · intro h
    cases text with
    | nil => rfl
    | cons c text => exact absurd h (Nat.ne_of_gt (byteSize_cons_pos c text))
  · rintro rfl
    rfl

/-- **A text falls apart where it was put together.** -/
theorem splitAtByte?_append (before rest : List Char) :
    splitAtByte? (before ++ rest) (byteSize before) = some (before, rest) := by
  induction before with
  | nil => cases rest <;> rfl
  | cons c before ih =>
    obtain ⟨n, hn⟩ := Nat.exists_eq_succ_of_ne_zero
      (Nat.ne_of_gt (byteSize_cons_pos c before))
    have hsum : c.utf8Size + byteSize before = n + 1 := hn
    have hsize : c.utf8Size ≤ n + 1 := by omega
    have hrest : n + 1 - c.utf8Size = byteSize before := by omega
    rw [hn, List.cons_append, splitAtByte?, if_pos hsize, hrest, ih]
    rfl

/-- It falls apart at an offset in one way only. -/
theorem append_inj_of_byteSize {before rest front back : List Char}
    (h : before ++ rest = front ++ back) (hsize : byteSize before = byteSize front) :
    before = front ∧ rest = back := by
  have hsplit := splitAtByte?_append before rest
  rw [h, hsize, splitAtByte?_append] at hsplit
  obtain ⟨hfront, hback⟩ := Prod.mk.inj (Option.some.inj hsplit)
  exact ⟨hfront.symm, hback.symm⟩

/-- A piece of a text is the slice where it stands. -/
theorem sliceAt?_append (before piece rest : List Char) :
    sliceAt? (before ++ piece ++ rest) (byteSize before) (byteSize piece) = some piece := by
  unfold sliceAt?
  rw [List.append_assoc, splitAtByte?_append]
  show (splitAtByte? (piece ++ rest) (byteSize piece)).bind _ = _
  rw [splitAtByte?_append]
  rfl

/-- **The text of a span** of a text. -/
def Span.textIn (s : Span) (text : List Char) : Option (List Char) :=
  sliceAt? text s.start.offset s.size

/-- **The text between two positions** is what stands between them. -/
theorem Span.textIn_after {text before piece : List Char}
    (h : before ++ piece <+: text) :
    Span.textIn ⟨Position.start.after before, Position.start.after (before ++ piece)⟩ text
      = some piece := by
  obtain ⟨rest, rfl⟩ := h
  have hbefore : (Position.start.after before).offset = byteSize before := by
    rw [Position.offset_after]
    exact Nat.zero_add _
  have hsize : Span.size ⟨Position.start.after before, Position.start.after (before ++ piece)⟩
      = byteSize piece := by
    rw [Span.size, Position.offset_after, Position.offset_after, byteSize_append]
    omega
  unfold Span.textIn
  rw [hsize, hbefore]
  exact sliceAt?_append before piece rest

end WorstCase
