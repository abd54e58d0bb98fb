import WorstCase.Source.Lines
import WorstCase.Source.Location

/-!
# Lines in their text

A line of a text is a piece of it that starts behind a line feed, or where the
text does, and has none in it. Its number counts the line feeds before it, and
its start counts their bytes with all others (`mem_linesOf`).

So the same piece is found in two ways: by the offsets that were added up while
the lines were taken one after the other, and by looking back from a place for
the last line feed, as a location does.
-/

namespace WorstCase

/-! ## Texts on one line -/

/-- A text without line ends. -/
def OneLine (text : List Char) : Prop := '\n' ∉ text

instance (text : List Char) : Decidable (OneLine text) :=
  inferInstanceAs (Decidable ('\n' ∉ text))

section OneLine

variable {text more : List Char} {c : Char}

theorem OneLine.append (h : OneLine text) (hmore : OneLine more) : OneLine (text ++ more) := by
  intro hn
  rcases List.mem_append.mp hn with hn | hn
  · exact h hn
  · exact hmore hn

theorem OneLine.cons (hc : c ≠ '\n') (h : OneLine text) : OneLine (c :: text) := by
  intro hn
  rcases List.mem_cons.mp hn with hn | hn
  · exact hc hn.symm
  · exact h hn

/-- A piece of one line is on one line. -/
theorem OneLine.of_isPrefix (h : OneLine text) (hmore : more <+: text) : OneLine more :=
  fun hn => h (hmore.subset hn)

/-- The first line feed is behind it. -/
theorem OneLine.takeWhile_append (h : OneLine text) (more : List Char) :
    (text ++ more).takeWhile (· ≠ '\n') = text ++ more.takeWhile (· ≠ '\n') := by
  refine List.takeWhile_append_of_pos fun c hc => decide_eq_true ?_
  rintro rfl
  exact h hc

theorem OneLine.count_eq (h : OneLine text) : text.count '\n' = 0 :=
  List.count_eq_zero_of_not_mem h

end OneLine

/-! ## Lines with their ends -/

/-- A line with its line feed. -/
def EndedLine (raw : List Char) : Prop := ∃ body, OneLine body ∧ raw = body ++ ['\n']

theorem EndedLine.cons {c : Char} {raw : List Char} (hc : c ≠ '\n') (h : EndedLine raw) :
    EndedLine (c :: raw) := by
  obtain ⟨body, hbody, rfl⟩ := h
  exact ⟨c :: body, hbody.cons hc, rfl⟩

/-- **What a text falls into**: ended lines, and one last line that need not
be. -/
theorem rawLines_split {text raw : List Char} {front back : List (List Char)}
    (h : rawLines text = front ++ raw :: back) :
    (∀ r ∈ front, EndedLine r) ∧ (EndedLine raw ∨ OneLine raw) := by
  induction text generalizing front raw back with
  | nil => exact absurd h.symm (by simp [rawLines])
  | cons c cs ih =>
    unfold rawLines at h
    split at h
    · rename_i hc
      subst hc
      have hfeed : EndedLine ['\n'] := ⟨[], List.not_mem_nil, rfl⟩
      cases front with
      | nil =>
        obtain ⟨rfl, -⟩ := List.cons.inj h
        exact ⟨fun r hr => absurd hr List.not_mem_nil, .inl hfeed⟩
      | cons f front =>
        obtain ⟨rfl, htail⟩ := List.cons.inj h
        obtain ⟨hfront, hraw⟩ := ih htail
        exact ⟨List.forall_mem_cons.mpr ⟨hfeed, hfront⟩, hraw⟩
    · rename_i hc
      split at h
      · cases front with
        | nil =>
          obtain ⟨rfl, -⟩ := List.cons.inj h
          exact ⟨fun r hr => absurd hr List.not_mem_nil,
            .inr (OneLine.cons hc List.not_mem_nil)⟩
        | cons f front => exact absurd (List.cons.inj h).2.symm (by simp)
      · rename_i line lines hcs
        cases front with
        | nil =>
          obtain ⟨rfl, -⟩ := List.cons.inj h
          -- the first line of the rest goes on with this character
          obtain ⟨-, hline⟩ := @ih line [] lines hcs
          exact ⟨fun r hr => absurd hr List.not_mem_nil,
            hline.imp (EndedLine.cons hc) (OneLine.cons hc)⟩
        | cons f front =>
          obtain ⟨rfl, htail⟩ := List.cons.inj h
          obtain ⟨hfront, hraw⟩ := @ih raw (line :: front) back (by rw [hcs, htail]; rfl)
          obtain ⟨hline, hfront⟩ := List.forall_mem_cons.mp hfront
          exact ⟨List.forall_mem_cons.mpr ⟨hline.cons hc, hfront⟩, hraw⟩

/-! ## Lines without their ends -/

theorem dropLastChar_isPrefix (last : Char) (text : List Char) :
    dropLastChar last text <+: text := by
  unfold dropLastChar
  split
  · exact List.dropLast_prefix text
  · exact List.prefix_rfl

/-- A line is the first part of the line with its end. -/
theorem lineText_isPrefix (raw : List Char) : lineText raw <+: raw :=
  (dropLastChar_isPrefix _ _).trans (dropLastChar_isPrefix _ _)

/-- **A line has no line end.** -/
theorem lineText_oneLine {raw : List Char} (h : EndedLine raw ∨ OneLine raw) :
    OneLine (lineText raw) := by
  rcases h with ⟨body, hbody, rfl⟩ | h
  · have hdrop : dropLastChar '\n' (body ++ ['\n']) = body := by
      unfold dropLastChar
      rw [List.getLast?_concat, if_pos rfl, List.dropLast_concat]
    refine hbody.of_isPrefix ?_
    rw [lineText, hdrop]
    exact dropLastChar_isPrefix _ _
  · exact h.of_isPrefix (lineText_isPrefix raw)

/-! ## Lines in their place -/

namespace Location

/-- Ended lines leave nothing behind their last line feed. -/
theorem lastLine_flatten {lines : List (List Char)} (h : ∀ r ∈ lines, EndedLine r) :
    lastLine lines.flatten = [] := by
  rcases List.eq_nil_or_concat lines with rfl | ⟨front, raw, rfl⟩
  · rfl
  · rw [List.concat_eq_append] at h ⊢
    obtain ⟨body, -, rfl⟩ := h raw (List.mem_append_right _ List.mem_cons_self)
    have htext : (front ++ [body ++ ['\n']]).flatten = (front.flatten ++ body) ++ ['\n'] := by
      rw [List.flatten_concat, List.append_assoc]
    rw [htext, lastLine, List.reverse_concat]
    rfl

end Location

/-- Each ended line has one line feed. -/
theorem count_flatten {lines : List (List Char)} (h : ∀ r ∈ lines, EndedLine r) :
    lines.flatten.count '\n' = lines.length := by
  induction lines with
  | nil => rfl
  | cons raw lines ih =>
    obtain ⟨⟨body, hbody, rfl⟩, hlines⟩ := List.forall_mem_cons.mp h
    rw [List.flatten_cons, List.count_append, List.count_append, hbody.count_eq, ih hlines,
      List.length_cons]
    exact Nat.add_comm _ _

/-- Lines that are placed one after the other are where the lines before them
end. -/
theorem mem_placeLines {raws : List (List Char)} {number start : Nat} {l : Line}
    (h : l ∈ placeLines number start raws) :
    ∃ front raw back, raws = front ++ raw :: back
      ∧ l = ⟨number + front.length, start + byteSize front.flatten, lineText raw⟩ := by
  induction raws generalizing number start with
  | nil => cases h
  | cons first raws ih =>
    rcases List.mem_cons.mp h with rfl | h
    · exact ⟨[], first, raws, rfl, rfl⟩
    · obtain ⟨front, raw, back, rfl, rfl⟩ := ih h
      refine ⟨first :: front, raw, back, rfl, ?_⟩
      rw [List.flatten_cons, byteSize_append, List.length_cons]
      congr 1
      · omega
      · omega

/-- **A line where its number and its start say**, in a text. -/
structure Line.IsIn (text before : List Char) (l : Line) : Prop where
  /-- The text goes on with the line. -/
  prefix_text : before ++ l.text <+: text
  /-- A line starts there. -/
  starts : Location.lastLine before = []
  /-- It is only one. -/
  oneLine : OneLine l.text
  start_eq : l.start = byteSize before
  number_eq : l.number = before.count '\n' + 1

/-- A line of a text stands behind the lines before it. -/
theorem Line.isIn_of_rawLines {text raw : List Char} {front back : List (List Char)}
    (h : rawLines text = front ++ raw :: back) :
    Line.IsIn text front.flatten ⟨front.length + 1, byteSize front.flatten, lineText raw⟩ := by
  obtain ⟨hfront, hraw⟩ := rawLines_split h
  refine ⟨?_, Location.lastLine_flatten hfront, lineText_oneLine hraw, rfl, ?_⟩
  · have htext : text = front.flatten ++ (raw ++ back.flatten) := by
      rw [← flatten_rawLines text, h, List.flatten_append, List.flatten_cons]
    rw [htext, List.prefix_append_right_inj]
    exact (lineText_isPrefix raw).trans (List.prefix_append _ _)
  · rw [count_flatten hfront]

/-- The lines of a text are those that it falls into. -/
theorem exists_rawLines {text : List Char} {l : Line} (h : l ∈ linesOf text) :
    ∃ front raw back, rawLines text = front ++ raw :: back
      ∧ l = ⟨front.length + 1, byteSize front.flatten, lineText raw⟩ := by
  obtain ⟨front, raw, back, hraws, rfl⟩ := mem_placeLines h
  refine ⟨front, raw, back, hraws, ?_⟩
  rw [Nat.add_comm 1, Nat.zero_add]

/-- **Every line of a text is in it.** -/
theorem mem_linesOf {text : List Char} {l : Line} (h : l ∈ linesOf text) :
    ∃ before, l.IsIn text before := by
  obtain ⟨front, raw, back, hraws, rfl⟩ := exists_rawLines h
  exact ⟨front.flatten, Line.isIn_of_rawLines hraws⟩

end WorstCase
