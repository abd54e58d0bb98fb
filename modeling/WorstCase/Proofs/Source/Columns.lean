import WorstCase.Proofs.Source.Relocation

/-!
# The column in the displayed line

A location has a column and a line to display, and the column only says something if it counts in that
line: what is displayed before the column has to be what the text has before the place, from the start of
the line on (`Location.Under`).

The two are found in different ways. The column counts back from the place to the last line feed. The
displayed line is the one that the text falls into by that number (`Location.wholeLine_eq_getElem?`): it
has lost its line end, and with it a carriage return before the line feed, and there may be no such line,
if the place is behind the last line feed. They agree at every place but one kind: between a carriage
return and its line feed the carriage return is before the place and not displayed
(`InsideLineEnd`).
-/

namespace WorstCase

/-- **A byte offset between a carriage return and its line feed.** -/
def InsideLineEnd (text : List Char) (offset : Nat) : Prop :=
  ∃ before rest, text = before ++ '\r' :: '\n' :: rest ∧ offset = byteSize before + 1

/-- The carriage return is the last character before such a place, and the line feed the first one
behind it. -/
theorem insideLineEnd_iff {before rest : List Char} : InsideLineEnd (before ++ rest) (byteSize before)
    ↔ before.getLast? = some '\r' ∧ rest.head? = some '\n' := by
  constructor
  · rintro ⟨front, back, htext, hsize⟩
    have htext' : before ++ rest = (front ++ ['\r']) ++ '\n' :: back := by
      rw [htext, List.append_assoc, List.singleton_append]
    have hsize' : byteSize before = byteSize (front ++ ['\r']) := by
      rw [hsize, byteSize_append]
      rfl
    obtain ⟨rfl, rfl⟩ := append_inj_of_byteSize htext' hsize'
    exact ⟨List.getLast?_concat, rfl⟩
  · rintro ⟨hreturn, hfeed⟩
    obtain ⟨front, rfl⟩ := List.getLast?_eq_some_iff.mp hreturn
    obtain ⟨back, rfl⟩ := List.head?_eq_some_iff.mp hfeed
    refine ⟨front, back, List.append_assoc _ _ _, ?_⟩
    rw [byteSize_append]
    rfl

/-- On one line there is no line end to be inside of. -/
theorem OneLine.not_insideLineEnd {text : List Char} (h : OneLine text) (offset : Nat) :
    ¬InsideLineEnd text offset := by
  rintro ⟨before, rest, rfl, -⟩
  exact h (by simp)

namespace Location

/-! ## The start of a line -/

/-- **A text falls into ended lines and what is behind them.** -/
theorem exists_eq_append_lastLine (text : List Char) :
    ∃ front, text = front ++ lastLine text ∧ EndsLine front ∧ OneLine (lastLine text) := by
  have hsplit := List.takeWhile_append_dropWhile (p := (· ≠ '\n')) (l := text.reverse)
  refine ⟨(text.reverse.dropWhile (· ≠ '\n')).reverse, ?_, ?_, ?_⟩
  · rw [lastLine, ← List.reverse_append, hsplit, List.reverse_reverse]
  · have hstop := List.head?_dropWhile_not (· ≠ '\n') text.reverse
    cases hdrop : text.reverse.dropWhile (· ≠ '\n') with
    | nil => exact .inl rfl
    | cons c cs =>
      rw [hdrop] at hstop
      have hc : c = '\n' := by simpa using hstop
      exact .inr (by rw [List.getLast?_reverse, hc]; rfl)
  · intro hn
    have hkept := List.all_eq_true.mp List.all_takeWhile _ (List.mem_reverse.mp hn)
    exact of_decide_eq_true hkept rfl

/-! ## The displayed line -/

/-- The first line of a text, with its line end if it has one. -/
theorem head?_rawLines {text : List Char} (hne : text ≠ []) : (rawLines text).head?
    = some (text.takeWhile (· ≠ '\n') ++ if '\n' ∈ text then ['\n'] else []) := by
  induction text with
  | nil => exact absurd rfl hne
  | cons c cs ih =>
    rw [rawLines]
    by_cases hc : c = '\n'
    · subst hc
      rw [if_pos rfl, if_pos List.mem_cons_self, List.takeWhile_cons_of_neg (by simp)]
      rfl
    · have hmem : '\n' ∈ c :: cs ↔ '\n' ∈ cs := by
        rw [List.mem_cons, or_iff_right (Ne.symm hc)]
      rw [if_neg hc, List.takeWhile_cons_of_pos (by simpa using hc)]
      simp only [hmem]
      cases cs with
      | nil => rfl
      | cons d ds =>
        have hfirst := ih (List.cons_ne_nil d ds)
        cases hlines : rawLines (d :: ds) with
        | nil =>
          rw [hlines] at hfirst
          cases hfirst
        | cons line lines =>
          rw [hlines, List.head?_cons, Option.some.injEq] at hfirst
          rw [List.head?_cons, hfirst]
          rfl

/-- A text up to its first line end, without that. -/
theorem displayed_head?_rawLines (text : List Char) :
    ((rawLines text).head?.map displayed).getD []
      = if '\n' ∈ text ∧ (text.takeWhile (· ≠ '\n')).getLast? = some '\r' then
          (text.takeWhile (· ≠ '\n')).dropLast
        else text.takeWhile (· ≠ '\n') := by
  cases text with
  | nil => rfl
  | cons c cs =>
    rw [head?_rawLines (List.cons_ne_nil c cs)]
    show displayed _ = _
    generalize htake : (c :: cs).takeWhile (· ≠ '\n') = line
    by_cases hfeed : '\n' ∈ c :: cs
    · rw [if_pos hfeed, displayed, if_pos List.getLast?_concat, lineText_ended, dropLastChar]
      simp only [hfeed, true_and]
    · have hline : OneLine line := fun hn => hfeed (List.takeWhile_subset _ (htake ▸ hn))
      rw [if_neg hfeed, List.append_nil, displayed,
        if_neg fun hlast => hline (List.mem_of_getLast? hlast), if_neg fun h => hfeed h.1]

/-- **The line of a place is the one that the text has by its number**, as it is displayed, or empty if
there is none. -/
theorem wholeLine_eq_getElem? (before rest : List Char) : wholeLine before rest
    = ((rawLines (before ++ rest))[before.count '\n']?.map displayed).getD [] := by
  obtain ⟨front, hbefore, hends, hone⟩ := exists_eq_append_lastLine before
  have hcount : before.count '\n' = (rawLines front).length := by
    rw [hbefore, List.count_append, hone.count_eq, Nat.add_zero, length_rawLines hends]
  have htext : before ++ rest = front ++ (lastLine before ++ rest) := by
    rw [← List.append_assoc, ← hbefore]
  rw [hcount, htext, rawLines_append hends, List.getElem?_append_right (Nat.le_refl _),
    Nat.sub_self, ← List.head?_eq_getElem?, displayed_head?_rawLines, hone.takeWhile_append, wholeLine]
  simp only [List.mem_append, or_iff_right (show ¬ '\n' ∈ lastLine before from hone)]

/-- **What is before the place on its line is displayed first**, unless a carriage return of the line end
is before the place. -/
theorem lastLine_isPrefix {before rest : List Char}
    (h : ¬InsideLineEnd (before ++ rest) (byteSize before)) :
    lastLine before <+: wholeLine before rest := by
  unfold wholeLine
  dsimp only
  split
  · rename_i hreturn
    obtain ⟨hfeed, hlast⟩ := hreturn
    rcases List.eq_nil_or_concat (rest.takeWhile (· ≠ '\n')) with hnil | ⟨front, c, htake⟩
    · -- the line feed follows at once, and the carriage return is the last thing before it
      refine absurd (insideLineEnd_iff.mpr ⟨?_, ?_⟩) h
      · rw [hnil, List.append_nil] at hlast
        obtain ⟨front, hbefore, -, -⟩ := exists_eq_append_lastLine before
        rw [hbefore, List.getLast?_append, hlast]
        rfl
      · cases rest with
        | nil => cases hfeed
        | cons d ds =>
          by_cases hd : d = '\n'
          · rw [hd]
            rfl
          · rw [List.takeWhile_cons_of_pos (by simpa using hd)] at hnil
            cases hnil
    · rw [htake, List.concat_eq_append, ← List.append_assoc, List.dropLast_concat]
      exact List.prefix_append _ _
  · exact List.prefix_append _ _

theorem shown_isPrefix {text more : List Char} (h : text <+: more) : shown text <+: shown more := by
  obtain ⟨rest, rfl⟩ := h
  exact ⟨shown rest, List.flatMap_append.symm⟩

/-! ## The column -/

/-- **A location under a piece of its line**: the column is behind the piece, and what is displayed before
the column is the piece, with four blanks for a tab. -/
structure Under (piece : List Char) (l : Location) : Prop where
  column_eq : l.column = (shown piece).length + 1
  take_eq : l.lineSource.toList.take (l.column - 1) = shown piece

/-- The line reaches up to the column. -/
theorem Under.le_length {piece : List Char} {l : Location} (h : l.Under piece) :
    l.column - 1 ≤ l.lineSource.length := by
  have htake := congrArg List.length h.take_eq
  rw [h.column_eq, Nat.add_sub_cancel, List.length_take, String.length_toList] at htake
  rw [h.column_eq, Nat.add_sub_cancel]
  omega

/-- A piece that the displayed line starts with is what is displayed before its end. -/
theorem under_of_isPrefix {piece source : List Char} {l : Location} (hstart : piece <+: source)
    (hcolumn : l.column = (shown piece).length + 1)
    (hsource : l.lineSource = String.ofList (shown source)) : l.Under piece := by
  refine ⟨hcolumn, ?_⟩
  rw [hsource, String.toList_ofList, hcolumn, Nat.add_sub_cancel]
  exact (List.prefix_iff_eq_take.mp (shown_isPrefix hstart)).symm

/-- **A location is under what is before it on its line.** -/
theorem ofSplit_under {before rest : List Char}
    (h : ¬InsideLineEnd (before ++ rest) (byteSize before)) (length : Option Nat) :
    (ofSplit before rest length).Under (lastLine before) :=
  under_of_isPrefix (lastLine_isPrefix h) rfl rfl

/-- In a line by itself, that is all there is before it. -/
theorem ofSplit_under_of_oneLine {first second : List Char} (hone : OneLine (first ++ second))
    (length : Option Nat) : (ofSplit first second length).Under first := by
  have hfirst : OneLine first := hone.of_isPrefix (List.prefix_append _ _)
  have hunder := ofSplit_under (hone.not_insideLineEnd (byteSize first)) length
  rwa [show lastLine first = first from @lastLine_append [] first rfl hfirst] at hunder

/-- **A place in a line is under the same piece of it, in the line and in the text**, unless it is inside
a line end of the text. -/
theorem relocate_under {text front : List Char} {l : Line} {p : Place} (hl : l.IsIn text front)
    (hp : p.IsIn l.text) (hinside : ¬InsideLineEnd text (l.start + p.offset)) :
    ∃ here there piece, locate l.text p.offset p.length = .ok here
      ∧ here.relocate text l.start = .ok there
      ∧ piece <+: l.text ∧ byteSize piece = p.offset ∧ here.Under piece ∧ there.Under piece := by
  obtain ⟨first, second, hsplit, hoffset⟩ := hp.exists_split
  obtain ⟨more, hmore⟩ := hl.prefix_text
  have hone : OneLine (first ++ second) := hsplit ▸ hl.oneLine
  have hfirst : OneLine first := hone.of_isPrefix (List.prefix_append _ _)
  have htext : text = (front ++ first) ++ (second ++ more) := by
    rw [← hmore, hsplit]
    simp only [List.append_assoc]
  have hsum : l.start + p.offset = byteSize (front ++ first) := by
    rw [byteSize_append, hl.start_eq, hoffset]
  have hthere := hp.of_line hl
  rw [hsplit] at hp
  rw [hsum, htext] at hinside
  rw [htext] at hthere
  have hlast : lastLine (front ++ first) = first := lastLine_append hl.starts hfirst
  refine ⟨_, _, first, ?_, ?_, ⟨second, hsplit.symm⟩, hoffset.symm,
    ofSplit_under_of_oneLine hone p.length, hlast ▸ ofSplit_under hinside p.length⟩
  · rw [hsplit]
    exact locate_eq_ok hp hoffset
  · show locate text (l.start + byteSize first) p.length = _
    rw [← hoffset, htext]
    exact locate_eq_ok hthere hsum

/-! ### The lines of a text -/

/-- What is displayed of a line starts with its text. -/
theorem lineText_isPrefix_displayed (raw : List Char) : lineText raw <+: displayed raw := by
  unfold displayed
  split
  · exact List.prefix_rfl
  · exact lineText_isPrefix raw

/-- The lines that a text falls into have no part of their line ends, so nothing in them is inside
one. -/
theorem relocate_under_of_mem {text : List Char} {l : Line} {p : Place} (hl : l ∈ linesOf text)
    (hp : p.IsIn l.text) :
    ∃ here there piece, locate l.text p.offset p.length = .ok here
      ∧ here.relocate text l.start = .ok there
      ∧ piece <+: l.text ∧ byteSize piece = p.offset ∧ here.Under piece ∧ there.Under piece := by
  obtain ⟨raw, hraw⟩ := Line.StandsIn.of_mem hl
  obtain ⟨here, hhere, hthere⟩ := relocate_eq_placed hraw hp
  obtain ⟨before, hin⟩ := hraw.isIn
  obtain ⟨first, second, hsplit, hoffset⟩ := hp.exists_split
  have hone : OneLine (first ++ second) := hsplit ▸ hin.oneLine
  have hlocate : locate l.text p.offset p.length = .ok (ofSplit first second p.length) := by
    rw [hsplit] at hp ⊢
    exact locate_eq_ok hp hoffset
  obtain rfl : here = ofSplit first second p.length := Except.ok.inj (hhere.symm.trans hlocate)
  have hunder := ofSplit_under_of_oneLine hone p.length
  have hstart : first <+: displayed raw := by
    obtain ⟨front, back, -, rfl⟩ := hraw
    exact List.IsPrefix.trans ⟨second, hsplit.symm⟩ (lineText_isPrefix_displayed raw)
  exact ⟨_, _, first, hhere, hthere, ⟨second, hsplit.symm⟩, hoffset.symm, hunder,
    under_of_isPrefix hstart hunder.column_eq rfl⟩

/-! ## Carets -/

/-- **A caret stands under what it is about.** At every place between two characters of a text, unless
that is inside a line end, the location counts the line feeds before the place, displays the line of that
number, and has its column behind as much of it as stands between the last line end and the place. A place
in a line of the text, which the line by itself has a location for, has one in the text as well, and both
are under the same piece of the line. For the lines that the text falls into this holds at every place. -/
theorem caret_under :
    (∀ before rest, ¬InsideLineEnd (before ++ rest) (byteSize before) →
      ∃ l front piece, locate (before ++ rest) (byteSize before) none = .ok l
        ∧ before = front ++ piece ∧ EndsLine front ∧ OneLine piece
        ∧ l.line = before.count '\n' + 1
        ∧ l.lineSource = String.ofList
          (shown (((rawLines (before ++ rest))[l.line - 1]?.map displayed).getD []))
        ∧ l.Under piece ∧ l.column - 1 ≤ l.lineSource.length)
    ∧ (∀ text front l p, Line.IsIn text front l → Place.IsIn l.text p →
      (¬InsideLineEnd text (l.start + p.offset) ∨ l ∈ linesOf text) →
      ∃ here there piece, locate l.text p.offset p.length = .ok here
        ∧ here.relocate text l.start = .ok there
        ∧ piece <+: l.text ∧ byteSize piece = p.offset ∧ here.Under piece ∧ there.Under piece) := by
  refine ⟨fun before rest hinside => ?_, fun text front l p hl hp h => ?_⟩
  · obtain ⟨front, hbefore, hends, hone⟩ := exists_eq_append_lastLine before
    have hlocate : locate (before ++ rest) (byteSize before) none = .ok (ofSplit before rest none) :=
      locate_eq_ok (.point (List.prefix_append before rest)) rfl
    have hunder := ofSplit_under hinside none
    have hline := congrArg (String.ofList ∘ shown) (wholeLine_eq_getElem? before rest)
    exact ⟨_, front, lastLine before, hlocate, hbefore, hends, hone, rfl, hline, hunder,
      hunder.le_length⟩
  · rcases h with hinside | hmem
    · exact relocate_under hl hp hinside
    · exact relocate_under_of_mem hmem hp

/-- A place behind a tab and a character of two bytes, on a line between two line ends of two
characters; in the line by itself and in the text. -/
theorem caret_under_tab :
    let before := "# Ω\r\n\tµ ".toList
    let rest := "= x\r\n".toList
    let line : Line := ⟨2, 6, "\tµ = x".toList⟩
    let here : Location := ⟨4, 1, 7, none, "    µ = x"⟩
    let there : Location := ⟨10, 2, 7, none, "    µ = x"⟩
    ¬InsideLineEnd (before ++ rest) (byteSize before)
    ∧ locate (before ++ rest) (byteSize before) none = .ok there
    ∧ locate line.text 4 none = .ok here ∧ here.relocate (before ++ rest) line.start = .ok there
    ∧ line ∈ linesOf (before ++ rest)
    ∧ there.column - 1 ≤ there.lineSource.length
    ∧ ∃ piece, here.Under piece ∧ there.Under piece := by
  intro before rest line here there
  have hinside : ¬InsideLineEnd (before ++ rest) (byteSize before) :=
    mt insideLineEnd_iff.mp (by decide +kernel)
  have hhere : locate line.text 4 none = .ok here := by decide +kernel
  have hthere : locate (before ++ rest) (byteSize before) none = .ok there := by decide +kernel
  have hmem : line ∈ linesOf (before ++ rest) := by decide +kernel
  obtain ⟨hplaces, hlines⟩ := caret_under
  obtain ⟨l, -, -, hl, -, -, -, -, -, -, hlength⟩ := hplaces before rest hinside
  obtain rfl : there = l := Except.ok.inj (hthere.symm.trans hl)
  obtain ⟨front, hline⟩ := mem_linesOf hmem
  have hplace : Place.IsIn line.text ⟨byteSize "\tµ ".toList, none⟩ := .point (by decide +kernel)
  obtain ⟨x, y, piece, hx, hy, -, -, hunder, hunder'⟩ :=
    hlines _ front line _ hline hplace (.inr hmem)
  obtain rfl : here = x := Except.ok.inj (hhere.symm.trans hx)
  obtain rfl : there = y := Except.ok.inj (hthere.symm.trans hy)
  exact ⟨hinside, hthere, hhere, hy, hmem, hlength, piece, hunder, hunder'⟩

end Location

end WorstCase
