import WorstCase.Proofs.Source.LineEnds
import WorstCase.Proofs.Source.Placement

/-!
# One line in two texts

A location in a text is made of four things: the place in the line, where the line starts, which one it
is, and the line as it is displayed. Nothing else in the text counts (`Location.relocate_eq_placed`).
So if the same line stands in two texts, what is located in it in the one is located in it in the
other, moved as the line is, and so are the reports about it (`Report.inLine_mapLocations`).
-/

namespace WorstCase

/-! ## Lines with their ends, in a text -/

/-- **A line in a text, with its line end** if it has one. -/
def Line.StandsIn (text raw : List Char) (l : Line) : Prop :=
  ∃ front back, rawLines text = front ++ raw :: back
    ∧ l = ⟨front.length + 1, byteSize front.flatten, lineText raw⟩

namespace Line.StandsIn

variable {text raw : List Char} {l : Line}

theorem of_mem (h : l ∈ linesOf text) : ∃ raw, l.StandsIn text raw := by
  obtain ⟨front, raw, back, hraws, hl⟩ := exists_rawLines h
  exact ⟨raw, front, back, hraws, hl⟩

theorem isIn (h : l.StandsIn text raw) : ∃ before, l.IsIn text before := by
  obtain ⟨front, back, hraws, rfl⟩ := h
  exact ⟨_, Line.isIn_of_rawLines hraws⟩

/-- **More text behind an ended line leaves it where it is.** -/
theorem append (h : l.StandsIn text raw) (hends : EndsLine text) (more : List Char) :
    l.StandsIn (text ++ more) raw := by
  obtain ⟨front, back, hraws, rfl⟩ := h
  refine ⟨front, back ++ rawLines more, ?_, rfl⟩
  rw [rawLines_append hends, hraws, List.append_assoc, List.cons_append]

/-- **Ended lines before it move it** by their number and their bytes. -/
theorem shift {before : List Char} (h : l.StandsIn text raw) (hends : EndsLine before) :
    (l.shift (before.count '\n') (byteSize before)).StandsIn (before ++ text) raw := by
  obtain ⟨front, back, hraws, rfl⟩ := h
  refine ⟨rawLines before ++ front, back, ?_, ?_⟩
  · rw [rawLines_append hends, hraws, List.append_assoc]
  · rw [List.length_append, length_rawLines hends, List.flatten_append, flatten_rawLines,
      byteSize_append, Nat.add_comm (before.count '\n'), Nat.add_comm (byteSize before),
      Nat.add_right_comm]
    rfl

/-- **Carriage returns move it** by one byte for each line before it. -/
theorem afterReturns (h : l.StandsIn text raw) (hreturn : '\r' ∉ text) :
    l.afterReturns.StandsIn (crlf text) (crlf raw) := by
  obtain ⟨front, back, hraws, rfl⟩ := h
  obtain ⟨hfront, hraw⟩ := rawLines_split hraws
  refine ⟨front.map crlf, back.map crlf, ?_, ?_⟩
  · rw [rawLines_crlf, hraws, List.map_append, List.map_cons]
  · rw [Line.afterReturns, List.length_map, lineText_crlf hraw (not_mem_of_rawLines hraws hreturn),
      ← crlf_flatten, byteSize_crlf, count_flatten hfront]
    rfl

/-- It is displayed without them. -/
theorem displayed_crlf (h : l.StandsIn text raw) (hreturn : '\r' ∉ text) :
    displayed (crlf raw) = displayed raw := by
  obtain ⟨front, back, hraws, -⟩ := h
  exact WorstCase.displayed_crlf (rawLines_split hraws).2 (not_mem_of_rawLines hraws hreturn)

end Line.StandsIn

namespace Location

/-- **The line that is displayed with a place in it.** -/
theorem wholeLine_eq {text raw first second more : List Char} {front back : List (List Char)}
    (h : rawLines text = front ++ raw :: back) (hsplit : lineText raw = first ++ second)
    (htext : text = front.flatten ++ lineText raw ++ more) :
    wholeLine (front.flatten ++ first) (second ++ more) = displayed raw := by
  obtain ⟨hfront, hraw⟩ := rawLines_split h
  have hfirst : OneLine first := (lineText_oneLine hraw).of_isPrefix ⟨second, hsplit.symm⟩
  have hlast := lastLine_append (lastLine_flatten hfront) hfirst
  -- what is behind the first part by the text is so by the line
  have hbehind : first ++ (second ++ more) = raw ++ back.flatten := by
    have hflat : text = front.flatten ++ (raw ++ back.flatten) := by
      rw [← flatten_rawLines text, h, List.flatten_append, List.flatten_cons]
    rw [htext, hsplit] at hflat
    simpa only [List.append_assoc, List.append_cancel_left_eq] using hflat
  rw [wholeLine, hlast]
  rcases hraw with ⟨body, hbody, rfl⟩ | hone
  · rw [lineText_ended] at hsplit
    obtain ⟨rest, rfl⟩ : first <+: body :=
      List.IsPrefix.trans ⟨second, hsplit.symm⟩ (dropLastChar_isPrefix '\r' body)
    rw [List.append_assoc, List.append_assoc, List.append_cancel_left_eq] at hbehind
    have hrest : OneLine rest := fun hn => hbody (List.mem_append_right _ hn)
    have hfeed : '\n' ∈ second ++ more := by
      rw [hbehind]
      exact List.mem_append_right _ List.mem_cons_self
    have hline : first ++ (second ++ more).takeWhile (· ≠ '\n') = first ++ rest := by
      rw [hbehind, hrest.takeWhile_append, List.singleton_append, List.takeWhile_cons_of_neg (by simp),
        List.append_nil]
    rw [hline, displayed, if_pos List.getLast?_concat, lineText_ended, dropLastChar]
    simp only [hfeed, true_and]
  · -- a line without a line feed is the last
    have hback : back = [] := by
      cases back with
      | nil => rfl
      | cons next back =>
        have hnext : rawLines text = (front ++ [raw]) ++ next :: back := by
          rw [h, List.append_assoc, List.singleton_append]
        obtain ⟨body, -, rfl⟩ :=
          (rawLines_split hnext).1 raw (List.mem_append_right _ List.mem_cons_self)
        exact absurd (List.mem_append_right _ List.mem_cons_self) hone
    rw [hback, List.flatten_nil, List.append_nil] at hbehind
    have hfeed : '\n' ∉ second ++ more := fun hn => hone (hbehind ▸ List.mem_append_right _ hn)
    have hline : first ++ (second ++ more).takeWhile (· ≠ '\n') = raw := by
      have htake := OneLine.takeWhile_append hfeed []
      rw [List.append_nil, List.takeWhile_nil, List.append_nil] at htake
      rw [htake, hbehind]
    rw [hline, displayed, if_neg fun hlast => hone (List.mem_of_getLast? hlast),
      if_neg fun h => hfeed h.1]

/-- **The location in a text of what has a location in one of its lines.** -/
def placed (l : Line) (source : List Char) (here : Location) : Location :=
  { here with
    offset := l.start + here.offset
    line := l.number
    lineSource := String.ofList (shown source) }

theorem MovedBy.eq_placed {l : Line} {source : List Char} {here there : Location}
    (h : here.MovedBy l there) (hsource : there.lineSource = String.ofList (shown source)) :
    there = here.placed l source := by
  obtain ⟨offset, line, column, length, lineSource⟩ := there
  obtain ⟨hline, hcolumn, hlength, hoffset⟩ := h
  cases hline
  cases hcolumn
  cases hlength
  cases hoffset
  cases hsource
  rfl

/-- **What is located in a line is located in the text**, by the line and by where it stands. -/
theorem relocate_eq_placed {text raw : List Char} {l : Line} {p : Place} (h : l.StandsIn text raw)
    (hp : p.IsIn l.text) :
    ∃ here, locate l.text p.offset p.length = .ok here
      ∧ here.relocate text l.start = .ok (here.placed l (displayed raw)) := by
  obtain ⟨front, back, hraws, rfl⟩ := h
  have hline := Line.isIn_of_rawLines hraws
  obtain ⟨more, hmore⟩ := hline.prefix_text
  obtain ⟨first, second, hsplit, hhere, hthere⟩ := relocate_split hline hmore.symm hp
  have hmoved : (ofSplit first second p.length).MovedBy _
      (ofSplit (front.flatten ++ first) (second ++ more) p.length) :=
    ofSplit_movedBy hline ⟨second, hsplit.symm⟩
  refine ⟨_, hhere, hthere.trans (congrArg Except.ok (hmoved.eq_placed ?_))⟩
  exact congrArg (String.ofList ∘ shown) (wholeLine_eq hraws hsplit hmore.symm)

end Location

/-! ## Reports -/

namespace Report

/-- **The report with all its locations moved.** -/
def mapLocations (f : Location → Location) (r : Report) : Report :=
  { r with location := r.location.map f, located := r.located.map (Prod.map id f) }

theorem ofDiagnosis_mapLocations {d : Diagnosis} {f : Location → Location}
    {here there : Place → Except LocationError Location} (origin : String)
    (h : ∀ p ∈ d.places, BothPlace (fun x y => y = f x) here there p) :
    ∃ r, ofDiagnosis origin d here = .ok r ∧ ofDiagnosis origin d there = .ok (r.mapLocations f) := by
  obtain ⟨⟨x, y, hx, hy, rfl⟩, hremarks⟩ := List.forall_mem_cons.mp h
  obtain ⟨xs, ys, hxs, hys, hplain, hlocated⟩ := mapM_placeRemark hremarks
  have hmapped : List.Forall₂ (· = ·) ((xs.filterMap locatedRemark).map (Prod.map id f))
      (ys.filterMap locatedRemark) := by
    refine List.forall₂_map_left_iff.mpr (hlocated.imp ?_)
    rintro ⟨advice, location⟩ y ⟨hadvice, hlocation⟩
    exact (Prod.ext hadvice hlocation : y = (advice, f location)).symm
  rw [List.forall₂_eq_eq_eq] at hmapped
  refine ⟨_, ofDiagnosis_eq_ok origin hx hxs, ?_⟩
  rw [ofDiagnosis_eq_ok origin hy hys, hplain, ← hmapped]
  rfl

/-- **A diagnosis of one line in two texts**: where the line is displayed alike, the reports differ as
the line's place does. -/
theorem inLine_mapLocations {text text' raw raw' : List Char} {l l' : Line} {d : Diagnosis}
    {f : Location → Location} (origin : String) (h : l.StandsIn text raw) (h' : l'.StandsIn text' raw')
    (htext : l'.text = l.text) (hshown : displayed raw' = displayed raw)
    (hf : ∀ here : Location, f (here.placed l (displayed raw)) = here.placed l' (displayed raw))
    (hd : ∀ p ∈ d.places, p.IsIn l.text) :
    ∃ r, inLine origin text l.text l.start d = .ok r
      ∧ inLine origin text' l'.text l'.start d = .ok (r.mapLocations f) := by
  refine ofDiagnosis_mapLocations origin fun p hp => ?_
  obtain ⟨x, hx, hthere⟩ := Location.relocate_eq_placed h (hd p hp)
  obtain ⟨x', hx', hthere'⟩ := Location.relocate_eq_placed h' (htext ▸ hd p hp)
  have hsame : x' = x := by
    rw [htext, hx] at hx'
    exact (Except.ok.inj hx').symm
  rw [hsame, hshown] at hthere'
  rw [hsame] at hx'
  exact ⟨_, _, Except.bind_eq_ok.mpr ⟨x, hx, hthere⟩, Except.bind_eq_ok.mpr ⟨x, hx', hthere'⟩,
    (hf x).symm⟩

end Report

end WorstCase
