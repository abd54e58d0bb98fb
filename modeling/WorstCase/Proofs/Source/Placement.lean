import Mathlib.Data.List.Forall2
import WorstCase.Proofs.Except
import WorstCase.Proofs.Source.Lines
import WorstCase.Proofs.Source.Slices
import WorstCase.Source.Report

/-!
# Places have locations

A place that is a piece of a text has a location there (`Location.locate_eq_ok`),
so nothing can go wrong with a diagnosis whose places are pieces of the text. A
piece of a line is also a piece of every text that has the line. Its location
there has the line's number, and is further on by the line's start; the column
and the length stay what they were (`Location.relocate_eq_ok`). All places of a
diagnosis move alike, and its report with them (`Report.inLine_eq_ok`).
-/

namespace WorstCase

/-! ## Locations -/

/-- **A place that is in a text**: a point between two characters, or a piece of
one line. -/
inductive Place.IsIn (text : List Char) : Place → Prop where
  /-- A point. -/
  | point {before : List Char} (h : before <+: text) : IsIn text ⟨byteSize before, none⟩
  /-- A piece. -/
  | piece {before meant : List Char} (h : before ++ meant <+: text) (hne : meant ≠ [])
    (hline : OneLine meant) : IsIn text ⟨byteSize before, some (byteSize meant)⟩

/-- **What is in a line of a text is in the text**, further on by the start of
the line. -/
theorem Place.IsIn.of_line {text before : List Char} {line : Line} {p : Place}
    (hline : line.IsIn text before) (h : p.IsIn line.text) :
    Place.IsIn text ⟨line.start + p.offset, p.length⟩ := by
  cases h with
  | @point front h =>
    rw [hline.start_eq, ← byteSize_append]
    exact .point (((List.prefix_append_right_inj before).mpr h).trans hline.prefix_text)
  | @piece front meant h hne hmeant =>
    rw [hline.start_eq, ← byteSize_append]
    refine .piece ?_ hne hmeant
    rw [List.append_assoc]
    exact ((List.prefix_append_right_inj before).mpr h).trans hline.prefix_text

/-- A place in a text has a text before it. -/
theorem Place.IsIn.exists_split {text : List Char} {p : Place} (h : p.IsIn text) :
    ∃ before rest, text = before ++ rest ∧ p.offset = byteSize before := by
  cases h with
  | point h =>
    obtain ⟨rest, rfl⟩ := h
    exact ⟨_, rest, rfl, rfl⟩
  | piece h hne hline =>
    obtain ⟨rest, rfl⟩ := h
    exact ⟨_, _, List.append_assoc _ _ _, rfl⟩

namespace Location

/-- **A place in a text has a location**, between what is before it and what
follows. -/
theorem locate_eq_ok {before rest : List Char} {p : Place} (h : p.IsIn (before ++ rest))
    (hoffset : p.offset = byteSize before) :
    locate (before ++ rest) p.offset p.length = .ok (ofSplit before rest p.length) := by
  cases h with
  | @point front h =>
    unfold locate
    rw [if_neg (by rw [hoffset, byteSize_append]; omega), hoffset]
    dsimp only
    rw [splitAtByte?_append]
  | @piece front meant h hne hmeant =>
    obtain ⟨back, hback⟩ := h
    rw [List.append_assoc] at hback
    obtain ⟨rfl, rfl⟩ := append_inj_of_byteSize hback hoffset
    unfold locate
    rw [if_neg (by simp only [byteSize_append]; omega)]
    dsimp only
    rw [if_neg (fun h => hne (byteSize_eq_zero.mp h)),
      if_neg (by simp only [byteSize_append]; omega), splitAtByte?_append]
    dsimp only
    rw [splitAtByte?_append]
    exact if_neg hmeant

/-- Behind the start of a line only what follows there counts. -/
theorem lastLine_append {before piece : List Char} (hstart : lastLine before = [])
    (hpiece : OneLine piece) : lastLine (before ++ piece) = piece := by
  have hreverse : OneLine piece.reverse := fun hn => hpiece (List.mem_reverse.mp hn)
  have hnone : before.reverse.takeWhile (· ≠ '\n') = [] := List.reverse_eq_nil_iff.mp hstart
  unfold lastLine
  rw [List.reverse_append, hreverse.takeWhile_append, hnone, List.append_nil,
    List.reverse_reverse]

/-- **A location of a line, moved to where the line is.** -/
structure MovedBy (line : Line) (here there : Location) : Prop where
  /-- It is on that line. -/
  line_eq : there.line = line.number
  column_eq : there.column = here.column
  length_eq : there.length = here.length
  /-- It is as far behind the start of the line as it was. -/
  offset_eq : there.offset = line.start + here.offset

/-- Between the same two parts of a line, a location is moved by what the line
comes after. -/
theorem ofSplit_movedBy {text before front back more : List Char} {line : Line}
    {length : Option Nat} (hline : line.IsIn text before) (hfront : front <+: line.text) :
    (ofSplit front back length).MovedBy line (ofSplit (before ++ front) more length) := by
  have hone : OneLine front := hline.oneLine.of_isPrefix hfront
  have hlast : lastLine front = front := @lastLine_append [] front rfl hone
  refine ⟨?_, ?_, rfl, ?_⟩
  · show (before ++ front).count '\n' + 1 = line.number
    rw [List.count_append, hone.count_eq, hline.number_eq]
  · show (shown (lastLine (before ++ front))).length + 1 = (shown (lastLine front)).length + 1
    rw [lastLine_append hline.starts hone, hlast]
  · show byteSize (before ++ front) = line.start + byteSize front
    rw [byteSize_append, hline.start_eq]

/-- A place in a line of a text falls between two parts of the line, and in the
text between what these come after and before. -/
theorem relocate_split {text before more : List Char} {line : Line} {p : Place}
    (hline : line.IsIn text before) (htext : text = before ++ line.text ++ more)
    (h : p.IsIn line.text) :
    ∃ front back, line.text = front ++ back
      ∧ locate line.text p.offset p.length = .ok (ofSplit front back p.length)
      ∧ (ofSplit front back p.length).relocate text line.start
        = .ok (ofSplit (before ++ front) (back ++ more) p.length) := by
  obtain ⟨front, back, hsplit, hoffset⟩ := h.exists_split
  have htext' : text = (before ++ front) ++ (back ++ more) := by
    rw [htext, hsplit]
    simp only [List.append_assoc]
  have hthere := h.of_line hline
  have hsum : line.start + p.offset = byteSize (before ++ front) := by
    rw [byteSize_append, hline.start_eq, hoffset]
  refine ⟨front, back, hsplit, ?_, ?_⟩
  · rw [hsplit] at h ⊢
    exact locate_eq_ok h hoffset
  · show locate text (line.start + byteSize front) p.length = _
    rw [← hoffset]
    rw [htext'] at hthere ⊢
    exact locate_eq_ok hthere hsum

/-- **A place in a line of a text moves to the text.** -/
theorem relocate_eq_ok {text before : List Char} {line : Line} {p : Place}
    (hline : line.IsIn text before) (h : p.IsIn line.text) :
    ∃ here there, locate line.text p.offset p.length = .ok here
      ∧ here.relocate text line.start = .ok there ∧ here.MovedBy line there := by
  obtain ⟨more, hmore⟩ := hline.prefix_text
  obtain ⟨front, back, hsplit, hhere, hthere⟩ := relocate_split hline hmore.symm h
  exact ⟨_, _, hhere, hthere, ofSplit_movedBy hline ⟨back, hsplit.symm⟩⟩

end Location

/-! ## Reports -/

/-- All places of a diagnosis. -/
def Diagnosis.places (d : Diagnosis) : List Place :=
  d.place :: d.remarks.filterMap Prod.snd

/-- **The report of a line, moved to where the line is.** It says the same, and
every location in it is moved. -/
structure Report.MovedBy (line : Line) (here there : Report) : Prop where
  origin_eq : there.origin = here.origin
  message_eq : there.message = here.message
  advice_eq : there.advice = here.advice
  /-- The fault is shown in the line, and where the line is. -/
  location : ∃ x y, here.location = some x ∧ there.location = some y ∧ x.MovedBy line y
  /-- So is all else that has a location. -/
  located : List.Forall₂ (fun x y => y.1 = x.1 ∧ x.2.MovedBy line y.2) here.located there.located

namespace Report

variable {line : Line} {here there : Place → Except LocationError Location}
variable {moved : Location → Location → Prop}

/-- A place that one rule puts here, and another there. -/
def BothPlace (moved : Location → Location → Prop)
    (here there : Place → Except LocationError Location) (p : Place) : Prop :=
  ∃ x y, here p = .ok x ∧ there p = .ok y ∧ moved x y

/-- All remarks move alike. -/
theorem mapM_placeRemark {remarks : List (Advice × Option Place)}
    (h : ∀ p ∈ remarks.filterMap Prod.snd, BothPlace moved here there p) :
    ∃ xs ys, remarks.mapM (placeRemark here) = .ok xs
      ∧ remarks.mapM (placeRemark there) = .ok ys
      ∧ ys.filterMap plainRemark = xs.filterMap plainRemark
      ∧ List.Forall₂ (fun x y => y.1 = x.1 ∧ moved x.2 y.2)
        (xs.filterMap locatedRemark) (ys.filterMap locatedRemark) := by
  induction remarks with
  | nil => exact ⟨[], [], rfl, rfl, rfl, .nil⟩
  | cons remark remarks ih =>
    obtain ⟨advice, place⟩ := remark
    cases place with
    | none =>
      obtain ⟨xs, ys, hxs, hys, hplain, hlocated⟩ := ih h
      refine ⟨(advice, none) :: xs, (advice, none) :: ys, ?_, ?_, ?_, hlocated⟩
      · rw [List.mapM_cons, hxs]
        rfl
      · rw [List.mapM_cons, hys]
        rfl
      · exact congrArg (List.cons advice) hplain
    | some p =>
      obtain ⟨⟨x, y, hx, hy, hmoved⟩, hrest⟩ := List.forall_mem_cons.mp h
      obtain ⟨xs, ys, hxs, hys, hplain, hlocated⟩ := ih hrest
      refine ⟨(advice, some x) :: xs, (advice, some y) :: ys, ?_, ?_, hplain,
        .cons ⟨rfl, hmoved⟩ hlocated⟩
      · rw [List.mapM_cons, placeRemark, hx, hxs]
        rfl
      · rw [List.mapM_cons, placeRemark, hy, hys]
        rfl

/-- A report is made when all places have locations. -/
theorem ofDiagnosis_eq_ok {d : Diagnosis} {locate : Place → Except LocationError Location}
    {location : Location} {remarks : List (Advice × Option Location)} (origin : String)
    (hplace : locate d.place = .ok location)
    (hremarks : d.remarks.mapM (placeRemark locate) = .ok remarks) :
    ofDiagnosis origin d locate = .ok ⟨origin, d.message, some location,
      d.advice ++ remarks.filterMap plainRemark, remarks.filterMap locatedRemark⟩ := by
  rw [ofDiagnosis, hplace, hremarks]
  rfl

/-- **A report moves with its places.** -/
theorem ofDiagnosis_movedBy {d : Diagnosis} (origin : String)
    (h : ∀ p ∈ d.places, BothPlace (·.MovedBy line ·) here there p) :
    ∃ r s, ofDiagnosis origin d here = .ok r ∧ ofDiagnosis origin d there = .ok s
      ∧ r.MovedBy line s := by
  obtain ⟨⟨x, y, hx, hy, hmoved⟩, hremarks⟩ := List.forall_mem_cons.mp h
  obtain ⟨xs, ys, hxs, hys, hplain, hlocated⟩ := mapM_placeRemark hremarks
  refine ⟨_, _, ofDiagnosis_eq_ok origin hx hxs, ofDiagnosis_eq_ok origin hy hys, ?_⟩
  exact ⟨rfl, rfl, congrArg (d.advice ++ ·) hplain, ⟨x, y, rfl, rfl, hmoved⟩, hlocated⟩

/-- **A diagnosis of a text can be reported in it**, in its own words and with
its place. -/
theorem inText_eq_ok {text : List Char} {d : Diagnosis} (origin : String)
    (h : ∀ p ∈ d.places, p.IsIn text) :
    ∃ r, inText origin text d = .ok r ∧ r.message = d.message ∧ r.location.isSome = true := by
  let locate (p : Place) := Location.locate text p.offset p.length
  have hlocate : ∀ p ∈ d.places, BothPlace (fun _ _ => True) locate locate p := by
    intro p hp
    obtain ⟨front, back, rfl, hoffset⟩ := (h p hp).exists_split
    have hat := Location.locate_eq_ok (h p hp) hoffset
    exact ⟨_, _, hat, hat, trivial⟩
  obtain ⟨⟨x, -, hx, -, -⟩, hremarks⟩ := List.forall_mem_cons.mp hlocate
  obtain ⟨xs, -, hxs, -⟩ := mapM_placeRemark hremarks
  exact ⟨_, ofDiagnosis_eq_ok origin hx hxs, rfl, rfl⟩

/-- **A diagnosis of a line can be reported in the text**, as it can in the line
alone, and the one report is the other moved to where the line is. -/
theorem inLine_eq_ok {text before : List Char} {d : Diagnosis} (origin : String)
    (hline : line.IsIn text before) (h : ∀ p ∈ d.places, p.IsIn line.text) :
    ∃ r s, inText origin line.text d = .ok r
      ∧ inLine origin text line.text line.start d = .ok s ∧ r.MovedBy line s := by
  refine ofDiagnosis_movedBy origin fun p hp => ?_
  obtain ⟨x, y, hx, hy, hmoved⟩ := Location.relocate_eq_ok hline (h p hp)
  exact ⟨x, y, hx, Except.bind_eq_ok.mpr ⟨x, hx, hy⟩, hmoved⟩

end Report

end WorstCase
