import WorstCase.Program
import WorstCase.Proofs.Session.Composition
import WorstCase.Proofs.Source.Columns
import WorstCase.Proofs.Terminal

/-!
# Markers

Below the line of a report stands a marker: blanks up to the column of the place, a caret, and dashes.
How long it is is a count of bytes, since what is meant is given by a span. How long the text is that is
printed above it is a count of characters, a tab taking four. So the marker starts below what is meant, and
ends below the end of it only if the one makes up for the other (`Location.length_shown`,
`byteSize_eq_length_add`): it is too long by every byte of a character but the first, and too short by
three for every tab.
-/

namespace WorstCase

open Terminal

/-! ## Columns and bytes -/

/-- **How many bytes the characters of a text have beyond the first of each.** -/
def furtherBytes : List Char → Nat
  | [] => 0
  | c :: text => (c.utf8Size - 1) + furtherBytes text

/-- A text has a byte for every character, and further ones. -/
theorem byteSize_eq_length_add (text : List Char) :
    byteSize text = text.length + furtherBytes text := by
  induction text with
  | nil => rfl
  | cons c text ih =>
    have hsize := Char.utf8Size_pos c
    rw [byteSize_cons, furtherBytes, List.length_cons, ih]
    omega

/-- **A text takes a column for every character, and three more for every tab.** -/
theorem Location.length_shown (text : List Char) :
    (shown text).length = text.length + 3 * text.count '\t' := by
  induction text with
  | nil => rfl
  | cons c text ih =>
    rw [shown, List.flatMap_cons, List.length_append, ← shown, ih, List.length_cons]
    by_cases hc : c = '\t'
    · rw [if_pos hc, hc, List.count_cons_self]
      simp only [List.length_cons, List.length_nil]
      omega
    · rw [if_neg hc, List.count_cons_of_ne hc]
      simp only [List.length_cons, List.length_nil]
      omega

theorem toList_pushn (s : String) (c : Char) (n : Nat) :
    (s.pushn c n).toList = s.toList ++ List.replicate n c := by
  induction n with
  | zero => exact (List.append_nil _).symm
  | succ n ih =>
    have hpush : s.pushn c (n + 1) = (s.pushn c n).push c := rfl
    rw [hpush, String.toList_push, ih, List.append_assoc, List.replicate_succ']

namespace Diagnostic

/-! ## What is printed below a line -/

/-- **A marker as it shows**: a caret, and dashes up to the width. -/
def underline (width : Nat) : String := "^" ++ "".pushn '-' (width - 1)

theorem length_underline {width : Nat} (h : 0 < width) : (underline width).length = width := by
  rw [underline, ← String.length_toList, String.toList_append, toList_pushn]
  simp
  omega

/-- **The line with the marker**, as it shows: the margin, blanks up to the column, and the marker. -/
theorem plain_markerLine (l : Location) (style : Style) :
    ∃ gap numbered below, sourceLines l style = [gap, numbered, below]
      ∧ numbered = styled marginStyle (toString l.line) ++ .text " " :: styled marginStyle "|"
        ++ [.text (" " ++ l.lineSource)]
      ∧ plain below = blanks (toString l.line).length ++ " | " ++ blanks (l.column - 1)
        ++ underline l.shownLength := by
  refine ⟨_, _, _, rfl, rfl, ?_⟩
  have hbar : " | " = " " ++ ("|" ++ " ") := by decide
  rw [plain_eq_join]
  · simp only [styled, marker, underline, List.cons_append, List.nil_append, List.map_cons, List.map_nil,
      Piece.bare, String.join_cons, String.join_nil, String.append_empty, String.empty_append,
      String.append_assoc, hbar]
  · have hshows : IsShown [' ', '|', '^', '-'] := isShown_iff.mpr (by decide)
    simp only [IsShown, List.forall_mem_cons] at hshows
    simp [styled, marker, blanks, Piece.bare, toList_pushn, IsShown, hshows]

end Diagnostic

/-! ## Pieces of a line -/

/-- **The place of a piece of a text**, by what is before it. An empty piece is a point. -/
def Place.behind (before meant : List Char) : Place :=
  ⟨byteSize before, if meant = [] then none else some (byteSize meant)⟩

/-- All places in a text are such places. -/
theorem Place.IsIn.exists_behind {text : List Char} {p : Place} (h : p.IsIn text) :
    ∃ before meant, before ++ meant <+: text ∧ p = .behind before meant := by
  cases h with
  | @point before h => exact ⟨before, [], by rwa [List.append_nil], rfl⟩
  | @piece before meant h hne hline => exact ⟨before, meant, h, by rw [behind, if_neg hne]⟩

theorem Place.behind_isIn {text before meant : List Char} (h : before ++ meant <+: text)
    (hone : OneLine text) : (behind before meant).IsIn text := by
  unfold behind
  split
  · exact .point ((List.prefix_append _ _).trans h)
  · rename_i hne
    exact .piece h hne fun hn => hone (h.subset (List.mem_append_right _ hn))

/-- The place of a span is that of its text, behind what is before the span. -/
theorem Span.IsIn.exists_behind {text : List Char} {s : Span} (h : s.IsIn text) :
    ∃ before meant, before ++ meant <+: text ∧ meant ≠ [] ∧ byteSize before = s.start.offset
      ∧ s.textIn text = some meant ∧ s.place = .behind before meant := by
  obtain ⟨before, meant, hfront, hne, hline, rfl⟩ := h
  have hsize : Span.size ⟨Position.start.after before, Position.start.after (before ++ meant)⟩
      = byteSize meant := by
    rw [Span.size, offset_start_after, offset_start_after, byteSize_append]
    exact Nat.add_sub_cancel_left _ _
  refine ⟨before, meant, hfront, hne, (offset_start_after before).symm, Span.textIn_after hfront, ?_⟩
  rw [Span.place, Span.isEmpty, hsize, Place.behind, offset_start_after, if_neg hne, if_neg]
  rw [beq_iff_eq, byteSize_eq_zero]
  exact hne

/-! ## Places printed with their lines -/

/-- **A place printed with its line.** What is printed of the line has what is before the place and then
what is meant there. The line below has as many blanks as the one takes, and behind them a character for
every byte of the other, and at least one. -/
structure Diagnostic.Underlined (line before meant : List Char) (place : Location) : Prop where
  isPrefix : before ++ meant <+: line
  printed : Location.shown before ++ Location.shown meant <+: place.lineSource.toList
  below : ∀ style, ∃ gap numbered below, Diagnostic.sourceLines place style = [gap, numbered, below]
    ∧ numbered = styled Diagnostic.marginStyle (toString place.line) ++ .text " "
      :: styled Diagnostic.marginStyle "|" ++ [.text (" " ++ place.lineSource)]
    ∧ plain below = Diagnostic.blanks (toString place.line).length ++ " | "
      ++ Diagnostic.blanks (Location.shown before).length ++ Diagnostic.underline (byteSize meant)

/-- A location is printed so if its column is behind the one piece, and it has the length of the other. -/
theorem Diagnostic.Underlined.of_location {line before meant : List Char} {place : Location}
    (hline : before ++ meant <+: line)
    (hprinted : Location.shown before ++ Location.shown meant <+: place.lineSource.toList)
    (hcolumn : place.column = (Location.shown before).length + 1)
    (hlength : place.length = (Place.behind before meant).length) :
    Underlined line before meant place := by
  refine ⟨hline, hprinted, fun style => ?_⟩
  obtain ⟨gap, numbered, below, hlines, hnumbered, hbelow⟩ := plain_markerLine place style
  refine ⟨gap, numbered, below, hlines, hnumbered, hbelow.trans ?_⟩
  have hwidth : underline place.shownLength = underline (byteSize meant) := by
    rw [Location.shownLength, hlength, Place.behind]
    by_cases hnil : meant = []
    · rw [if_pos hnil, hnil]
      rfl
    · rw [if_neg hnil]
      rfl
  rw [hwidth, hcolumn, Nat.add_sub_cancel]

/-- **A piece of a line is printed with its line**, wherever in a text that stands. -/
theorem Location.relocate_underlined {text before meant : List Char} {l : Line} (hl : l ∈ linesOf text)
    (h : before ++ meant <+: l.text) :
    ∃ here there, locate l.text (byteSize before) (Place.behind before meant).length = .ok here
      ∧ here.relocate text l.start = .ok there
      ∧ Diagnostic.Underlined l.text before meant there := by
  obtain ⟨raw, hraw⟩ := Line.StandsIn.of_mem hl
  obtain ⟨front, hin⟩ := hraw.isIn
  have hplace := Place.behind_isIn h hin.oneLine
  obtain ⟨here, hhere, hthere⟩ := relocate_eq_placed hraw hplace
  obtain ⟨more, hmore⟩ := h
  have hsplit : l.text = before ++ (meant ++ more) := by rw [← hmore, List.append_assoc]
  have hlocate : locate l.text (byteSize before) (Place.behind before meant).length
      = .ok (ofSplit before (meant ++ more) (Place.behind before meant).length) := by
    rw [hsplit] at hplace ⊢
    exact locate_eq_ok hplace rfl
  obtain rfl := Except.ok.inj (hhere.symm.trans hlocate)
  have hunder := ofSplit_under_of_oneLine (hsplit ▸ hin.oneLine) (Place.behind before meant).length
  refine ⟨_, _, hhere, hthere, .of_location ⟨more, hmore⟩ ?_ hunder.column_eq rfl⟩
  -- the line loses no more than its line end when it is displayed
  have hstart : before ++ meant <+: displayed raw := by
    obtain ⟨lines, back, -, rfl⟩ := hraw
    exact List.IsPrefix.trans ⟨more, hmore⟩ (lineText_isPrefix_displayed raw)
  have hshown := shown_isPrefix hstart
  rw [shown, List.flatMap_append] at hshown
  rw [placed, String.toList_ofList]
  exact hshown

/-! ## Reports -/

/-- All locations of a report. -/
def Report.locations (r : Report) : List Location := r.location.toList ++ r.located.map Prod.snd

/-- **What is true of the locations of all places** is true of all locations in the report. -/
theorem Report.ofDiagnosis_locations {P : Location → Prop} {d : Diagnosis}
    {locate : Place → Except LocationError Location} (origin : String)
    (h : ∀ p ∈ d.places, ∃ x, locate p = .ok x ∧ P x) :
    ∃ r, ofDiagnosis origin d locate = .ok r ∧ (∀ x ∈ r.locations, P x)
      ∧ ∃ x, locate d.place = .ok x ∧ r.location = some x := by
  have hboth : ∀ p ∈ d.places, BothPlace (fun x _ => P x) locate locate p := by
    intro p hp
    obtain ⟨x, hx, hP⟩ := h p hp
    exact ⟨x, x, hx, hx, hP⟩
  obtain ⟨⟨x, y, hx, -, hP⟩, hremarks⟩ := List.forall_mem_cons.mp hboth
  obtain ⟨xs, ys, hxs, -, -, hlocated⟩ := mapM_placeRemark hremarks
  refine ⟨_, ofDiagnosis_eq_ok origin hx hxs, ?_, x, hx, rfl⟩
  refine List.forall_mem_cons.mpr ⟨hP, ?_⟩
  have hall : ∀ remark ∈ xs.filterMap locatedRemark, P remark.2 := by
    generalize xs.filterMap locatedRemark = remarks, ys.filterMap locatedRemark = same at hlocated
    induction hlocated with
    | nil => exact fun _ hn => absurd hn List.not_mem_nil
    | cons hfirst _ ih => exact List.forall_mem_cons.mpr ⟨hfirst.2, ih⟩
  exact List.forall_mem_map.mpr hall

/-- A report with a location starts with its message, the place, and the line with the marker. -/
theorem Diagnostic.lines_of_location {r : Report} {place : Location} (h : r.location = some place) :
    ∃ more, lines r = messageLine "error" errorStyle r.message :: placeLine r.origin (some place)
      :: (sourceLines place errorStyle ++ more) := by
  refine ⟨r.advice.map (adviceLine (blanks (toString place.line).length)) ++ [[]]
    ++ r.located.flatMap (locatedBlock r.origin), ?_⟩
  rw [lines, mainBlock, h]
  simp only [List.cons_append, List.append_assoc]

/-- **A line that fails is reported**, if its report can be placed. -/
theorem ScriptLine.emission_eq_report {script : List Char} {l : ScriptLine} {e : LineError} {file : String}
    {r : Report} (he : l.error? = some e) (hr : l.report file script e = .ok r) :
    l.emission file script = .report r := by
  obtain ⟨line, result⟩ := l
  cases result with
  | ok text => cases he
  | error err =>
    cases he
    show Emission.placedReport file e.message (ScriptLine.report _ file script e) = _
    rw [hr, Emission.placedReport]

/-- **A marker is as long as the text that it is for** if the further bytes of its characters make up for
three columns of every tab, and longer if they are more. -/
theorem Diagnostic.length_underline_iff {meant : List Char} (hne : meant ≠ []) :
    ((underline (byteSize meant)).length = (Location.shown meant).length
        ↔ furtherBytes meant = 3 * meant.count '\t')
      ∧ ((Location.shown meant).length < (underline (byteSize meant)).length
        ↔ 3 * meant.count '\t' < furtherBytes meant) := by
  have hpos : 0 < byteSize meant := Nat.pos_of_ne_zero (mt byteSize_eq_zero.mp hne)
  rw [length_underline hpos, byteSize_eq_length_add, Location.length_shown]
  omega

/-- The text that an error is about, if it has a span. -/
def LineError.meant? (line : List Char) : LineError → Option (List Char)
  | .parse _ => none
  | .eval err => err.span.textIn line

theorem LineError.meant?_eq_some {line meant : List Char} {e : LineError} :
    e.meant? line = some meant ↔ ∃ err, e = .eval err ∧ err.span.textIn line = some meant := by
  cases e with
  | parse e => exact ⟨nofun, fun ⟨_, h, _⟩ => nomatch h⟩
  | eval err => exact ⟨fun h => ⟨err, rfl, h⟩, fun ⟨_, h, htext⟩ => by cases h; exact htext⟩

namespace Session

/-- **The marker of a failed line has a character for every byte meant.** Every failed line of a script is
reported, and every place in the report is printed with a piece of the line: the blanks before the marker
are as many as what is before the piece takes, and the marker has the bytes of the piece for its length. If
the line has no value, the piece is the text of the error's span. So the marker covers just what is printed
of that text if the further bytes of its characters are three times its tabs, and runs past the end of it
if they are more. -/
theorem marker_counts_bytes (s : Session) (script : List Char) (file : String) {l : ScriptLine}
    {e : LineError} (hl : l ∈ (s.run script).1) (he : l.error? = some e) :
    ∃ r, l.emission file script = .report r
      ∧ (∀ place ∈ r.locations, ∃ before meant, Diagnostic.Underlined l.line.text before meant place)
      ∧ ∀ err, e = .eval err → ∃ place before meant more, r.location = some place
        ∧ byteSize before = err.span.start.offset ∧ err.span.textIn l.line.text = some meant
        ∧ Diagnostic.Underlined l.line.text before meant place
        ∧ Diagnostic.lines r = Diagnostic.messageLine "error" Diagnostic.errorStyle r.message
          :: Diagnostic.placeLine r.origin (some place)
          :: (Diagnostic.sourceLines place Diagnostic.errorStyle ++ more)
        ∧ ((Diagnostic.underline (byteSize meant)).length = (Location.shown meant).length
          ↔ furtherBytes meant = 3 * meant.count '\t')
        ∧ ((Location.shown meant).length < (Diagnostic.underline (byteSize meant)).length
          ↔ 3 * meant.count '\t' < furtherBytes meant) := by
  obtain ⟨hmem, t, hexecute⟩ := runLines_failed hl he
  obtain ⟨raw, hraw⟩ := Line.StandsIn.of_mem hmem
  have hplaced := execute_failed hexecute
  have hplaces : ∀ p ∈ (e.diagnosis l.line.text).places, ∃ x,
      (do (← Location.locate l.line.text p.offset p.length).relocate script l.line.start) = .ok x
        ∧ ∃ before meant, Diagnostic.Underlined l.line.text before meant x := by
    intro p hp
    obtain ⟨before, meant, hpiece, rfl⟩ := (LineError.diagnosis_placed hplaced p hp).exists_behind
    obtain ⟨here, there, hhere, hthere, hunder⟩ := Location.relocate_underlined hmem hpiece
    exact ⟨there, Except.bind_eq_ok.mpr ⟨here, hhere, hthere⟩, before, meant, hunder⟩
  obtain ⟨r, hr, hlocations, x, hx, hlocation⟩ := Report.ofDiagnosis_locations file hplaces
  have hemission : l.emission file script = .report r :=
    ScriptLine.emission_eq_report he ((ScriptLine.report_eq hraw file).trans hr)
  refine ⟨r, hemission, hlocations, ?_⟩
  rintro err rfl
  obtain ⟨before, meant, hpiece, hne, hstart, htext, hplace⟩ := Span.IsIn.exists_behind hplaced
  obtain ⟨here, there, hhere, hthere, hunder⟩ := Location.relocate_underlined hmem hpiece
  have hmain : (LineError.diagnosis l.line.text (.eval err)).place = .behind before meant := hplace
  rw [hmain] at hx
  obtain rfl : x = there :=
    Except.ok.inj (hx.symm.trans (Except.bind_eq_ok.mpr ⟨here, hhere, hthere⟩))
  obtain ⟨more, hmore⟩ := Diagnostic.lines_of_location hlocation
  exact ⟨x, before, meant, more, hlocation, hstart, htext, hunder, hmore,
    Diagnostic.length_underline_iff hne⟩

/-- A sum with a tab in it, behind a line with a character of two bytes: the text takes ten columns, and
the marker is three short of it. -/
theorem marker_counts_bytes_tab :
    ∃ l err, l ∈ (({} : Session).run "# Ω\n1V +\t1s".toList).1 ∧ l.error? = some (.eval err)
      ∧ ∃ r place before, l.emission "tab.ee" "# Ω\n1V +\t1s".toList = .report r
        ∧ r.location = some place
        ∧ Diagnostic.Underlined "1V +\t1s".toList before "1V +\t1s".toList place
        ∧ (Location.shown "1V +\t1s".toList).length = 10
        ∧ (Diagnostic.underline (byteSize "1V +\t1s".toList)).length = 7 := by
  have hrun : (({} : Session).run "# Ω\n1V +\t1s".toList).1.map
      (fun l => (l.line.text, l.error?.bind (·.meant? l.line.text)))
      = [("1V +\t1s".toList, some "1V +\t1s".toList)] := by
    decide +kernel
  obtain ⟨l, hl, heq⟩ := List.mem_map.mp (hrun ▸ List.mem_cons_self)
  obtain ⟨hline, hmeant⟩ := Prod.mk.inj heq
  obtain ⟨e, he, hmeant⟩ := Option.bind_eq_some_iff.mp hmeant
  obtain ⟨err, rfl, htext⟩ := LineError.meant?_eq_some.mp hmeant
  obtain ⟨r, hr, -, heval⟩ := marker_counts_bytes {} _ "tab.ee" hl he
  obtain ⟨place, before, meant, -, hplace, -, hmeant, hunder, -⟩ := heval err rfl
  obtain rfl := Option.some.inj (htext.symm.trans hmeant)
  rw [hline] at hunder
  exact ⟨l, err, hl, he, r, place, before, hr, hplace, hunder, by decide +kernel, by decide +kernel⟩

/-- **A marker past the end** of the text that it is for: the sum takes eight columns, and its marker
nine, because of the character of two bytes in it. -/
theorem marker_past_end :
    ∃ l err r place, l ∈ (({} : Session).run "5µV + 1s\n".toList).1 ∧ l.error? = some (.eval err)
      ∧ err.span.textIn l.line.text = some "5µV + 1s".toList
      ∧ l.emission "a.ee" "5µV + 1s\n".toList = .report r ∧ r.location = some place
      ∧ (Diagnostic.sourceLines place Diagnostic.errorStyle).map plain
        = ["  | ", "1 | 5µV + 1s", "  | ^--------"]
      ∧ (Location.shown "5µV + 1s".toList).length = 8 ∧ "^--------".length = 9 := by
  let place : Location := ⟨0, 1, 1, some 9, "5µV + 1s"⟩
  let r : Report := ⟨"a.ee", "cannot apply `+` to voltage and time", some place, [], []⟩
  have hrun : (({} : Session).run "5µV + 1s\n".toList).1.map
      (fun l => (l.error?.bind (·.meant? l.line.text), l.emission "a.ee" "5µV + 1s\n".toList))
      = [(some "5µV + 1s".toList, .report r)] := by
    decide +kernel
  obtain ⟨l, hl, heq⟩ := List.mem_map.mp (hrun ▸ List.mem_cons_self)
  obtain ⟨hmeant, hemission⟩ := Prod.mk.inj heq
  obtain ⟨e, he, hmeant⟩ := Option.bind_eq_some_iff.mp hmeant
  obtain ⟨err, rfl, htext⟩ := LineError.meant?_eq_some.mp hmeant
  exact ⟨l, err, r, place, hl, he, htext, hemission, rfl, by decide +kernel, by decide +kernel,
    by decide +kernel⟩

end Session

end WorstCase
