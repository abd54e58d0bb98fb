import WorstCase.Proofs.Evaluation.Failure
import WorstCase.Proofs.Formula.Faults
import WorstCase.Proofs.Source.Placement
import WorstCase.Session

/-!
# Reports of failed lines

Whatever is wrong with a line of a script can be reported in the script
(`Session.run_report`). Four parts of the program count on one another here:
the parser says where a line fails, in offsets into the line; a run says where
the line starts and which one it is; the report takes the line out of the
script again; and a location looks for the line on its own. They agree because
each of them is about the same piece of the script.
-/

namespace WorstCase

/-! ## Where a line fails -/

section Places

variable {text : List Char}

/-- A span of the text is a piece of it. -/
theorem Span.IsIn.piece {s : Span} (h : s.IsIn text) :
    Place.IsIn text ⟨s.start.offset, some s.size⟩ := by
  obtain ⟨before, meant, hfront, hne, hline, rfl⟩ := h
  have hsize : Span.size ⟨Position.start.after before, Position.start.after (before ++ meant)⟩
      = byteSize meant := by
    rw [Span.size, offset_start_after, offset_start_after, byteSize_append]
    exact Nat.add_sub_cancel_left _ _
  rw [hsize, offset_start_after]
  exact .piece hfront hne hline

theorem IsPlace.point {offset : Nat} (h : IsPlace text offset) :
    Place.IsIn text ⟨offset, none⟩ := by
  obtain ⟨before, hfront, rfl⟩ := h
  exact .point hfront

/-- The place of a span of the text is in it. -/
theorem Span.IsIn.place {s : Span} (h : s.IsIn text) : s.place.IsIn text := by
  have hpiece := h.piece
  unfold Span.place
  split
  · obtain ⟨before, meant, hfront, -, -, rfl⟩ := h
    exact IsPlace.point ⟨before, (List.prefix_append _ _).trans hfront, offset_start_after _⟩
  · exact hpiece

namespace ParseFault

variable {fault : ParseFault} {offset : Nat} {front rest : List Char} {p : Place}

theorem openedHere_placed (h : fault.PlacedIn text offset)
    (hp : p ∈ fault.openedHere.filterMap Prod.snd) : p.IsIn text := by
  cases fault with
  | emptyGroup cause | unclosedGroup cause =>
    obtain rfl := List.mem_singleton.mp hp
    exact h.1.piece
  | _ => cases hp

theorem brokenHere_placed (h : fault.PlacedIn text offset)
    (hp : p ∈ fault.brokenHere.filterMap Prod.snd) : p.IsIn text := by
  cases fault with
  | brokenNumber part start =>
    cases part <;>
    · obtain rfl := List.mem_singleton.mp hp
      exact h.1.point
  | _ => cases hp

/-- **What is said beside a fault** is about places in the text, as far as it is
about places. -/
theorem remarks_placed (h : fault.PlacedIn text offset)
    (hp : p ∈ (fault.remarks front rest).filterMap Prod.snd) : p.IsIn text := by
  have hunit : (detachedUnit front rest).filterMap Prod.snd = [] := by
    unfold detachedUnit
    dsimp only
    split <;> rfl
  have hpercent : (detachedPercent rest).filterMap Prod.snd = [] := by
    unfold detachedPercent
    split <;> rfl
  have hstar : (doubleStar fault rest).filterMap Prod.snd = [] := by
    unfold doubleStar
    split <;> rfl
  have hrange : (coefficientRange fault).filterMap Prod.snd = [] := by
    cases fault <;> rfl
  simp only [remarks, List.filterMap_append, hunit, hpercent, hstar, hrange, List.append_nil,
    List.mem_append] at hp
  rcases hp with hp | hp
  · exact openedHere_placed h hp
  · exact brokenHere_placed h hp

end ParseFault

/-- A parse error has its places in the text, and the text falls apart where it
shows. -/
theorem ParseError.PlacedIn.split {e : ParseError} (h : e.PlacedIn text) :
    ∃ front rest, splitAtByte? text e.offset = some (front, rest) := by
  obtain ⟨before, ⟨rest, rfl⟩, hoffset⟩ := h.isPlace
  exact ⟨before, rest, hoffset ▸ splitAtByte?_append before rest⟩

namespace LineError

/-- **An error whose places are in the line.** -/
def PlacedIn (line : List Char) : LineError → Prop
  | .parse e => e.PlacedIn line
  | .eval e => e.span.IsIn line

/-- **The diagnosis of an error is about places in the line.** -/
theorem diagnosis_placed {e : LineError} (h : e.PlacedIn text) :
    ∀ p ∈ (e.diagnosis text).places, p.IsIn text := by
  cases e with
  | parse e =>
    refine List.forall_mem_cons.mpr ⟨h.isPlace.point, ?_⟩
    obtain ⟨front, rest, hsplit⟩ := ParseError.PlacedIn.split h
    intro p hp
    simp only [diagnosis, ParseError.diagnosis, hsplit] at hp
    exact ParseFault.remarks_placed h.fault hp
  | eval e =>
    intro p hp
    obtain rfl := List.mem_singleton.mp hp
    exact h.place

end LineError

end Places

/-! ## Lines that fail -/

/-- An extent of a text on one line has its span there. -/
theorem Extent.PlacedIn.span_isIn {text : List Char} {x : Extent} (h : x.PlacedIn text)
    (hline : OneLine text) : x.span.IsIn text := by
  obtain ⟨before, s, hfront, hne, rfl⟩ := h
  have hbody : before ++ s.body <+: text := prefix_first hfront
  refine ⟨before, s.body, hbody, hne, ?_, ?_⟩
  · intro hn
    exact hline (hbody.subset (List.mem_append_right _ hn))
  · rw [Position.after_append]
    rfl

namespace Session

variable {s : Session} {line : List Char}

/-- **A statement fails where its value does**, whether it is assigned or
shown. -/
theorem perform_failed {statement : Statement Binary64} {e : LineError}
    (h : (s.perform statement).1 = .failed e) :
    ∃ err : EvalError Binary64, e = .eval err ∧ err.MetAmong statement.extents := by
  cases statement with
  | assign extent name value =>
    unfold perform at h
    dsimp only at h
    split at h
    · cases h
    · rename_i err heval
      cases h
      refine ⟨err, rfl, (Expr.evalFor_met heval).mono fun x hx => ?_⟩
      exact List.mem_cons_of_mem _ (List.mem_cons_of_mem _ hx)
  | expression value =>
    unfold perform at h
    dsimp only at h
    split at h
    · cases h
    · rename_i err heval
      cases h
      exact ⟨err, rfl, Expr.eval_met heval⟩

/-- **A line fails at a place in it.** -/
theorem execute_failed {e : LineError} (h : (s.execute line).1 = .failed e) :
    e.PlacedIn line := by
  unfold execute at h
  dsimp only at h
  split at h
  · cases h
  · split at h
    · cases h
    · split at h
      · rename_i statement hparse
        obtain ⟨lead, w, rfl, rfl⟩ := parseStatement_written hparse
        obtain ⟨err, rfl, x, hx, hspan⟩ := perform_failed h
        have hplaced := WrittenStatement.placed List.prefix_rfl x hx
        show err.span.IsIn _
        rw [hspan]
        exact hplaced.span_isIn (lead.oneLine.append w.oneLine)
      · rename_i err hparse
        cases h
        exact parseStatement_placed hparse

/-- **A line without output can be reported by itself**, in the words for why it has none. All such
reports but that of the end of the session have a place in the line. -/
theorem execute_report {origin : String} {x : Except LocationError Report}
    (h : (s.execute line).1.report origin line = some x) :
    ∃ r, x = .ok r ∧ (s.execute line).1.message = some r.message
      ∧ (r.location = none ↔ (s.execute line).1 = .exit) := by
  have hplaced (e : LineError) (he : (s.execute line).1 = .failed e) := execute_failed he
  generalize (s.execute line).1 = result at h hplaced ⊢
  cases result with
  | silent => cases h
  | output text => cases h
  | exit =>
    cases h
    exact ⟨_, rfl, rfl, iff_of_true rfl rfl⟩
  | failed e =>
    obtain rfl := Option.some.inj h
    obtain ⟨r, hr, hmessage, hlocation⟩ :=
      Report.inText_eq_ok origin (LineError.diagnosis_placed (hplaced e rfl))
    refine ⟨r, hr, congrArg some (Eq.trans ?_ hmessage.symm), iff_of_false ?_ LineResult.noConfusion⟩
    · cases e <;> rfl
    · exact Option.isSome_iff_ne_none.mp hlocation

/-! ## Runs -/

/-- A failed line of a run is one of the lines, and failed when it was
executed. -/
theorem runLines_failed {lines : List Line} {l : ScriptLine} {e : LineError}
    (hl : l ∈ (s.runLines lines).1) (he : l.error? = some e) :
    l.line ∈ lines ∧ ∃ t : Session, (t.execute l.line.text).1 = .failed e := by
  induction lines generalizing s with
  | nil => cases hl
  | cons line rest ih =>
    unfold runLines at hl
    split at hl
    · exact (ih hl).imp_left (List.mem_cons_of_mem _)
    · cases hl
    · rcases List.mem_cons.mp hl with rfl | hl
      · cases he
      · exact (ih hl).imp_left (List.mem_cons_of_mem _)
    · rename_i err after hexecute
      rcases List.mem_cons.mp hl with rfl | hl
      · cases he
        exact ⟨List.mem_cons_self, s, congrArg Prod.fst hexecute⟩
      · exact (ih hl).imp_left (List.mem_cons_of_mem _)

end Session

/-- The line is taken out of the script where it was found. -/
theorem ScriptLine.slice_eq {l : ScriptLine} {script before : List Char}
    (h : l.line.IsIn script before) :
    sliceAt? script l.line.start (byteSize l.line.text) = some l.line.text := by
  obtain ⟨rest, hrest⟩ := h.prefix_text
  rw [h.start_eq, ← hrest]
  exact sliceAt?_append before l.line.text rest

/-- **A failed line of a script can always be reported in the script.** The line
stands where the run says; it is cut out of the script whole, and falls apart
where a parse error shows. The report is the one of the line alone, with every
location moved to where the line is. -/
theorem Session.run_report (s : Session) (script : List Char) (origin : String)
    {l : ScriptLine} {e : LineError} (hl : l ∈ (s.run script).1) (he : l.error? = some e) :
    (∃ before, l.line.IsIn script before)
      ∧ sliceAt? script l.line.start (byteSize l.line.text) = some l.line.text
      ∧ (∀ err, e = .parse err →
        ∃ front rest, splitAtByte? l.line.text err.offset = some (front, rest))
      ∧ ∃ here there, e.report origin l.line.text = .ok here
        ∧ l.report origin script e = .ok there ∧ here.MovedBy l.line there := by
  obtain ⟨hmem, t, hexecute⟩ := runLines_failed hl he
  obtain ⟨before, hline⟩ := mem_linesOf hmem
  have hplaced := execute_failed hexecute
  have hslice := ScriptLine.slice_eq hline
  refine ⟨⟨before, hline⟩, hslice, ?_, ?_⟩
  · rintro err rfl
    exact hplaced.split
  · have hsource : l.source script = l.line.text := by
      rw [ScriptLine.source, hslice]
      rfl
    rw [ScriptLine.report, hsource]
    exact Report.inLine_eq_ok origin hline (LineError.diagnosis_placed hplaced)

/-- A bracket that is not closed, on the second line, behind characters of more
than one byte and line ends of two. -/
theorem Session.run_report_bracket :
    ∃ l e, l ∈ (({} : Session).run "# Ω\r\n\tr = (1kΩ\r\n".toList).1
      ∧ l.error? = some e ∧ l.line = ⟨2, 6, "\tr = (1kΩ".toList⟩
      ∧ ∃ here there, e.report "bracket.ee" l.line.text = .ok here
        ∧ l.report "bracket.ee" "# Ω\r\n\tr = (1kΩ\r\n".toList e = .ok there
        ∧ here.MovedBy l.line there := by
  have hrun : ((({} : Session).run "# Ω\r\n\tr = (1kΩ\r\n".toList).1.map
      fun l => (l.line, l.error?.isSome)) = [(⟨2, 6, "\tr = (1kΩ".toList⟩, true)] := by
    decide +kernel
  obtain ⟨l, hl, heq⟩ := List.mem_map.mp (hrun ▸ List.mem_cons_self)
  obtain ⟨hline, herror⟩ := Prod.mk.inj heq
  obtain ⟨e, he⟩ := Option.isSome_iff_exists.mp herror
  obtain ⟨-, -, -, hreport⟩ := Session.run_report {} _ "bracket.ee" hl he
  exact ⟨l, e, hl, he, hline, hreport⟩

end WorstCase
