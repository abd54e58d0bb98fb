import WorstCase.Proofs.Session.History
import WorstCase.Proofs.Session.Reports
import WorstCase.Proofs.Source.Relocation

/-!
# Scripts in pieces

A run takes the lines of a script one by one, and what it does with one depends on the line's text and
the session only (`Session.runLines_cons`). So the run of lines behind other lines is a run of its own,
from the session that the others left, unless one of them ends the session (`Session.runLines_append`,
`Session.runLines_append_of_exit`); and a run of lines that stand elsewhere finds the same there
(`Session.runLines_map`).

What remains is where the lines stand. The lines of two scripts in one are those of either, if the
first ends with a line end, and the lines of a script stay what they are when its line ends are spelled
with carriage returns. In both cases an error is reported at the place that has moved with its line.
-/

namespace WorstCase

/-! ## Lines of a run -/

/-- What a run keeps of the result of a line. -/
def LineResult.entry (line : Line) : LineResult → List ScriptLine
  | .silent | .exit => []
  | .output text => [⟨line, .ok text⟩]
  | .failed e => [⟨line, .error e⟩]

/-- An entry of a run, with its line elsewhere. -/
def ScriptLine.mapLine (f : Line → Line) (l : ScriptLine) : ScriptLine := { l with line := f l.line }

theorem LineResult.entry_map (f : Line → Line) (line : Line) (result : LineResult) :
    result.entry (f line) = (result.entry line).map (ScriptLine.mapLine f) := by
  cases result <;> rfl

namespace Session

variable {s : Session} {line : Line} {lines more rest : List Line}

/-- A line whose first word is `exit` ends the session. -/
theorem execute_of_asksExit {text : List Char} (h : AsksExit text) : s.execute text = (.exit, s) := by
  have hexit := isExit_iff.mpr h
  have hsilent : ¬ isSilent (trimStart text) = true := by
    intro hsilent
    rcases isSilent_iff.mp hsilent with hblank | ⟨blanks, rest, hblanks, rfl⟩
    · rw [show trimStart text = [] from List.dropWhile_eq_nil_iff.mpr hblank] at hexit
      cases hexit
    · rw [trimStart_append hblanks] at hexit
      cases hexit
  rw [execute, if_neg hsilent, if_pos hexit]

/-- No other line does. -/
theorem execute_ne_exit {text : List Char} (h : ¬ AsksExit text) : (s.execute text).1 ≠ .exit := by
  unfold execute
  dsimp only
  split
  · exact nofun
  · rw [if_neg (mt isExit_iff.mp h)]
    split
    · rename_i statement _
      cases statement <;>
      · dsimp only [perform]
        split <;> exact nofun
    · exact nofun

theorem runLines_cons_of_exit (h : AsksExit line.text) : s.runLines (line :: rest) = ([], s) := by
  rw [runLines, execute_of_asksExit h]

/-- **One line of a run.** -/
theorem runLines_cons (h : ¬ AsksExit line.text) :
    s.runLines (line :: rest)
      = ((s.execute line.text).1.entry line ++ ((s.step line.text).runLines rest).1,
        ((s.step line.text).runLines rest).2) := by
  have hne := execute_ne_exit (s := s) h
  rw [runLines, step]
  generalize s.execute line.text = executed at hne ⊢
  obtain ⟨result, after⟩ := executed
  cases result with
  | exit => exact absurd rfl hne
  | _ => rfl

/-- **Lines that come after others** are run from the session that these leave. -/
theorem runLines_append (h : ∀ l ∈ lines, ¬ AsksExit l.text) :
    s.runLines (lines ++ more) = ((s.runLines lines).1 ++ ((s.runLines lines).2.runLines more).1,
      ((s.runLines lines).2.runLines more).2) := by
  induction lines generalizing s with
  | nil => rfl
  | cons line rest ih =>
    obtain ⟨hline, hrest⟩ := List.forall_mem_cons.mp h
    rw [List.cons_append, runLines_cons hline, runLines_cons hline, ih hrest, List.append_assoc]

/-- **Lines after an exit** are not run. -/
theorem runLines_append_of_exit (h : ∃ l ∈ lines, AsksExit l.text) :
    s.runLines (lines ++ more) = s.runLines lines := by
  induction lines generalizing s with
  | nil =>
    obtain ⟨l, hl, -⟩ := h
    cases hl
  | cons line rest ih =>
    rw [List.cons_append]
    by_cases hline : AsksExit line.text
    · rw [runLines_cons_of_exit hline, runLines_cons_of_exit hline]
    · have hrest : ∃ l ∈ rest, AsksExit l.text := by
        obtain ⟨l, hl, hexit⟩ := h
        rcases List.mem_cons.mp hl with rfl | hl
        · exact absurd hexit hline
        · exact ⟨l, hl, hexit⟩
      rw [runLines_cons hline, runLines_cons hline, ih hrest]

/-- **Where the lines stand is no concern of a run.** -/
theorem runLines_map {f : Line → Line} (hf : ∀ l, (f l).text = l.text) :
    s.runLines (lines.map f)
      = ((s.runLines lines).1.map (ScriptLine.mapLine f), (s.runLines lines).2) := by
  induction lines generalizing s with
  | nil => rfl
  | cons line rest ih =>
    rw [List.map_cons]
    by_cases hline : AsksExit line.text
    · rw [runLines_cons_of_exit hline, runLines_cons_of_exit (by rwa [hf])]
      rfl
    · rw [runLines_cons hline, runLines_cons (by rwa [hf]), hf, ih, LineResult.entry_map,
        List.map_append]

end Session

/-! ## Reports of a run -/

section Reports

variable {script script' raw raw' : List Char} {l l' : ScriptLine} {e : LineError}

/-- A failed line of a run stands in the script, and its error is in the line. -/
theorem Session.standsIn_of_run {s : Session} (hl : l ∈ (s.run script).1) (he : l.error? = some e) :
    (∃ raw, l.line.StandsIn script raw) ∧ e.PlacedIn l.line.text := by
  obtain ⟨hmem, t, hexecute⟩ := runLines_failed hl he
  exact ⟨Line.StandsIn.of_mem hmem, execute_failed hexecute⟩

/-- The report of a line is about its text and where it stands. -/
theorem ScriptLine.report_eq (h : l.line.StandsIn script raw) (origin : String) :
    l.report origin script e
      = Report.inLine origin script l.line.text l.line.start (e.diagnosis l.line.text) := by
  obtain ⟨before, hline⟩ := h.isIn
  have hsource : l.source script = l.line.text := by
    rw [source, slice_eq hline]
    rfl
  rw [report, hsource]

/-- **An error of one line in two scripts** is reported in both, and the reports differ as the line's
place does. -/
theorem ScriptLine.report_mapLocations {f : Location → Location} (origin : String)
    (h : l.line.StandsIn script raw) (h' : l'.line.StandsIn script' raw')
    (htext : l'.line.text = l.line.text) (hshown : displayed raw' = displayed raw)
    (hf : ∀ here : Location,
      f (here.placed l.line (displayed raw)) = here.placed l'.line (displayed raw))
    (he : e.PlacedIn l.line.text) :
    ∃ r, l.report origin script e = .ok r ∧ l'.report origin script' e = .ok (r.mapLocations f) := by
  have hdiagnosis : e.diagnosis l'.line.text = e.diagnosis l.line.text := by rw [htext]
  rw [report_eq h, report_eq h', hdiagnosis]
  exact Report.inLine_mapLocations origin h h' htext hshown hf (LineError.diagnosis_placed he)

end Reports

/-! ## Two scripts in one, and two kinds of line ends -/

/-- **A location further on**, by so many lines and bytes. -/
def Location.shift (lines bytes : Nat) (l : Location) : Location :=
  { l with offset := l.offset + bytes, line := l.line + lines }

/-- **A location further on by the carriage returns before it**, one for each line. -/
def Location.afterReturns (l : Location) : Location := { l with offset := l.offset + (l.line - 1) }

theorem Location.shift_placed (lines bytes : Nat) (line : Line) (source : List Char) (here : Location) :
    (here.placed line source).shift lines bytes = here.placed (line.shift lines bytes) source := by
  simp only [shift, placed, Line.shift, Nat.add_right_comm line.start]

theorem Location.afterReturns_placed (line : Line) (source : List Char) (here : Location) :
    (here.placed line source).afterReturns = here.placed line.afterReturns source := by
  simp only [afterReturns, placed, Line.afterReturns, Nat.add_right_comm line.start]

namespace Session

variable {s : Session} {p q t : List Char} {l : ScriptLine} {e : LineError}

/-- A line of the first script is reported as if there were no second. -/
theorem report_append_left (origin : String) (hends : EndsLine p) (hl : l ∈ (s.run p).1)
    (he : l.error? = some e) :
    ∃ r, l.report origin p e = .ok r ∧ l.report origin (p ++ q) e = .ok r := by
  obtain ⟨⟨raw, hstands⟩, hplaced⟩ := standsIn_of_run hl he
  obtain ⟨r, hr, hr'⟩ := ScriptLine.report_mapLocations (f := id) origin hstands
    (hstands.append hends q) rfl rfl (fun _ => rfl) hplaced
  refine ⟨r, hr, hr'.trans (congrArg Except.ok ?_)⟩
  rw [Report.mapLocations, Option.map_id, Prod.map_id, List.map_id]
  rfl

/-- A line of the second script is reported further on. -/
theorem report_append_right (origin : String) (hends : EndsLine p) (hl : l ∈ (s.run q).1)
    (he : l.error? = some e) :
    ∃ r, l.report origin q e = .ok r
      ∧ (l.mapLine (Line.shift (p.count '\n') (byteSize p))).report origin (p ++ q) e
        = .ok (r.mapLocations (Location.shift (p.count '\n') (byteSize p))) := by
  obtain ⟨⟨raw, hstands⟩, hplaced⟩ := standsIn_of_run hl he
  exact ScriptLine.report_mapLocations origin hstands (hstands.shift hends) rfl rfl
    (Location.shift_placed _ _ _ _) hplaced

/-- With carriage returns a line is reported further on by those before it. -/
theorem report_crlf (origin : String) (hreturn : '\r' ∉ t) (hl : l ∈ (s.run t).1)
    (he : l.error? = some e) :
    ∃ r, l.report origin t e = .ok r
      ∧ (l.mapLine Line.afterReturns).report origin (crlf t) e
        = .ok (r.mapLocations Location.afterReturns) := by
  obtain ⟨⟨raw, hstands⟩, hplaced⟩ := standsIn_of_run hl he
  exact ScriptLine.report_mapLocations origin hstands (hstands.afterReturns hreturn) rfl
    (hstands.displayed_crlf hreturn) (Location.afterReturns_placed _ _) hplaced

/-- **Running a script is compositional.** Take a script that is empty or ends with a line end, and
another behind it. If no line of the first asks to end the session, the run has the lines of the first,
and then those of the second as it runs from the session that the first has left, further on by the
line ends and the bytes of the first; and it leaves the session that the second leaves. Otherwise the
second has no part in the run. Errors in the first are reported as if there were no second, and those
in the second further on.

A script without carriage returns can be given one before each line feed. Its run then differs in where
the lines start only, and its reports in the offsets. -/
theorem run_compositional (s : Session) (origin : String) :
    (∀ p q : List Char, EndsLine p →
      (∀ l ∈ (s.run p).1, ∀ e, l.error? = some e →
        ∃ r, l.report origin p e = .ok r ∧ l.report origin (p ++ q) e = .ok r)
      ∧ ((∀ l ∈ linesOf p, ¬ AsksExit l.text) →
        let further := ScriptLine.mapLine (Line.shift (p.count '\n') (byteSize p))
        s.run (p ++ q) = ((s.run p).1 ++ ((s.run p).2.run q).1.map further, ((s.run p).2.run q).2)
        ∧ ∀ l ∈ ((s.run p).2.run q).1, ∀ e, l.error? = some e →
          ∃ r, l.report origin q e = .ok r ∧ (further l).report origin (p ++ q) e
            = .ok (r.mapLocations (Location.shift (p.count '\n') (byteSize p))))
      ∧ ((∃ l ∈ linesOf p, AsksExit l.text) → s.run (p ++ q) = s.run p))
    ∧ ∀ t : List Char, '\r' ∉ t →
      s.run (crlf t) = ((s.run t).1.map (ScriptLine.mapLine Line.afterReturns), (s.run t).2)
      ∧ ∀ l ∈ (s.run t).1, ∀ e, l.error? = some e →
        ∃ r, l.report origin t e = .ok r ∧ (l.mapLine Line.afterReturns).report origin (crlf t) e
          = .ok (r.mapLocations Location.afterReturns) := by
  refine ⟨fun p q hends => ⟨?_, ?_, ?_⟩, fun t hreturn => ⟨?_, ?_⟩⟩
  · exact fun l hl e he => report_append_left origin hends hl he
  · intro hexit
    refine ⟨?_, fun l hl e he => report_append_right origin hends hl he⟩
    rw [run, linesOf_append hends, runLines_append hexit,
      runLines_map (f := Line.shift _ _) fun _ => rfl]
    rfl
  · intro hexit
    rw [run, linesOf_append hends, runLines_append_of_exit hexit]
    rfl
  · rw [run, linesOf_crlf hreturn, runLines_map (f := Line.afterReturns) fun _ => rfl]
    rfl
  · exact fun l hl e he => report_crlf origin hreturn hl he

/-- An assignment and, on a line of its own behind it, a bracket that is not closed. -/
theorem run_compositional_seam :
    EndsLine "a = 1kΩ\n".toList
      ∧ (({} : Session).run ("a = 1kΩ\n".toList ++ "b = (a".toList)).1.map
        (fun l => (l.line.number, l.line.start, l.error?.isSome)) = [(1, 0, false), (2, 9, true)]
      ∧ (({} : Session).run (crlf ("a = 1kΩ\n".toList ++ "b = (a".toList))).1.map
        (fun l => (l.line.number, l.line.start, l.error?.isSome)) = [(1, 0, false), (2, 10, true)] := by
  have hends : EndsLine "a = 1kΩ\n".toList := by decide +kernel
  obtain ⟨happend, hcrlf⟩ := run_compositional {} "seam.ee"
  obtain ⟨-, hrun, -⟩ := happend _ "b = (a".toList hends
  obtain ⟨hrun, -⟩ := hrun (by decide +kernel)
  obtain ⟨hreturns, -⟩ := hcrlf ("a = 1kΩ\n".toList ++ "b = (a".toList) (by decide +kernel)
  rw [hreturns, hrun]
  exact ⟨hends, by decide +kernel, by decide +kernel⟩

end Session

end WorstCase
