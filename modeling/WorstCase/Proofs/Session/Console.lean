import WorstCase.Program
import WorstCase.Proofs.Session.Composition

/-!
# The console and scripts agree

The console and a script go through the same lines, each with a loop of its own. The console is given
its lines one by one and answers each before it asks for the next; a script is cut into lines, and what
they come to is written at the end. The lines read are the same (`Session.reads`), and so is what they
come to. In the console's answer an error is placed in the line by itself, in a script it is placed in
the script; the two reports say the same about the same piece of the same line
(`Console.report_inScript`).

A carriage return before a line end belongs to the line end for both, but only to a script if it stands
alone, and the console drops any number of them. Texts with carriage returns are left aside.
-/

namespace WorstCase

/-! ## The lines that are read -/

namespace Session

/-- **The lines that a session reads**, each with what it comes to: all of them, or those up to the one
that ends the session. -/
def reads (s : Session) : List Line → List (Line × LineResult)
  | [] => []
  | line :: rest =>
    let (result, after) := s.execute line.text
    (line, result) :: if result = .exit then [] else after.reads rest

/-- Whether the last line that was read ended the session. -/
def endedBy (reads : List (Line × LineResult)) : Bool := reads.any fun r => r.2 = .exit

variable {s : Session} {line : Line} {rest lines : List Line}

theorem reads_cons_of_exit (h : AsksExit line.text) : s.reads (line :: rest) = [(line, .exit)] := by
  rw [reads, execute_of_asksExit h]
  rfl

theorem reads_cons (h : ¬ AsksExit line.text) :
    s.reads (line :: rest) = (line, (s.execute line.text).1) :: (s.step line.text).reads rest := by
  rw [reads, step]
  exact congrArg _ (if_neg (execute_ne_exit h))

theorem endedBy_cons (h : ¬ AsksExit line.text) (reads : List (Line × LineResult)) :
    endedBy ((line, (s.execute line.text).1) :: reads) = endedBy reads := by
  rw [endedBy, List.any_cons, decide_eq_false (execute_ne_exit h)]
  rfl

/-- The lines that are read come first, and all lines are read unless one ends the session. -/
theorem reads_isPrefix (s : Session) (lines : List Line) :
    (s.reads lines).map Prod.fst <+: lines
      ∧ (endedBy (s.reads lines) = false → (s.reads lines).map Prod.fst = lines) := by
  induction lines generalizing s with
  | nil => exact ⟨List.prefix_rfl, fun _ => rfl⟩
  | cons line rest ih =>
    by_cases hexit : AsksExit line.text
    · rw [reads_cons_of_exit hexit]
      exact ⟨⟨rest, rfl⟩, nofun⟩
    · rw [reads_cons hexit, endedBy_cons hexit]
      obtain ⟨hfront, hall⟩ := ih (s.step line.text)
      exact ⟨(List.prefix_cons_inj line).mpr hfront, fun h => congrArg (List.cons line) (hall h)⟩

/-- **A run keeps what the lines that are read come to.** -/
theorem runLines_eq_reads (s : Session) (lines : List Line) :
    (s.runLines lines).1 = (s.reads lines).flatMap fun r => r.2.entry r.1 := by
  induction lines generalizing s with
  | nil => rfl
  | cons line rest ih =>
    by_cases hexit : AsksExit line.text
    · rw [reads_cons_of_exit hexit, runLines_cons_of_exit hexit]
      rfl
    · rw [reads_cons hexit, runLines_cons hexit, ih]
      rfl

end Session

/-! ## The console, line by line -/

namespace Console

variable {s : Session} {raw : List Char} {line : Line}

/-- **What the console answers** where a line has come to a result. -/
def answer (line : List Char) : LineResult → List Emission
  | .silent | .exit => []
  | .output text => [.outputLine text]
  | .failed e => [.placedReport origin e.message (e.report origin line)]

/-- What the console writes when it has read all its lines, or the one that ends it. -/
def ending (reads : List (Line × LineResult)) : List Emission :=
  if Session.endedBy reads then [] else [prompt, farewell]

/-- **The session that a console ends with.** The line that ends it leaves the session as it is. -/
def sessionAfter (s : Session) : List (Option (List Char)) → Session
  | some raw :: rest =>
    match (respond s raw).2 with
    | none => s
    | some after => sessionAfter after rest
  | _ => s

theorem respond_of_exit (h : AsksExit (typedLine raw)) : respond s raw = ([], none) := by
  rw [respond, Session.execute_of_asksExit h]

theorem respond_eq (h : ¬ AsksExit (typedLine raw)) :
    respond s raw
      = (answer (typedLine raw) (s.execute (typedLine raw)).1, some (s.step (typedLine raw))) := by
  have hne := Session.execute_ne_exit (s := s) h
  rw [respond, Session.step]
  generalize s.execute (typedLine raw) = executed at hne ⊢
  obtain ⟨result, after⟩ := executed
  cases result with
  | exit => exact absurd rfl hne
  | _ => rfl

/-- **A line is asked for and answered**, and the console goes on from the session after it. -/
theorem runLines_cons (h : ¬ AsksExit (typedLine raw)) (rest : List (Option (List Char))) :
    (runLines s (some raw :: rest)).emissions
      = prompt :: answer (typedLine raw) (s.execute (typedLine raw)).1
        ++ (runLines (s.step (typedLine raw)) rest).emissions := by
  rw [runLines, respond_eq h]

theorem sessionAfter_cons (h : ¬ AsksExit (typedLine raw)) (rest : List (Option (List Char))) :
    sessionAfter s (some raw :: rest) = sessionAfter (s.step (typedLine raw)) rest := by
  rw [sessionAfter, respond_eq h]

theorem runLines_cons_of_exit (h : AsksExit (typedLine raw)) (rest : List (Option (List Char))) :
    (runLines s (some raw :: rest)).emissions = [prompt] := by
  rw [runLines, respond_of_exit h]

theorem sessionAfter_cons_of_exit (h : AsksExit (typedLine raw)) (rest : List (Option (List Char))) :
    sessionAfter s (some raw :: rest) = s := by
  rw [sessionAfter, respond_of_exit h]

/-- **A line as it is typed is the line of a text**, if there are no carriage returns. -/
theorem typedLine_eq_lineText (h : EndedLine raw ∨ OneLine raw) (hreturn : '\r' ∉ raw) :
    typedLine raw = lineText raw := by
  -- Nothing is dropped at the end of what has no line ends.
  have hkept : ∀ text : List Char, OneLine text → '\r' ∉ text →
      (text.reverse.dropWhile fun c => c == '\n' || c == '\r') = text.reverse := by
    intro text hone hreturn
    cases hlast : text.reverse with
    | nil => rfl
    | cons c cs =>
      have hc : c ∈ text := by
        rw [← List.mem_reverse, hlast]
        exact List.mem_cons_self
      refine List.dropWhile_cons_of_neg ?_
      rw [Bool.or_eq_true, beq_iff_eq, beq_iff_eq]
      rintro (rfl | rfl)
      · exact hone hc
      · exact hreturn hc
  rcases h with ⟨body, hbody, rfl⟩ | h
  · have hbody' : '\r' ∉ body := fun hn => hreturn (List.mem_append_left _ hn)
    rw [lineText_ended, dropLastChar_of_not_mem hbody', typedLine, List.reverse_append,
      List.reverse_singleton, List.singleton_append, List.dropWhile_cons_of_pos rfl,
      hkept body hbody hbody', List.reverse_reverse]
  · rw [typedLine, hkept raw h hreturn, List.reverse_reverse, lineText, dropLastChar_of_not_mem h,
      dropLastChar_of_not_mem hreturn]

/-- **The console answers the lines that a session reads**, one after the other. -/
theorem runLines_eq_reads {raws : List (List Char)}
    (htyped : ∀ raw ∈ raws, typedLine raw = lineText raw)
    (s : Session) (number start : Nat) :
    (runLines s (raws.map some)).emissions
        = ((s.reads (placeLines number start raws)).flatMap fun r => prompt :: answer r.1.text r.2)
          ++ ending (s.reads (placeLines number start raws))
      ∧ sessionAfter s (raws.map some) = (s.runLines (placeLines number start raws)).2 := by
  induction raws generalizing s number start with
  | nil => exact ⟨rfl, rfl⟩
  | cons raw raws ih =>
    obtain ⟨hraw, hraws⟩ := List.forall_mem_cons.mp htyped
    rw [List.map_cons, placeLines]
    by_cases hexit : AsksExit (typedLine raw)
    · rw [runLines_cons_of_exit hexit, sessionAfter_cons_of_exit hexit]
      rw [hraw] at hexit
      rw [Session.reads_cons_of_exit hexit, Session.runLines_cons_of_exit hexit]
      exact ⟨rfl, rfl⟩
    · obtain ⟨hemissions, hsession⟩ :=
        ih hraws (s.step (typedLine raw)) (number + 1) (start + byteSize raw)
      rw [runLines_cons hexit, sessionAfter_cons hexit, hemissions, hsession]
      rw [hraw] at hexit ⊢
      rw [Session.reads_cons hexit, Session.runLines_cons hexit, ending, ending,
        Session.endedBy_cons hexit]
      refine ⟨?_, rfl⟩
      rw [List.flatMap_cons, List.append_assoc]

end Console

/-! ## Reports -/

/-- **The location in a script** of what has a location in one of its lines: the line is another, and so is
the offset in bytes. -/
def Location.inScript (l : Line) (here : Location) : Location :=
  { here with offset := l.start + here.offset, line := l.number }

/-- What is located in one line is displayed with that line. -/
theorem Location.lineSource_eq {text : List Char} {p : Place} {here : Location} (hone : OneLine text)
    (hp : p.IsIn text) (h : locate text p.offset p.length = .ok here) :
    here.lineSource = String.ofList (shown text) := by
  obtain ⟨front, back, rfl, hoffset⟩ := hp.exists_split
  rw [locate_eq_ok hp hoffset] at h
  cases h
  have hfront : OneLine front := fun hn => hone (List.mem_append_left _ hn)
  have hback : OneLine back := fun hn => hone (List.mem_append_right _ hn)
  have hlast : lastLine front = front := @lastLine_append [] front rfl hfront
  have htake := hback.takeWhile_append []
  rw [List.append_nil, List.takeWhile_nil, List.append_nil] at htake
  show String.ofList (shown (wholeLine front back)) = _
  rw [wholeLine, hlast, htake, if_neg fun h => hback h.1]

/-- Without carriage returns a line is displayed as it is. -/
theorem displayed_eq_lineText {raw : List Char} (h : EndedLine raw ∨ OneLine raw)
    (hreturn : '\r' ∉ raw) : displayed raw = lineText raw := by
  rcases h with ⟨body, -, rfl⟩ | h
  · rw [displayed, if_pos List.getLast?_concat]
  · rw [displayed, if_neg fun hlast => h (List.mem_of_getLast? hlast), lineText,
      dropLastChar_of_not_mem h, dropLastChar_of_not_mem hreturn]

/-- A report under another name. -/
theorem Report.ofDiagnosis_origin {origin : String} {d : Diagnosis}
    {locate : Place → Except LocationError Location} {r : Report} (origin' : String)
    (h : ofDiagnosis origin d locate = .ok r) :
    ofDiagnosis origin' d locate = .ok { r with origin := origin' } := by
  unfold ofDiagnosis at h ⊢
  obtain ⟨location, hlocation, h⟩ := Except.bind_eq_ok.mp h
  obtain ⟨remarks, hremarks, h⟩ := Except.bind_eq_ok.mp h
  cases h
  rw [hlocation, hremarks]
  rfl

/-- **An error of a line is reported alike in the line by itself and in the script**: under another name,
and with every location where the line is in the script. -/
theorem Console.report_inScript {script raw : List Char} {l : Line} {e : LineError} (file : String)
    (h : l.StandsIn script raw) (hreturn : '\r' ∉ raw) (he : e.PlacedIn l.text) :
    ∃ here, e.report Console.origin l.text = .ok here
      ∧ ScriptLine.report ⟨l, .error e⟩ file script e
        = .ok { here.mapLocations (Location.inScript l) with origin := file } := by
  have hends : EndedLine raw ∨ OneLine raw := by
    obtain ⟨front, back, hraws, -⟩ := h
    exact (rawLines_split hraws).2
  have htext : l.text = lineText raw := by
    obtain ⟨front, back, -, rfl⟩ := h
    rfl
  have hone : OneLine l.text := by
    rw [htext]
    exact lineText_oneLine hends
  have hplaces : ∀ p ∈ (e.diagnosis l.text).places,
      Report.BothPlace (fun x y => y = Location.inScript l x)
        (fun place => Location.locate l.text place.offset place.length)
        (fun place => do (← Location.locate l.text place.offset place.length).relocate script l.start)
        p := by
    intro p hp
    have hin := LineError.diagnosis_placed he p hp
    obtain ⟨here, hhere, hthere⟩ := Location.relocate_eq_placed h hin
    have hplaced : here.placed l (displayed raw) = here.inScript l := by
      rw [displayed_eq_lineText hends hreturn, ← htext, Location.placed,
        ← Location.lineSource_eq hone hin hhere]
      rfl
    rw [hplaced] at hthere
    exact ⟨here, _, hhere, Except.bind_eq_ok.mpr ⟨here, hhere, hthere⟩, rfl⟩
  obtain ⟨here, hconsole, hscript⟩ := Report.ofDiagnosis_mapLocations Console.origin hplaces
  refine ⟨here, hconsole, ?_⟩
  rw [ScriptLine.report_eq (l := ⟨l, .error e⟩) h]
  exact Report.ofDiagnosis_origin file hscript

/-! ## The console and a script -/

/-- **The same answer to a line**: nothing, the same output, or the same report but for the name of the
text and where the line is in it. -/
inductive SameAnswer (file : String) (line : Line) : List Emission → List Emission → Prop where
  | nothing : SameAnswer file line [] []
  | output (text : String) : SameAnswer file line [.outputLine text] [.outputLine text]
  | failure (here : Report) :
    SameAnswer file line [.report here]
      [.report { here.mapLocations (Location.inScript line) with origin := file }]

/-- What is read is one of the lines, with what it comes to as things are. -/
theorem Session.mem_reads {s : Session} {lines : List Line} {r : Line × LineResult}
    (h : r ∈ s.reads lines) : r.1 ∈ lines ∧ ∃ t : Session, r.2 = (t.execute r.1.text).1 := by
  induction lines generalizing s with
  | nil => cases h
  | cons line rest ih =>
    by_cases hexit : AsksExit line.text
    · rw [reads_cons_of_exit hexit] at h
      obtain rfl := List.mem_singleton.mp h
      exact ⟨List.mem_cons_self, s, (congrArg Prod.fst (execute_of_asksExit hexit)).symm⟩
    · rw [reads_cons hexit] at h
      rcases List.mem_cons.mp h with rfl | h
      · exact ⟨List.mem_cons_self, s, rfl⟩
      · exact (ih h).imp_left (List.mem_cons_of_mem _)

/-- **A line is answered alike by the console and in a script.** -/
theorem Console.sameAnswer {script raw : List Char} {l : Line} (file : String) (s : Session)
    (h : l.StandsIn script raw) (hreturn : '\r' ∉ raw) :
    SameAnswer file l (answer l.text (s.execute l.text).1)
      (((s.execute l.text).1.entry l).map (·.emission file script)) := by
  cases hresult : (s.execute l.text).1 with
  | silent | exit => exact .nothing
  | output text => exact .output text
  | failed e =>
    obtain ⟨here, hhere, hthere⟩ := report_inScript file h hreturn (Session.execute_failed hresult)
    simp only [answer, LineResult.entry, List.map_cons, List.map_nil, ScriptLine.emission, hhere, hthere]
    exact .failure here

/-- **The console and a script agree** about every text without carriage returns. They read the same lines,
all or up to the first that asks to exit. The console asks for each line, and once more if no line ends it,
and answers it; the script answers it alike; and both end with the same session. -/
theorem console_eq_script (settings : Settings) (file : String) {t : List Char} (hreturn : '\r' ∉ t) :
    let s : Session := { settings }
    let reads := s.reads (linesOf t)
    let typed := (rawLines t).map some
    (reads.map Prod.fst <+: linesOf t
        ∧ (Session.endedBy reads = false → reads.map Prod.fst = linesOf t))
      ∧ (Console.runLines s typed).emissions
        = (reads.flatMap fun r => Console.prompt :: Console.answer r.1.text r.2) ++ Console.ending reads
      ∧ (runScript settings file (.text t)).emissions
        = (reads.flatMap fun r => (r.2.entry r.1).map (·.emission file t))
      ∧ (∀ r ∈ reads, SameAnswer file r.1 (Console.answer r.1.text r.2)
        ((r.2.entry r.1).map (·.emission file t)))
      ∧ Console.sessionAfter s typed = (s.run t).2 := by
  intro s reads typed
  have htyped : ∀ raw ∈ rawLines t, Console.typedLine raw = lineText raw := by
    intro raw hraw
    obtain ⟨front, back, hraws⟩ := List.append_of_mem hraw
    exact Console.typedLine_eq_lineText (rawLines_split hraws).2 (not_mem_of_rawLines hraws hreturn)
  obtain ⟨hemissions, hsession⟩ := Console.runLines_eq_reads htyped s 1 0
  refine ⟨s.reads_isPrefix (linesOf t), hemissions, ?_, ?_, hsession⟩
  · show (s.runLines (linesOf t)).1.map (·.emission file t) = _
    rw [Session.runLines_eq_reads, List.map_flatMap]
  · intro r hr
    obtain ⟨hmem, u, hresult⟩ := Session.mem_reads hr
    obtain ⟨raw, hstands⟩ := Line.StandsIn.of_mem hmem
    have hraw : '\r' ∉ raw := by
      obtain ⟨front, back, hraws, -⟩ := hstands
      exact not_mem_of_rawLines hraws hreturn
    rw [hresult]
    exact Console.sameAnswer file u hstands hraw

/-- An assignment, a bracket that is not closed, and the end before the last line. -/
theorem console_eq_script_exit :
    '\r' ∉ "a = 1kΩ\nb = (a\nexit\nc".toList
      ∧ Console.sessionAfter {} ((rawLines "a = 1kΩ\nb = (a\nexit\nc".toList).map some)
        = (({} : Session).run "a = 1kΩ\nb = (a\nexit\nc".toList).2 :=
  ⟨by decide, (console_eq_script {} "bracket.ee" (by decide)).2.2.2.2⟩

end WorstCase
