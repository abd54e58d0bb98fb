import WorstCase.Proofs.Source.Lines

/-!
# Texts put together, and two kinds of line ends

A text that ends with a line end falls into ended lines only, so behind it another text begins a line
of its own: its lines are those it has by itself, further on by the line ends and the bytes before it
(`linesOf_append`).

A line end may be spelled with a carriage return before the line feed. The line then starts as many
bytes later as there are line ends before it, and is the same line otherwise (`linesOf_crlf`). It is
also displayed the same, which is not quite by the rule for its text: where the text ends without a
line feed, a carriage return is no part of a line end when the line is displayed (`displayed`).
-/

namespace WorstCase

/-! ## Texts that end with a line end -/

/-- A text behind which a line begins. -/
def EndsLine (text : List Char) : Prop := text = [] ∨ text.getLast? = some '\n'

instance (text : List Char) : Decidable (EndsLine text) :=
  inferInstanceAs (Decidable (text = [] ∨ text.getLast? = some '\n'))

theorem EndsLine.tail {c : Char} {cs : List Char} (h : EndsLine (c :: cs)) : EndsLine cs := by
  cases cs with
  | nil => exact .inl rfl
  | cons d ds => exact .inr (h.resolve_left (List.cons_ne_nil _ _))

/-- The first line of such a text is an ended one. -/
theorem EndsLine.rawLines_eq_cons {c : Char} {cs : List Char} (h : EndsLine (c :: cs)) (hc : c ≠ '\n') :
    ∃ line lines, rawLines cs = line :: lines := by
  cases hcs : rawLines cs with
  | cons line lines => exact ⟨line, lines, rfl⟩
  | nil =>
    have hnil : cs = [] := by rw [← flatten_rawLines cs, hcs, List.flatten_nil]
    subst hnil
    exact absurd (Option.some.inj (h.resolve_left (List.cons_ne_nil _ _))) hc

/-- **Lines of a text are not joined with what comes behind it.** -/
theorem rawLines_append {text : List Char} (h : EndsLine text) (more : List Char) :
    rawLines (text ++ more) = rawLines text ++ rawLines more := by
  induction text with
  | nil => rfl
  | cons c cs ih =>
    rw [List.cons_append, rawLines, rawLines, ih h.tail]
    by_cases hc : c = '\n'
    · rw [if_pos hc, if_pos hc]
      rfl
    · obtain ⟨line, lines, hcs⟩ := h.rawLines_eq_cons hc
      rw [if_neg hc, if_neg hc, hcs]
      rfl

/-- It has a line for each line feed. -/
theorem length_rawLines {text : List Char} (h : EndsLine text) :
    (rawLines text).length = text.count '\n' := by
  induction text with
  | nil => rfl
  | cons c cs ih =>
    rw [rawLines, List.count_cons, ← ih h.tail]
    by_cases hc : c = '\n'
    · rw [if_pos hc, hc]
      rfl
    · obtain ⟨line, lines, hcs⟩ := h.rawLines_eq_cons hc
      rw [if_neg hc, hcs, if_neg (by simpa using hc)]
      rfl

/-- **A line further on**, by so many lines and bytes. -/
def Line.shift (lines bytes : Nat) (l : Line) : Line :=
  { l with number := l.number + lines, start := l.start + bytes }

theorem placeLines_append (number start : Nat) (raws more : List (List Char)) :
    placeLines number start (raws ++ more) = placeLines number start raws
      ++ placeLines (number + raws.length) (start + byteSize raws.flatten) more := by
  induction raws generalizing number start with
  | nil => rfl
  | cons raw raws ih =>
    rw [List.cons_append, placeLines, placeLines, ih, List.cons_append, List.length_cons,
      List.flatten_cons, byteSize_append]
    congr 3 <;> omega

theorem placeLines_shift (number start lines bytes : Nat) (raws : List (List Char)) :
    placeLines (number + lines) (start + bytes) raws
      = (placeLines number start raws).map (Line.shift lines bytes) := by
  induction raws generalizing number start with
  | nil => rfl
  | cons raw raws ih =>
    rw [placeLines, placeLines, List.map_cons, ← ih, Nat.add_right_comm number lines 1,
      Nat.add_right_comm start bytes]
    rfl

/-- **The lines of two texts in one** are those of the first, and those of the second further on. -/
theorem linesOf_append {text : List Char} (h : EndsLine text) (more : List Char) :
    linesOf (text ++ more) = linesOf text
      ++ (linesOf more).map (Line.shift (text.count '\n') (byteSize text)) := by
  rw [linesOf, linesOf, linesOf, rawLines_append h, placeLines_append, flatten_rawLines,
    length_rawLines h, placeLines_shift]

/-! ## Carriage returns -/

/-- **A text with a carriage return before each line feed.** -/
def crlf (text : List Char) : List Char :=
  text.flatMap fun c => if c = '\n' then ['\r', '\n'] else [c]

theorem crlf_cons_feed (cs : List Char) : crlf ('\n' :: cs) = '\r' :: '\n' :: crlf cs := rfl

theorem crlf_cons {c : Char} (hc : c ≠ '\n') (cs : List Char) : crlf (c :: cs) = c :: crlf cs := by
  rw [crlf, List.flatMap_cons, if_neg hc]
  rfl

theorem crlf_append (text more : List Char) : crlf (text ++ more) = crlf text ++ crlf more :=
  List.flatMap_append

theorem crlf_flatten (texts : List (List Char)) : crlf texts.flatten = (texts.map crlf).flatten := by
  induction texts with
  | nil => rfl
  | cons text texts ih => rw [List.flatten_cons, crlf_append, ih, List.map_cons, List.flatten_cons]

theorem crlf_of_oneLine {text : List Char} (h : OneLine text) : crlf text = text := by
  induction text with
  | nil => rfl
  | cons c cs ih =>
    have hc : c ≠ '\n' := fun hc => h (hc ▸ List.mem_cons_self)
    rw [crlf_cons hc, ih fun hn => h (List.mem_cons_of_mem _ hn)]

theorem byteSize_crlf (text : List Char) :
    byteSize (crlf text) = byteSize text + text.count '\n' := by
  induction text with
  | nil => rfl
  | cons c cs ih =>
    by_cases hc : c = '\n'
    · subst hc
      rw [crlf_cons_feed, byteSize_cons, byteSize_cons, byteSize_cons, ih, List.count_cons_self]
      have hreturn : Char.utf8Size '\r' = 1 := rfl
      omega
    · rw [crlf_cons hc, byteSize_cons, byteSize_cons, ih, List.count_cons_of_ne hc, Nat.add_assoc]

/-- It falls into the same lines. -/
theorem rawLines_crlf (text : List Char) : rawLines (crlf text) = (rawLines text).map crlf := by
  induction text with
  | nil => rfl
  | cons c cs ih =>
    by_cases hc : c = '\n'
    · subst hc
      rw [crlf_cons_feed, rawLines, if_neg (by decide), rawLines, if_pos rfl, ih, rawLines, if_pos rfl]
      rfl
    · rw [crlf_cons hc, rawLines, if_neg hc, ih, rawLines, if_neg hc]
      cases rawLines cs with
      | nil =>
        show [[c]] = [crlf [c]]
        rw [crlf_cons hc]
        rfl
      | cons line lines =>
        show (c :: crlf line) :: lines.map crlf = crlf (c :: line) :: lines.map crlf
        rw [crlf_cons hc]

/-! ## Lines as they are displayed -/

/-- **A line without its line end, as it is displayed.** -/
def displayed (raw : List Char) : List Char :=
  if raw.getLast? = some '\n' then lineText raw else raw

theorem lineText_ended (body : List Char) : lineText (body ++ ['\n']) = dropLastChar '\r' body := by
  rw [lineText, dropLastChar.eq_1 '\n', List.getLast?_concat, if_pos rfl, List.dropLast_concat]

theorem dropLastChar_of_not_mem {last : Char} {text : List Char} (h : last ∉ text) :
    dropLastChar last text = text := by
  rw [dropLastChar, if_neg fun hlast => h (List.mem_of_getLast? hlast)]

theorem not_mem_of_rawLines {text raw : List Char} {front back : List (List Char)} {c : Char}
    (h : rawLines text = front ++ raw :: back) (hc : c ∉ text) : c ∉ raw := by
  intro hn
  rw [← flatten_rawLines text, h] at hc
  exact hc (List.mem_flatten.mpr ⟨raw, List.mem_append_right _ List.mem_cons_self, hn⟩)

/-- A line has its text, whichever way it ends. -/
theorem lineText_crlf {raw : List Char} (h : EndedLine raw ∨ OneLine raw) (hreturn : '\r' ∉ raw) :
    lineText (crlf raw) = lineText raw := by
  rcases h with ⟨body, hbody, rfl⟩ | h
  · have hbody' : '\r' ∉ body := fun hn => hreturn (List.mem_append_left _ hn)
    have hcrlf : crlf (body ++ ['\n']) = (body ++ ['\r']) ++ ['\n'] := by
      rw [crlf_append, crlf_of_oneLine hbody, List.append_assoc]
      rfl
    rw [hcrlf, lineText_ended, lineText_ended, dropLastChar_of_not_mem hbody', dropLastChar,
      List.getLast?_concat, if_pos rfl, List.dropLast_concat]
  · rw [crlf_of_oneLine h]

theorem displayed_crlf {raw : List Char} (h : EndedLine raw ∨ OneLine raw) (hreturn : '\r' ∉ raw) :
    displayed (crlf raw) = displayed raw := by
  have htext := lineText_crlf h hreturn
  rcases h with ⟨body, hbody, rfl⟩ | h
  · have hlast : (crlf (body ++ ['\n'])).getLast? = some '\n' := by
      rw [crlf_append, List.getLast?_append]
      rfl
    rw [displayed, displayed, if_pos hlast, if_pos List.getLast?_concat, htext]
  · rw [crlf_of_oneLine h]

/-- **A line further on by the carriage returns before it.** -/
def Line.afterReturns (l : Line) : Line := { l with start := l.start + (l.number - 1) }

/-- Only the last line of a text need not be ended. -/
theorem endedLine_of_mem_dropLast {text raw : List Char} (h : raw ∈ (rawLines text).dropLast) :
    EndedLine raw := by
  have hne : rawLines text ≠ [] := by
    intro hnil
    rw [hnil] at h
    cases h
  have hsplit := (List.dropLast_concat_getLast hne).symm
  exact (rawLines_split hsplit).1 raw h

/-- The carriage returns move a line by those of the lines before it, one each. -/
theorem placeLines_crlf {raws : List (List Char)} {number start : Nat}
    (hended : ∀ r ∈ raws.dropLast, EndedLine r) (htext : ∀ r ∈ raws, lineText (crlf r) = lineText r) :
    placeLines (number + 1) (start + number) (raws.map crlf)
      = (placeLines (number + 1) start raws).map Line.afterReturns := by
  induction raws generalizing number start with
  | nil => rfl
  | cons raw raws ih =>
    obtain ⟨hraw, hraws⟩ := List.forall_mem_cons.mp htext
    rw [List.map_cons, placeLines, placeLines, List.map_cons, hraw]
    refine congrArg (List.cons _) ?_
    cases raws with
    | nil => rfl
    | cons next rest =>
      obtain ⟨⟨body, hbody, rfl⟩, hrest⟩ := List.forall_mem_cons.mp hended
      rw [← ih hrest hraws, byteSize_crlf, List.count_append, hbody.count_eq]
      congr 1
      have hone : List.count '\n' ['\n'] = 1 := rfl
      omega

/-- **The lines with carriage returns** have the same texts and numbers. -/
theorem linesOf_crlf {text : List Char} (hreturn : '\r' ∉ text) :
    linesOf (crlf text) = (linesOf text).map Line.afterReturns := by
  rw [linesOf, linesOf, rawLines_crlf]
  refine placeLines_crlf (fun r hr => endedLine_of_mem_dropLast hr) fun r hr => ?_
  obtain ⟨front, back, hraws⟩ := List.append_of_mem hr
  exact lineText_crlf (rawLines_split hraws).2 (not_mem_of_rawLines hraws hreturn)

end WorstCase
