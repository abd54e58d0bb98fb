import Mathlib.Data.List.Induction
import Mathlib.Data.List.TakeWhile
import WorstCase.Proofs.Evaluation.Success
import WorstCase.Proofs.Ledger
import WorstCase.Session

/-!
# What a session remembers

A line either assigns a quantity to a name (`Session.Assigns`) or is idle (`Session.Idle`): it is
blank, a comment or asks to end the session, it cannot be read, it only shows a value, or what it would
assign has no value or is no quantity. Idle lines leave the session as it was, however far their
execution came, and an assigning line enters one quantity (`Session.step_of_idle`,
`Session.step_of_assigns`).

So all that a session remembers is the record of its assignments. When a quantity was assigned it was
the value of its expression as things were just before, which may involve what the name stood for until
then.
-/

namespace WorstCase

/-! ## Lines that are not read -/

/-- A text of blanks. -/
def IsBlank (text : List Char) : Prop := ∀ c ∈ text, isWhitespace c = true

/-- A line whose first character, blanks aside, is the sign of a comment. -/
def IsComment (line : List Char) : Prop :=
  ∃ blanks text, IsBlank blanks ∧ line = blanks ++ '#' :: text

/-- A line whose first word is `exit`. -/
def AsksExit (line : List Char) : Prop :=
  ∃ blanks rest, IsBlank blanks ∧ line = blanks ++ "exit".toList ++ rest
    ∧ ∀ c ∈ rest.head?, isWhitespace c = true

section Trim

variable {line blanks text : List Char}

theorem trimStart_append (h : IsBlank blanks) : trimStart (blanks ++ text) = trimStart text :=
  List.dropWhile_append_of_pos h

theorem exists_blanks (line : List Char) : ∃ blanks, IsBlank blanks ∧ line = blanks ++ trimStart line :=
  ⟨line.takeWhile isWhitespace, fun _ hc => List.mem_takeWhile_imp hc,
    List.takeWhile_append_dropWhile.symm⟩

/-- **Silent lines** are the blank ones and the comments. -/
theorem isSilent_iff : isSilent (trimStart line) = true ↔ IsBlank line ∨ IsComment line := by
  constructor
  · intro h
    obtain ⟨blanks, hblanks, hline⟩ := exists_blanks line
    cases htrim : trimStart line with
    | nil =>
      rw [htrim, List.append_nil] at hline
      exact .inl (hline ▸ hblanks)
    | cons c cs =>
      rw [htrim] at h hline
      have hc : c = '#' := by simpa [isSilent] using h
      exact .inr ⟨blanks, cs, hblanks, hc ▸ hline⟩
  · rintro (h | ⟨blanks, text, hblanks, rfl⟩)
    · have hnil : trimStart line = [] := List.dropWhile_eq_nil_iff.mpr h
      rw [hnil]
      rfl
    · rw [trimStart_append hblanks]
      rfl

/-- **Lines that ask to end the session** say so with their first word. -/
theorem isExit_iff : isExit (trimStart line) = true ↔ AsksExit line := by
  rw [isExit, beq_iff_eq]
  constructor
  · intro h
    obtain ⟨blanks, hblanks, hline⟩ := exists_blanks line
    refine ⟨blanks, (trimStart line).dropWhile (!isWhitespace ·), hblanks, ?_, fun c hc => ?_⟩
    · rw [List.append_assoc, show "exit".toList = ['e', 'x', 'i', 't'] from rfl, ← h,
        List.takeWhile_append_dropWhile]
      exact hline
    · have hstop := List.head?_dropWhile_not (!isWhitespace ·) (trimStart line)
      rw [hc] at hstop
      simpa using hstop
  · rintro ⟨blanks, rest, hblanks, rfl, hrest⟩
    rw [List.append_assoc, trimStart_append hblanks]
    have hword : trimStart ("exit".toList ++ rest) = ['e', 'x', 'i', 't'] ++ rest := rfl
    rw [hword, List.takeWhile_append_of_pos (List.all_eq_true.mp rfl)]
    cases rest with
    | nil => rfl
    | cons c cs => rw [List.takeWhile_cons_of_neg (by simpa using hrest c rfl), List.append_nil]

instance : Decidable (AsksExit line) := decidable_of_iff _ isExit_iff

end Trim

/-! ## One line -/

namespace Session

variable {s : Session} {line : List Char} {name : String} {q : Quantity Binary64}

/-- **A line that assigns a quantity to a name.** -/
structure Assigns (s : Session) (line : List Char) (name : String) (q : Quantity Binary64) : Prop where
  not_blank : ¬ IsBlank line
  not_comment : ¬ IsComment line
  not_exit : ¬ AsksExit line
  /-- It is an assignment whose right side is the quantity, as things are. -/
  value : ∃ extent node value, parseStatement s.settings.dialect line = .ok (.assign extent node value)
    ∧ node.value = name ∧ value.eval s.environment = .ok (.quantity q)

/-- **A line that assigns nothing.** -/
inductive Idle (s : Session) (line : List Char) : Prop where
  | blank (h : IsBlank line)
  | comment (h : IsComment line)
  | exit (h : AsksExit line)
  /-- It is no formula. -/
  | unread {e : ParseError} (h : parseStatement s.settings.dialect line = .error e)
  /-- It is an expression, whose value is shown at most. -/
  | expression {value : Expr Binary64}
      (h : parseStatement s.settings.dialect line = .ok (.expression value))
  /-- The right side of the assignment fails. -/
  | failed {extent : Extent} {node : Node String} {value : Expr Binary64} {e : EvalError Binary64}
      (h : parseStatement s.settings.dialect line = .ok (.assign extent node value))
      (hvalue : value.eval s.environment = .error e)
  /-- The right side of the assignment is no quantity. -/
  | untyped {extent : Extent} {node : Node String} {value : Expr Binary64} {o : Outcome Binary64}
      (h : parseStatement s.settings.dialect line = .ok (.assign extent node value))
      (hvalue : value.eval s.environment = .ok o) (huntyped : ∀ q, o ≠ .quantity q)

/-- **A line is one or the other.** -/
theorem idle_or_assigns (s : Session) (line : List Char) :
    s.Idle line ∨ ∃ name q, s.Assigns line name q := by
  by_cases hblank : IsBlank line
  · exact .inl (.blank hblank)
  by_cases hcomment : IsComment line
  · exact .inl (.comment hcomment)
  by_cases hexit : AsksExit line
  · exact .inl (.exit hexit)
  cases hparse : parseStatement s.settings.dialect line with
  | error e => exact .inl (.unread hparse)
  | ok statement =>
    cases statement with
    | expression value => exact .inl (.expression hparse)
    | assign extent node value =>
      cases hvalue : value.eval s.environment with
      | error e => exact .inl (.failed hparse hvalue)
      | ok o =>
        cases o with
        | quantity q =>
          exact .inr ⟨node.value, q, hblank, hcomment, hexit, extent, node, value, hparse, rfl, hvalue⟩
        | bounds i => exact .inl (.untyped hparse hvalue fun q h => (nomatch h))
        | undefined => exact .inl (.untyped hparse hvalue fun q h => (nomatch h))

theorem Idle.not_assigns (h : s.Idle line) : ¬ s.Assigns line name q := by
  rintro ⟨hblank, hcomment, hexit, extent, node, value, hparse, -, hvalue⟩
  cases h with
  | blank h => exact hblank h
  | comment h => exact hcomment h
  | exit h => exact hexit h
  | unread h => cases hparse.symm.trans h
  | expression h => cases hparse.symm.trans h
  | failed h hfailed =>
    cases hparse.symm.trans h
    cases hvalue.symm.trans hfailed
  | untyped h ho huntyped =>
    cases hparse.symm.trans h
    cases hvalue.symm.trans ho
    exact huntyped q rfl

/-- What a line assigns is determined. -/
theorem Assigns.unique {name' : String} {q' : Quantity Binary64} (h : s.Assigns line name q)
    (h' : s.Assigns line name' q') : name' = name ∧ q' = q := by
  obtain ⟨extent, node, value, hparse, rfl, hvalue⟩ := h.value
  obtain ⟨extent', node', value', hparse', rfl, hvalue'⟩ := h'.value
  cases hparse.symm.trans hparse'
  cases hvalue.symm.trans hvalue'
  exact ⟨rfl, rfl⟩

/-- The session after a line. -/
def step (s : Session) (line : List Char) : Session := (s.execute line).2

/-- **An idle line leaves the session as it was.** -/
theorem step_of_idle (h : s.Idle line) : s.step line = s := by
  unfold step execute
  dsimp only
  split
  · rfl
  · rename_i hsilent
    obtain ⟨hblank, hcomment⟩ := not_or.mp (mt isSilent_iff.mpr hsilent)
    split
    · rfl
    · rename_i hexit
      cases h with
      | blank h => exact absurd h hblank
      | comment h => exact absurd h hcomment
      | exit h => exact absurd (isExit_iff.mpr h) hexit
      | unread h => rw [h]
      | expression h =>
        rw [h]
        dsimp only [perform]
        split <;> rfl
      | failed h hvalue =>
        rw [h]
        dsimp only [perform, Expr.evalFor]
        rw [hvalue]
        rfl
      | @untyped _ _ _ o h hvalue huntyped =>
        rw [h]
        dsimp only [perform, Expr.evalFor]
        rw [hvalue]
        cases o with
        | quantity q => exact absurd rfl (huntyped q)
        | bounds i => rfl
        | undefined => rfl

/-- **An assigning line enters the quantity**, and changes nothing else. -/
theorem step_of_assigns (h : s.Assigns line name q) :
    s.step line = { s with environment := s.environment.assign name q } := by
  obtain ⟨hblank, hcomment, hexit, extent, node, value, hparse, rfl, hvalue⟩ := h
  have hsilent : ¬ isSilent (trimStart line) = true := fun h =>
    (isSilent_iff.mp h).elim hblank hcomment
  have hexit' : ¬ isExit (trimStart line) = true := fun h => hexit (isExit_iff.mp h)
  have hquantity : value.evalFor s.environment node.value = .ok q := by
    rw [Expr.evalFor, hvalue]
    rfl
  rw [step, execute, if_neg hsilent, if_neg hexit', hparse]
  dsimp only [perform]
  rw [hquantity]

/-- No line changes the settings. -/
theorem settings_step (s : Session) (line : List Char) : (s.step line).settings = s.settings := by
  rcases s.idle_or_assigns line with hidle | ⟨name, q, hassigns⟩
  · rw [step_of_idle hidle]
  · rw [step_of_assigns hassigns]

/-! ## Many lines -/

/-- **The session after lines**, executed one after the other. -/
def after (s : Session) (lines : List (List Char)) : Session := lines.foldl step s

/-- **Line `k` assigns a quantity to a name**, as things are after the lines before it. -/
def AssignsAt (s : Session) (lines : List (List Char)) (k : Nat) (name : String)
    (q : Quantity Binary64) : Prop :=
  ∃ line, lines[k]? = some line ∧ (s.after (lines.take k)).Assigns line name q

variable {lines : List (List Char)} {k : Nat}

@[simp] theorem after_concat (s : Session) (lines : List (List Char)) (line : List Char) :
    s.after (lines ++ [line]) = (s.after lines).step line := by
  rw [after, List.foldl_append]
  rfl

theorem AssignsAt.lt (h : s.AssignsAt lines k name q) : k < lines.length := by
  obtain ⟨line, hline, -⟩ := h
  exact (List.getElem?_eq_some_iff.mp hline).1

/-- One line more. -/
theorem assignsAt_concat : s.AssignsAt (lines ++ [line]) k name q
    ↔ s.AssignsAt lines k name q ∨ (k = lines.length ∧ (s.after lines).Assigns line name q) := by
  unfold AssignsAt
  rcases Nat.lt_trichotomy k lines.length with hlt | rfl | hgt
  · rw [List.getElem?_append_left hlt, List.take_append_of_le_length (Nat.le_of_lt hlt)]
    exact ⟨.inl, fun h => h.elim id fun h => absurd h.1 (Nat.ne_of_lt hlt)⟩
  · rw [List.getElem?_concat_length, List.take_left, List.getElem?_eq_none (Nat.le_refl _)]
    constructor
    · rintro ⟨_, ⟨⟩, h⟩
      exact .inr ⟨rfl, h⟩
    · rintro (⟨_, ⟨⟩, -⟩ | ⟨-, h⟩)
      exact ⟨line, rfl, h⟩
  · rw [List.getElem?_eq_none (by simpa using Nat.succ_le_of_lt hgt),
      List.getElem?_eq_none (Nat.le_of_lt hgt)]
    constructor
    · rintro ⟨_, ⟨⟩, -⟩
    · rintro (⟨_, ⟨⟩, -⟩ | ⟨rfl, -⟩)
      exact absurd hgt (Nat.lt_irrefl _)

/-- The settings stay. -/
theorem settings_after (s : Session) (lines : List (List Char)) :
    (s.after lines).settings = s.settings := by
  induction lines using List.reverseRecOn with
  | nil => rfl
  | append_singleton lines line ih => rw [after_concat, settings_step, ih]

/-- **What evaluation keeps, a session keeps.** Every value in it came about by evaluation, from values
that were in it before. -/
theorem environment_all_after {P : Quantity Binary64 → Prop} (hP : KeptByEvaluation P)
    (henv : s.environment.All P) (lines : List (List Char)) : (s.after lines).environment.All P := by
  induction lines using List.reverseRecOn with
  | nil => exact henv
  | append_singleton lines line ih =>
    rw [after_concat]
    rcases (s.after lines).idle_or_assigns line with hidle | ⟨name, q, hassigns⟩
    · rw [step_of_idle hidle]
      exact ih
    · obtain ⟨extent, node, value, -, -, hvalue⟩ := hassigns.value
      rw [step_of_assigns hassigns]
      exact ih.assign (hP.eval ih hvalue)

/-- **The environment is the record of the assignments**, by induction on the lines: an idle line
leaves both as they are, and an assigning line makes one entry in either. -/
theorem environment_after (settings : Settings) (lines : List (List Char)) :
    (({ settings := settings } : Session).after lines).environment.RecordOf
      (({ settings := settings } : Session).AssignsAt lines) := by
  induction lines using List.reverseRecOn with
  | nil => exact .empty fun k name q h => absurd h.lt (Nat.not_lt_zero k)
  | append_singleton lines line ih =>
    rw [after_concat]
    rcases (Session.after _ lines).idle_or_assigns line with hidle | ⟨name, q, hassigns⟩
    · rw [step_of_idle hidle]
      refine ih.congr fun k name q => assignsAt_concat.trans (or_iff_left ?_)
      exact fun h => hidle.not_assigns h.2
    · rw [step_of_assigns hassigns]
      refine (ih.assign (fun _ _ _ h => h.lt) name q).congr fun k other v => ?_
      rw [assignsAt_concat]
      refine or_congr_right (and_congr_right fun _ => ?_)
      constructor
      · exact fun h => hassigns.unique h
      · rintro ⟨rfl, rfl⟩
        exact hassigns

/-- **A session is the history of its assignments.** In whatever settings it is started, and whatever
lines are executed in it: a line that assigns nothing leaves the session as it was. The names are those
that a line assigned something to, each of them once, in the order in which that first happened. A name
has the quantity that was assigned to it last, which is the value of the right side in the environment
just before that line. -/
theorem after_eq_history (settings : Settings) (lines : List (List Char)) :
    let start : Session := { settings := settings }
    let env := (start.after lines).environment
    (start.after lines).settings = settings
    ∧ (∀ k line, lines[k]? = some line → (start.after (lines.take k)).Idle line →
        start.after (lines.take (k + 1)) = start.after (lines.take k))
    ∧ env.names.Nodup
    ∧ (∀ name, name ∈ env.names ↔ ∃ k q, start.AssignsAt lines k name q)
    ∧ (env.names.Pairwise fun earlier later => ∃ k q, start.AssignsAt lines k earlier q
        ∧ ∀ j ≤ k, ∀ q', ¬ start.AssignsAt lines j later q')
    ∧ ∀ name q, env.get? name = some q ↔ ∃ k, start.AssignsAt lines k name q
        ∧ ∀ j > k, ∀ q', ¬ start.AssignsAt lines j name q' := by
  have hrecord := environment_after settings lines
  refine ⟨settings_after _ lines, fun k line hline hidle => ?_, Ledger.nodup_names _,
    hrecord.mem_names_iff, hrecord.in_order, hrecord.latest⟩
  obtain ⟨hk, rfl⟩ := List.getElem?_eq_some_iff.mp hline
  rw [List.take_succ_eq_append_getElem hk, after_concat, step_of_idle hidle]

/-- Two variables, one of them assigned again with what it stood for, and an assignment that fails. -/
theorem after_eq_history_reassigned :
    let lines := ["a = 1k", "b = a", "a = a + b", "c = d"].map String.toList
    (({} : Session).after lines).environment.names = ["a", "b"]
      ∧ ∃ q, (({} : Session).after lines).environment.get? "a" = some q
        ∧ ∃ k, ({} : Session).AssignsAt lines k "a" q
          ∧ ∀ j > k, ∀ q', ¬ ({} : Session).AssignsAt lines j "a" q' := by
  intro lines
  have hnames : (({} : Session).after lines).environment.names = ["a", "b"] := by decide +kernel
  obtain ⟨-, -, -, -, -, hlatest⟩ := after_eq_history {} lines
  obtain ⟨q, hq⟩ := Ledger.mem_names_iff.mp (hnames ▸ List.mem_cons_self)
  exact ⟨hnames, q, hq, (hlatest "a" q).mp hq⟩

end Session

end WorstCase
