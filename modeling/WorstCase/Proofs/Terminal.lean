import Mathlib.Data.List.Basic
import WorstCase.Terminal

/-!
# What shows of styled text

A style is written as a control sequence: an escape character, a bracket, parameters, and a letter that
ends it. None of that shows, and behind it the terminal is in the middle of nothing again
(`Terminal.visibleFrom_sequence`). So if all the text between the styles shows, what shows is that text
(`Terminal.plain_eq_join`).
-/

namespace WorstCase.Terminal

variable {c : Char} {text rest : List Char}

/-- **A text that shows as it is.** -/
def IsShown (text : List Char) : Prop := ∀ c ∈ text, Mode.ground.shows c = true

theorem isShown_iff : IsShown text ↔ text.all Mode.ground.shows = true := List.all_eq_true.symm

/-- A character that shows leaves everything as it is. -/
theorem visibleFrom_cons (h : Mode.ground.shows c = true) :
    visibleFrom .ground true (c :: rest) = c :: visibleFrom .ground true rest := by
  rw [visibleFrom, h, ite_self]
  rfl

/-- **A text that shows** shows before what is behind it. -/
theorem visibleFrom_append (h : IsShown text) :
    visibleFrom .ground true (text ++ rest) = text ++ visibleFrom .ground true rest := by
  induction text with
  | nil => rfl
  | cons c text ih =>
    obtain ⟨hc, htext⟩ := List.forall_mem_cons.mp h
    rw [List.cons_append, visibleFrom_cons hc, ih htext]
    rfl

/-! ## Control sequences -/

/-- Behind a command it makes no difference that no text was showing: what would have ended the text
starts the next command, or is passed over. -/
theorem visibleFrom_ground : visibleFrom .ground false rest = visibleFrom .ground true rest := by
  cases rest with
  | nil => rfl
  | cons c rest =>
    rw [visibleFrom, visibleFrom]
    by_cases hshow : Mode.ground.shows c = true
    · simp [hshow]
    · by_cases hescape : c.toNat = 0x1b
      · have hground : Mode.ground.next c = .escape := by simp [Mode.next, hescape]
        have hnext : Mode.escape.next c = .escape := by simp [Mode.next, hescape]
        have hhidden : Mode.escape.shows c = false := by
          have hblank : isBlankControl c = false := by
            simp only [Mode.shows, Bool.or_eq_true, not_or] at hshow
            exact Bool.eq_false_iff.mpr hshow.1
          exact hblank
        simp [hshow, hground, hnext, hhidden]
      · have hground : Mode.ground.next c = .ground := by simp [Mode.next, hescape]
        simp [hshow, hground]

/-- Digits, semicolons and what is beside them, which may stand in a control sequence. -/
def isParameter (c : Char) : Bool := decide (0x30 ≤ c.toNat) && decide (c.toNat < 0x40)

/-- In a control sequence the parameters do not show and do not end it. -/
theorem visibleFrom_parameters {parameters : List Char} (h : parameters.all isParameter = true) :
    visibleFrom .sequence false (parameters ++ rest) = visibleFrom .sequence false rest := by
  induction parameters with
  | nil => rfl
  | cons c parameters ih =>
    rw [List.all_cons, Bool.and_eq_true] at h
    obtain ⟨hc, hparameters⟩ := h
    simp only [isParameter, Bool.and_eq_true, decide_eq_true_eq] at hc
    obtain ⟨hlow, hhigh⟩ := hc
    have hhidden : Mode.sequence.shows c = false := by
      show isBlankControl c = false
      have hne : ∀ blank : Char, blank.toNat < 0x30 → (c == blank) = false := by
        intro blank hblank
        rw [beq_eq_false_iff_ne]
        rintro rfl
        omega
      simp [isBlankControl, hne]
    have hnext : Mode.sequence.next c = .sequence := by
      simp only [Mode.next]
      rw [if_neg (by omega), if_neg (by omega), if_neg (by omega)]
    rw [List.cons_append, visibleFrom]
    simp only [Bool.false_and, Bool.false_eq_true, if_false, hhidden, hnext]
    exact ih hparameters

/-- **Nothing of a control sequence shows.** -/
theorem visibleFrom_sequence {parameters : List Char} (h : parameters.all isParameter = true) :
    visibleFrom .ground true ('\x1b' :: '[' :: (parameters ++ 'm' :: rest))
      = visibleFrom .ground true rest :=
  calc visibleFrom .ground true ('\x1b' :: '[' :: (parameters ++ 'm' :: rest))
      = visibleFrom .sequence false (parameters ++ 'm' :: rest) := rfl
    _ = visibleFrom .sequence false ('m' :: rest) := visibleFrom_parameters h
    _ = visibleFrom .ground false rest := rfl
    _ = visibleFrom .ground true rest := visibleFrom_ground

/-! ## Styled text -/

/-- The text of a piece, without styles. -/
def Piece.bare : Piece → String
  | .text s => s
  | .begin _ | .reset => ""

/-- A style is written in digits and semicolons. -/
theorem Style.codes_parameters (s : Style) : s.codes.toList.all isParameter = true := by
  obtain ⟨color, bold⟩ := s
  cases color with
  | none => cases bold <;> decide +kernel
  | some color => cases color <;> cases bold <;> decide +kernel

/-- **Of a piece only its text shows.** -/
theorem visibleFrom_ansi {p : Piece} (h : IsShown p.bare.toList) :
    visibleFrom .ground true (p.ansi.toList ++ rest)
      = p.bare.toList ++ visibleFrom .ground true rest := by
  cases p with
  | text s => exact visibleFrom_append h
  | begin s =>
    have hwritten : (Piece.begin s).ansi.toList ++ rest
        = '\x1b' :: '[' :: (s.codes.toList ++ 'm' :: rest) := by
      simp [Piece.ansi, String.toList_append]
    rw [hwritten, visibleFrom_sequence s.codes_parameters]
    rfl
  | reset =>
    have hwritten : Piece.reset.ansi.toList ++ rest = '\x1b' :: '[' :: (['0'] ++ 'm' :: rest) := by
      simp [Piece.ansi]
    rw [hwritten, visibleFrom_sequence (by decide)]
    rfl

/-- **What shows of styled text** is its text, if all of that shows. -/
theorem plain_eq_join {t : StyledText} (h : ∀ p ∈ t, IsShown p.bare.toList) :
    plain t = String.join (t.map Piece.bare) := by
  have hvisible : visibleFrom .ground true (ansi t).toList
      = (String.join (t.map Piece.bare)).toList := by
    rw [ansi]
    induction t with
    | nil => rfl
    | cons p t ih =>
      obtain ⟨hp, ht⟩ := List.forall_mem_cons.mp h
      rw [List.map_cons, List.map_cons, String.join_cons, String.join_cons, String.toList_append,
        String.toList_append, visibleFrom_ansi hp, ih ht]
  rw [plain, visible, hvisible, String.ofList_toList]

end WorstCase.Terminal
