import WorstCase.Proofs.Formula.Taking

/-!
# Blanks between words

No scan looks past a blank (`StopsApart`): what is found at the start of a text is found in the first
word of it, and the blanks with all that follows are left. It holds of every scan, down to the marks of
more than one character, and of the part of a number that breaks off. Only names, prefixes and units go on
with letters of any sort; every other scan stops wherever there is no digit, sign or mark
(`StopsAtMarks`).

Two texts are *respaced* if they have the same words, and blanks between the same words, though not the
same blanks (`Respaced`). A scan finds the same in both (`StopsApart.alike`). Where a scan stops at marks,
all that the texts need to have in common is a piece that no mark comes after (`SameMarks`).
-/

namespace WorstCase

/-- A scan of a text that has more behind it. -/
def Scan.followedBy (more : List Char) : Scan → Scan
  | .found lexeme rest => .found lexeme (rest ++ more)
  | s => s

namespace Lexeme

/-! ## Scans stop -/

/-- **A scan that looks at nothing behind a blank.** -/
def StopsApart (scan : List Char → Scan) : Prop :=
  ∀ word more, Apart more → scan (word ++ more) = (scan word).followedBy more

/-- The characters, digits apart, that numbers, percentages and coefficients go on with, and those of the
marks. -/
def markChars : List Char :=
  ['.', 'e', 'E', '+', '-', '%', 'p', 'm', '*', '/', '|', '^', '@', '°', 'C', '(', ')', '=']

/-- Whether a character is one of these or a digit. -/
def isMarkChar (c : Char) : Bool := c.isDigit || markChars.contains c

/-- **A scan that goes on with marks only**: what it finds in a word, it finds with anything else behind
the word. -/
def StopsAtMarks (scan : List Char → Scan) : Prop :=
  ∀ word more, Stops isMarkChar more → scan (word ++ more) = (scan word).followedBy more

/-- No blank is a mark. -/
theorem Apart.stops_isMarkChar {more : List Char} (h : Apart more) : Stops isMarkChar more :=
  h.stops (by decide) (by decide)

theorem StopsAtMarks.stopsApart {scan : List Char → Scan} (h : StopsAtMarks scan) : StopsApart scan :=
  fun word more hmore => h word more hmore.stops_isMarkChar

section Marks

variable {more : List Char}

theorem isMarkChar_of_isSign {c : Char} (h : isSign c = true) : isMarkChar c = true := by
  simp only [isSign, Bool.or_eq_true, beq_iff_eq] at h
  rcases h with rfl | rfl <;> decide

theorem isMarkChar_of_isNumberChar {c : Char} (h : isNumberChar c = true) : isMarkChar c = true := by
  simp only [isNumberChar, isDecimalChar, isExponentMark, Bool.or_eq_true, beq_iff_eq] at h
  rcases h with (hdigit | rfl) | (rfl | rfl)
  · rw [isMarkChar, hdigit, Bool.true_or]
  · decide
  · decide
  · decide

/-- What goes on with no mark goes on with no digit. -/
theorem Stops.isDigit_of_marks (h : Stops isMarkChar more) : Stops Char.isDigit more :=
  h.mono fun c hc => by rw [isMarkChar, hc, Bool.true_or]

/-- It does not start with a mark. -/
theorem Stops.ne_mark {c : Char} {cs : List Char} (h : Stops isMarkChar (c :: cs)) {m : Char}
    (hm : isMarkChar m = true) : c ≠ m := by
  rintro rfl
  rw [h c rfl] at hm
  cases hm

end Marks

section Parts

variable {p : Char → Bool} {word more : List Char}

theorem takeWhile_stops (h : Stops p more) : (word ++ more).takeWhile p = word.takeWhile p := by
  have hmore : more.takeWhile p = [] := @takeWhile_append _ _ [] (fun _ hc => nomatch hc) h
  rw [List.takeWhile_append, hmore, List.append_nil]
  split
  · rename_i hall
    exact ((List.takeWhile_prefix p).eq_of_length hall).symm
  · rfl

theorem dropWhile_stops (h : Stops p more) :
    (word ++ more).dropWhile p = word.dropWhile p ++ more := by
  have hmore : more.dropWhile p = more := @dropWhile_append _ _ [] (fun _ hc => nomatch hc) h
  rw [List.dropWhile_append, hmore]
  split
  · rename_i hall
    rw [List.isEmpty_iff.mp hall, List.nil_append]
  · rfl

theorem optional_stops (h : Stops p more) :
    optional p (word ++ more) = ((optional p word).1, (optional p word).2 ++ more) := by
  cases word with
  | nil => exact optional_spelt none fun _ => h
  | cons c cs =>
    rw [List.cons_append, optional, optional]
    split <;> rfl

/-- A fraction is in the word, also one that breaks off. -/
theorem fraction_stops (h : Stops isMarkChar more) :
    fraction (word ++ more) = (fraction word).map (Prod.map id (· ++ more)) := by
  cases word with
  | nil =>
    exact fraction_spelt ⟨⟨['0'], List.cons_ne_nil _ _, List.all_eq_true.mp rfl⟩, none, none⟩
      (h.mono fun c hc => isMarkChar_of_isNumberChar (by rw [isNumberChar, hc, Bool.true_or]))
  | cons c cs =>
    have hdigit := h.isDigit_of_marks
    by_cases hc : c = '.'
    · subst hc
      rw [List.cons_append, fraction, fraction, takeWhile_stops hdigit, dropWhile_stops hdigit]
      split <;> rfl
    · unfold fraction
      split
      · rename_i heq
        exact absurd (List.cons.inj heq).1 hc
      · split
        · rename_i heq
          exact absurd (List.cons.inj heq).1 hc
        · rfl

/-- So is an exponent. -/
theorem exponent_stops (h : Stops isMarkChar more) :
    exponent (word ++ more) = (exponent word).map (Prod.map id (· ++ more)) := by
  have hdigit := h.isDigit_of_marks
  cases word with
  | nil =>
    exact exponent_spelt ⟨⟨['0'], List.cons_ne_nil _ _, List.all_eq_true.mp rfl⟩, none, none⟩
      (h.mono fun _ => isMarkChar_of_isNumberChar)
  | cons c cs =>
    rw [List.cons_append, exponent, exponent, optional_stops (h.mono fun _ => isMarkChar_of_isSign)]
    dsimp only
    rw [takeWhile_stops hdigit, dropWhile_stops hdigit]
    split
    · split <;> rfl
    · rfl

end Parts

theorem unsignedNumber_stopsAtMarks : StopsAtMarks unsignedNumber := by
  intro word more h
  have hdigit := h.isDigit_of_marks
  unfold unsignedNumber
  dsimp only
  rw [takeWhile_stops hdigit, dropWhile_stops hdigit, fraction_stops h]
  split
  · rfl
  · cases fraction (word.dropWhile Char.isDigit) with
    | error mark => rfl
    | ok part =>
      dsimp only [Except.map, Prod.map]
      rw [exponent_stops h]
      cases exponent part.2 <;> rfl

theorem number_stopsAtMarks : StopsAtMarks number := by
  intro word more h
  unfold number
  rw [optional_stops (h.mono fun _ => isMarkChar_of_isSign)]
  dsimp only
  rw [unsignedNumber_stopsAtMarks _ _ h]
  cases unsignedNumber (optional isSign word).2 <;> rfl

theorem magnitude_stopsApart (dialect : Dialect) : StopsApart (magnitude dialect) := by
  intro word more h
  unfold magnitude
  rw [number_stopsAtMarks.stopsApart _ _ h]
  cases number word with
  | absent => rfl
  | broken => rfl
  | found digits rest =>
    have hsuffix : suffix dialect (rest ++ more)
        = ((suffix dialect rest).1, (suffix dialect rest).2 ++ more) := by
      unfold suffix
      rw [optional_stops (h.stops rfl rfl)]
      dsimp only
      rw [optional_stops (h.stops rfl rfl)]
    dsimp only [Scan.followedBy, Scan.extend]
    rw [hsuffix]

theorem percentage_stopsAtMarks : StopsAtMarks percentage := by
  intro word more h
  unfold percentage
  rw [unsignedNumber_stopsAtMarks _ _ h]
  cases unsignedNumber word with
  | absent => rfl
  | broken => rfl
  | found digits rest =>
    cases rest with
    | cons c cs =>
      by_cases hc : c = '%'
      · subst hc
        rfl
      · simp [Scan.followedBy, hc]
    | nil =>
      cases more with
      | nil => rfl
      | cons c cs => simp [Scan.followedBy, h.ne_mark (m := '%') (by decide)]

theorem coefficient_stopsAtMarks : StopsAtMarks coefficient := by
  intro word more h
  have hdigit := h.isDigit_of_marks
  unfold coefficient
  rw [optional_stops (h.mono fun _ => isMarkChar_of_isSign)]
  dsimp only
  rw [takeWhile_stops hdigit, dropWhile_stops hdigit]
  split
  · rfl
  · generalize (optional isSign word).2.dropWhile Char.isDigit = rest
    have hmark : ∀ c cs, more = c :: cs → c ≠ 'p' ∧ c ≠ 'm' := by
      rintro c cs rfl
      exact ⟨h.ne_mark (by decide), h.ne_mark (by decide)⟩
    -- The mark has three characters: where the word has less, it is not completed from behind.
    rcases rest with _ | ⟨a, _ | ⟨b, _ | ⟨c, rest⟩⟩⟩
    · cases more with
      | nil => rfl
      | cons d ds => simp [Scan.followedBy, hmark d ds rfl]
    · cases more with
      | nil => simp [Scan.followedBy]
      | cons d ds => simp [Scan.followedBy, hmark d ds rfl]
    · cases more with
      | nil => simp [Scan.followedBy]
      | cons d ds => simp [Scan.followedBy, hmark d ds rfl]
    · dsimp only [List.cons_append]
      split
      · rename_i heq
        cases heq
        rfl
      · rename_i hother
        split
        · rename_i heq
          cases heq
          exact absurd rfl (hother _)
        · rfl

theorem name_stopsApart : StopsApart name := by
  intro word more h
  cases word with
  | nil =>
    cases more with
    | nil => rfl
    | cons c cs =>
      have hc : c.isAlpha = false := (h.stops rfl rfl : Stops Char.isAlpha (c :: cs)) c rfl
      simp [name, Scan.followedBy, hc]
  | cons c cs =>
    rw [List.cons_append, name, name, takeWhile_stops (h.stops rfl rfl),
      dropWhile_stops (h.stops rfl rfl)]
    split <;> rfl

end Lexeme

/-! ## Respaced texts -/

open ParseFault (isBlank)
open Lexeme (Stops Apart StopsApart StopsAtMarks Solid isMarkChar isMarkChar_of_isSign isSign optional
  optional_stops)

/-- No blank can stand in a lexeme. -/
theorem Lexeme.Solid.isBlank_eq_false {text : List Char} (h : Solid text) :
    ∀ c ∈ text, isBlank c = false := by
  intro c hc
  have hsolid := h c hc
  rw [isSolid, Bool.and_eq_true, Bool.not_eq_true'] at hsolid
  exact hsolid.1

/-- **Texts of the same words**, with blanks between the same words. One run of blanks stands for
another, whatever its length; the text behind a run does not start with a blank, so the runs are whole
ones. -/
inductive Respaced : List Char → List Char → Prop where
  | nil : Respaced [] []
  | char {c : Char} {cs ds : List Char} (hc : isBlank c = false) (h : Respaced cs ds) :
    Respaced (c :: cs) (c :: ds)
  | blanks (a b : Blanks) {cs ds : List Char} (ha : a.val ≠ []) (hb : b.val ≠ [])
    (hcs : Stops isBlank cs) (h : Respaced cs ds) : Respaced (a.val ++ cs) (b.val ++ ds)

/-- What comes before and what follows a place that is not inside a run of blanks. -/
def Seam (before rest : List Char) : Prop :=
  ∀ c, before.getLast? = some c → isBlank c = true → Stops isBlank rest

namespace Blanks

/-- Blanks start with a blank. -/
theorem head?_append {a : Blanks} (ha : a.val ≠ []) (rest : List Char) :
    ∃ c, (a.val ++ rest).head? = some c ∧ isBlank c = true := by
  obtain ⟨cs, hcs⟩ := a
  cases cs with
  | nil => exact absurd rfl ha
  | cons c cs => exact ⟨c, rfl, hcs c List.mem_cons_self⟩

end Blanks

namespace Respaced

variable {cs ds es fs : List Char}

theorem stops (h : Respaced cs ds) (hcs : Stops isBlank cs) : Stops isBlank ds := by
  cases h with
  | nil => exact hcs
  | char hc _ => exact Lexeme.stops_cons hc
  | blanks a b ha hb _ _ =>
    obtain ⟨c, hhead, hc⟩ := Blanks.head?_append ha _
    rw [hcs c hhead] at hc
    cases hc

theorem symm (h : Respaced cs ds) : Respaced ds cs := by
  induction h with
  | nil => exact .nil
  | char hc _ ih => exact .char hc ih
  | blanks a b ha hb hcs h ih => exact .blanks b a hb ha (h.stops hcs) ih

/-- A blank that is put before both goes to the blanks there. -/
theorem cons_blank {c : Char} (h : Respaced cs ds) (hc : isBlank c = true) :
    Respaced (c :: cs) (c :: ds) := by
  have hone : ∀ d ∈ [c], isBlank d = true := by simpa using hc
  cases h with
  | nil =>
    exact .blanks ⟨[c], hone⟩ ⟨[c], hone⟩ (List.cons_ne_nil _ _) (List.cons_ne_nil _ _)
      (fun _ hd => nomatch hd) .nil
  | char hd h =>
    exact .blanks ⟨[c], hone⟩ ⟨[c], hone⟩ (List.cons_ne_nil _ _) (List.cons_ne_nil _ _)
      (Lexeme.stops_cons hd) (.char hd h)
  | blanks a b ha hb hcs h =>
    exact .blanks ⟨c :: a.val, List.forall_mem_cons.mpr ⟨hc, a.property⟩⟩
      ⟨c :: b.val, List.forall_mem_cons.mpr ⟨hc, b.property⟩⟩
      (List.cons_ne_nil _ _) (List.cons_ne_nil _ _) hcs h

/-- Every text is respaced as it is. -/
theorem refl (cs : List Char) : Respaced cs cs := by
  induction cs with
  | nil => exact .nil
  | cons c cs ih =>
    cases hc : isBlank c with
    | true => exact ih.cons_blank hc
    | false => exact .char hc ih

/-- A character that is no blank is the same in both. -/
theorem cons_left {c : Char} (h : Respaced (c :: cs) ds) (hc : isBlank c = false) :
    ∃ es, ds = c :: es ∧ Respaced cs es := by
  generalize hwhole : c :: cs = whole at h
  cases h with
  | nil => cases hwhole
  | char _ htail =>
    cases hwhole
    exact ⟨_, rfl, htail⟩
  | blanks a b ha hb hcs h =>
    obtain ⟨d, hhead, hd⟩ := Blanks.head?_append ha _
    rw [← hwhole] at hhead
    cases hhead
    rw [hc] at hd
    cases hd

/-- So is a piece without blanks. -/
theorem piece {word rest : List Char} (h : Respaced (word ++ rest) ds)
    (hword : ∀ c ∈ word, isBlank c = false) :
    ∃ rest', ds = word ++ rest' ∧ Respaced rest rest' := by
  induction word generalizing ds with
  | nil => exact ⟨ds, rfl, h⟩
  | cons c word ih =>
    obtain ⟨hc, hword⟩ := List.forall_mem_cons.mp hword
    obtain ⟨es, rfl, htail⟩ := h.cons_left hc
    obtain ⟨rest', rfl, hrest⟩ := ih htail hword
    exact ⟨rest', rfl, hrest⟩

/-- Nothing is left in both, or in neither. -/
theorem nil_iff (h : Respaced cs ds) : cs = [] ↔ ds = [] := by
  cases h with
  | nil => exact Iff.rfl
  | char => exact iff_of_false (List.cons_ne_nil _ _) (List.cons_ne_nil _ _)
  | blanks a b ha hb _ _ => simp [ha, hb]

/-- Texts that go on with texts are respaced where they meet at a seam. -/
theorem append (h : Respaced cs ds) (hseam : Seam cs es) (hmore : Respaced es fs) :
    Respaced (cs ++ es) (ds ++ fs) := by
  induction h with
  | nil => exact hmore
  | @char c cs ds hc h ih =>
    refine .char hc (ih ?_)
    intro d hd hblank
    refine hseam d ?_ hblank
    rw [List.getLast?_cons, hd]
    rfl
  | @blanks a b cs ds ha hb hcs h ih =>
    rw [List.append_assoc, List.append_assoc]
    refine .blanks a b ha hb ?_ (ih ?_)
    · cases cs with
      | nil =>
        have hlast : (a.val ++ []).getLast? = some (a.val.getLast ha) := by
          rw [List.append_nil, List.getLast?_eq_some_getLast ha]
        exact hseam _ hlast (a.property _ (List.getLast_mem ha))
      | cons c cs => exact Lexeme.stops_cons (hcs c rfl)
    · intro d hd hblank
      exact hseam d (by rw [List.getLast?_append, hd]; rfl) hblank

/-- **The first word is the same in both**, and blanks come after it or nothing does. -/
theorem word (h : Respaced cs ds) :
    ∃ word es fs, cs = word ++ es ∧ ds = word ++ fs ∧ Apart es ∧ Apart fs := by
  induction h with
  | nil => exact ⟨[], [], [], rfl, rfl, fun _ hc => (nomatch hc), fun _ hc => (nomatch hc)⟩
  | @char c _ _ _ _ ih =>
    obtain ⟨word, es, fs, rfl, rfl, hes, hfs⟩ := ih
    exact ⟨c :: word, es, fs, rfl, rfl, hes, hfs⟩
  | blanks a b ha hb _ _ _ =>
    exact ⟨[], _, _, rfl, rfl, Blanks.apart ha _, Blanks.apart hb _⟩

end Respaced

/-! ## Texts of the same marks -/

/-- **Texts with the same marks in front**: they start with the same piece, and no mark comes after it in
either. -/
def SameMarks (cs ds : List Char) : Prop :=
  ∃ word es fs, cs = word ++ es ∧ ds = word ++ fs ∧ Stops isMarkChar es ∧ Stops isMarkChar fs

theorem Respaced.sameMarks {cs ds : List Char} (h : Respaced cs ds) : SameMarks cs ds := by
  obtain ⟨word, es, fs, hcs, hds, hes, hfs⟩ := h.word
  exact ⟨word, es, fs, hcs, hds, hes.stops_isMarkChar, hfs.stops_isMarkChar⟩

namespace SameMarks

variable {cs ds : List Char}

/-- **A mark is next in both, or in neither.** -/
theorem mark (h : SameMarks cs ds) {c : Char} (hc : isMarkChar c = true) :
    (∃ es fs, cs = c :: es ∧ ds = c :: fs ∧ SameMarks es fs)
      ∨ (∀ es, cs ≠ c :: es) ∧ ∀ fs, ds ≠ c :: fs := by
  obtain ⟨word, es, fs, rfl, rfl, hes, hfs⟩ := h
  cases word with
  | nil =>
    refine .inr ⟨?_, ?_⟩
    · rintro _ rfl
      exact hes.ne_mark hc rfl
    · rintro _ rfl
      exact hfs.ne_mark hc rfl
  | cons a word =>
    by_cases ha : a = c
    · subst ha
      exact .inl ⟨_, _, rfl, rfl, word, es, fs, rfl, rfl, hes, hfs⟩
    · exact .inr ⟨fun _ heq => ha (List.cons.inj heq).1, fun _ heq => ha (List.cons.inj heq).1⟩

/-- A sign that may be next is the same in both. -/
theorem optional_isSign (h : SameMarks cs ds) : (optional isSign cs).1 = (optional isSign ds).1 := by
  obtain ⟨word, es, fs, rfl, rfl, hes, hfs⟩ := h
  rw [optional_stops (hes.mono fun _ => isMarkChar_of_isSign),
    optional_stops (hfs.mono fun _ => isMarkChar_of_isSign)]

end SameMarks

/-! ## Scans that find the same -/

/-- Scans that find the same. -/
inductive Scan.Alike : Scan → Scan → Prop where
  | absent : Alike .absent .absent
  | found {lexeme rest rest' : List Char} : Alike (.found lexeme rest) (.found lexeme rest')
  | broken {part : NumberPart} {before mark : List Char} :
    Alike (.broken part before mark) (.broken part before mark)

/-- What comes behind does not matter. -/
theorem Scan.followedBy_alike (s : Scan) (es fs : List Char) :
    (s.followedBy es).Alike (s.followedBy fs) := by
  cases s with
  | absent => exact .absent
  | found => exact .found
  | broken => exact .broken

section Alike

variable {scan : List Char → Scan} {cs ds : List Char}

/-- **A scan finds the same in respaced texts.** -/
theorem Lexeme.StopsApart.alike (h : StopsApart scan) (hr : Respaced cs ds) :
    (scan cs).Alike (scan ds) := by
  obtain ⟨word, es, fs, rfl, rfl, hes, hfs⟩ := hr.word
  rw [h word es hes, h word fs hfs]
  exact Scan.followedBy_alike _ es fs

/-- **A scan that stops at marks finds the same in texts with the same marks.** -/
theorem Lexeme.StopsAtMarks.alike (h : StopsAtMarks scan) (hm : SameMarks cs ds) :
    (scan cs).Alike (scan ds) := by
  obtain ⟨word, es, fs, rfl, rfl, hes, hfs⟩ := hm
  rw [h word es hes, h word fs hfs]
  exact Scan.followedBy_alike _ es fs

end Alike

end WorstCase
