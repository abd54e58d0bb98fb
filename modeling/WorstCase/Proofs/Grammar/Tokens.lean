import Mathlib.Data.List.Basic
import WorstCase.Proofs.Grammar.Rules
import WorstCase.Proofs.Formula.Tokens

/-!
# The rules for tokens

The rule for a token reads the lexeme that its scan finds, refuses where the scan
finds none, and fails where the scan finds a number that breaks off. That is shown
of the rules for the characters of tokens first (`Follows`), which give bare
reasons for their refusals, and then of the tokens (`TokenAnswers`), which name
what was expected. Only bare reasons are ever given a name, and a span goes from
a cursor to one that is reached from it (`Reaches`), so none of the checks that
are made here goes wrong.
-/

namespace WorstCase.Grammar

open ParseFault (isBlank)
open Lexeme (Stops)

namespace Outcome

variable {φ α β : Type}

@[simp] theorem read_bind (a : α) (f : α → Outcome φ β) : (read a >>= f) = f a := rfl

@[simp] theorem failed_bind (e : Complaint φ) (f : α → Outcome φ β) :
    (failed e >>= f) = failed e := rfl

@[simp] theorem pure_eq (a : α) : (pure a : Outcome φ α) = read a := rfl

end Outcome

/-! ## Positions in order -/

/-- **One position is reached from another** past some text. -/
def Reaches (p q : Position) : Prop := ∃ text, q = p.after text

namespace Reaches

variable {p q : Position}

theorem after (p : Position) (text : List Char) : Reaches p (p.after text) := ⟨text, rfl⟩

/-- Lines and columns tell so. -/
theorem line_column (h : Reaches p q) :
    p.line < q.line ∨ (p.line = q.line ∧ p.column ≤ q.column) := by
  obtain ⟨text, rfl⟩ := h
  exact p.line_column_after text

/-- **Positions in order make a span.** -/
theorem span {φ : Type} (h : Reaches p q) : (Outcome.span p q : Outcome φ Span) = .read ⟨p, q⟩ := by
  have hoffset : ¬q.offset < p.offset := by
    obtain ⟨text, rfl⟩ := h
    rw [Position.offset_after]
    omega
  unfold Outcome.span Span.between
  rw [if_neg hoffset, if_pos h.line_column]

end Reaches

/-! ## Rules from rules -/

section Rules

variable {φ ψ α : Type} {rule first second : Rule φ α} {convert : φ → Except Slip ψ} {into : φ → ψ}
  {c : Cursor} {x : α × Cursor} {e : Complaint φ}

theorem convertErrorTo_of_read (h : rule c = .read x) :
    convertErrorTo rule convert into c = .read x := by
  unfold convertErrorTo
  rw [h]

theorem convertErrorTo_of_refused (h : rule c = .refused e) :
    convertErrorTo rule convert into c = .withReason .refused e.offset (convert e.reason) := by
  unfold convertErrorTo
  rw [h]

theorem convertErrorTo_of_failed (h : rule c = .failed e) :
    convertErrorTo rule convert into c = .failed ⟨e.offset, into e.reason⟩ := by
  unfold convertErrorTo
  rw [h]

theorem convertErrors_of_read {rule : Rule TokenFault α} (h : rule c = .read x) :
    convertErrors rule c = .read x :=
  convertErrorTo_of_read h

theorem convertErrors_of_refused {rule : Rule TokenFault α} {e : Complaint TokenFault}
    (h : rule c = .refused e) : convertErrors rule c = .refused ⟨e.offset, .ofToken e.reason⟩ :=
  convertErrorTo_of_refused h

theorem convertErrors_of_failed {rule : Rule TokenFault α} {e : Complaint TokenFault}
    (h : rule c = .failed e) : convertErrors rule c = .failed ⟨e.offset, .ofToken e.reason⟩ :=
  convertErrorTo_of_failed h

theorem orFailWith_of_read (h : rule c = .read x) : orFailWith rule convert into c = .read x := by
  unfold orFailWith
  rw [h]

theorem orFailWith_of_refused (h : rule c = .refused e) :
    orFailWith rule convert into c = .withReason .failed e.offset (convert e.reason) := by
  unfold orFailWith
  rw [h]

theorem orFailWith_of_failed (h : rule c = .failed e) :
    orFailWith rule convert into c = .failed ⟨e.offset, into e.reason⟩ := by
  unfold orFailWith
  rw [h]

theorem either_of_read (h : first c = .read x) : either first second c = .read x := by
  unfold either
  rw [h]

theorem either_of_refused (h : first c = .refused e) : either first second c = second c := by
  unfold either
  rw [h]

theorem either_of_failed (h : first c = .failed e) : either first second c = .failed e := by
  unfold either
  rw [h]

theorem opt_of_read (h : rule c = .read x) : opt rule c = .read (some x.1, x.2) := by
  unfold opt
  rw [h]

theorem opt_of_refused (h : rule c = .refused e) : opt rule c = .read (none, c) := by
  unfold opt
  rw [h]

theorem opt_of_failed (h : rule c = .failed e) : opt rule c = .failed e := by
  unfold opt
  rw [h]

end Rules

/-! ## Characters -/

/-- **A rule for characters comes to what a scan says.** Where it refuses, its
complaint shows at one of the offsets given. -/
inductive Follows (refusal : Nat → Prop) (c : Cursor) :
    Outcome TokenFault (Unit × Cursor) → Scan → Prop
  | found (lexeme rest : List Char) :
    Follows refusal c (.read ((), ⟨c.position.after lexeme, rest⟩)) (.found lexeme rest)
  | absent {offset : Nat} (what : Primitive) (h : refusal offset) :
    Follows refusal c (.refused ⟨offset, .bare what⟩) .absent
  | broken (part : NumberPart) (before mark : List Char) :
    Follows refusal c
      (.failed ⟨c.position.offset + byteSize before + byteSize mark,
        .broken part (c.position.offset + byteSize before)⟩)
      (.broken part before mark)

/-- The rule for a part of a number, which may be missing, comes to what the part
is. -/
inductive FollowsPart (part : NumberPart) (c : Cursor) :
    Outcome TokenFault (Option Unit × Cursor) →
      Except (List Char) (List Char × List Char) → Prop
  | ok (o : Option Unit) (text rest : List Char) :
    FollowsPart part c (.read (o, ⟨c.position.after text, rest⟩)) (.ok (text, rest))
  | error (mark : List Char) :
    FollowsPart part c
      (.failed ⟨c.position.offset + byteSize mark, .broken part c.position.offset⟩)
      (.error mark)

section Characters

variable {c : Cursor}

theorem character_of_pos {p : Char → Bool} {x : Char} {rest : List Char} (h : c.rest = x :: rest)
    (hx : p x = true) : character p c = .read ((), ⟨c.position.next x, rest⟩) := by
  unfold character
  rw [h]
  exact if_pos hx

theorem character_of_stops {p : Char → Bool} (h : Stops p c.rest) :
    character p c = .refused ⟨c.position.offset, .bare .character⟩ := by
  unfold character
  cases hrest : c.rest with
  | nil => rfl
  | cons x rest =>
    rw [hrest] at h
    exact if_neg (Bool.eq_false_iff.mp (h x rfl))

theorem opt_character (p : Char → Bool) (c : Cursor) :
    ∃ o, opt (character p) c
      = .read (o, ⟨c.position.after (Lexeme.optional p c.rest).1,
          (Lexeme.optional p c.rest).2⟩) := by
  obtain ⟨position, rest⟩ := c
  cases rest with
  | nil => exact ⟨none, opt_of_refused (character_of_stops Lexeme.stops_nil)⟩
  | cons x rest =>
    rw [Lexeme.optional]
    by_cases hx : p x = true
    · rw [if_pos hx]
      exact ⟨some (), opt_of_read (character_of_pos rfl hx)⟩
    · rw [if_neg hx]
      have hstops : Stops p (x :: rest) := Lexeme.stops_cons (Bool.eq_false_iff.mpr hx)
      exact ⟨none, opt_of_refused (character_of_stops hstops)⟩

theorem word_append (text : List Char) {rest : List Char} (h : c.rest = text ++ rest) :
    word text c = .read ((), ⟨c.position.after text, rest⟩) := by
  unfold word
  rw [List.isPrefixOf?_eq_some_iff_append_eq.mpr h.symm]

theorem word_absent {text : List Char} (h : ∀ rest, c.rest ≠ text ++ rest) :
    word text c = .refused ⟨c.position.offset, .bare .text⟩ := by
  unfold word
  cases hrest : text.isPrefixOf? c.rest with
  | none => rfl
  | some rest => exact absurd (List.isPrefixOf?_eq_some_iff_append_eq.mp hrest).symm (h rest)

theorem digits_of_ne (h : c.rest.takeWhile Char.isDigit ≠ []) :
    digits c = .read ((), ⟨c.position.after (c.rest.takeWhile Char.isDigit),
      c.rest.dropWhile Char.isDigit⟩) := if_neg h

theorem digits_of_eq (h : c.rest.takeWhile Char.isDigit = []) :
    digits c = .refused ⟨c.position.offset, .bare .digits⟩ := if_pos h

theorem opt_fraction (c : Cursor) :
    FollowsPart .fraction c (opt fraction c) (Lexeme.fraction c.rest) := by
  by_cases hpoint : ∃ rest, c.rest = '.' :: rest
  · obtain ⟨rest, hrest⟩ := hpoint
    have hfraction : fraction c = orFailWith digits
        (TokenFault.update (.broken .fraction c.position.offset)) id
          ⟨c.position.after ['.'], rest⟩ := by
      unfold fraction
      rw [word_append ['.'] hrest]
      rfl
    rw [hrest, Lexeme.fraction]
    by_cases hdigits : rest.takeWhile Char.isDigit = []
    · rw [if_pos hdigits, opt_of_failed (hfraction.trans
        (orFailWith_of_refused (digits_of_eq hdigits))), Position.offset_after]
      exact .error ['.']
    · rw [if_neg hdigits, opt_of_read (hfraction.trans (orFailWith_of_read (digits_of_ne hdigits)))]
      exact .ok _ ('.' :: rest.takeWhile Char.isDigit) _
  · have hword : ∀ rest, c.rest ≠ ['.'] ++ rest := fun rest h => hpoint ⟨rest, h⟩
    have hfraction : fraction c = .refused ⟨c.position.offset, .bare .text⟩ := by
      unfold fraction
      rw [word_absent hword]
      rfl
    have hnone : Lexeme.fraction c.rest = .ok ([], c.rest) := by
      unfold Lexeme.fraction
      split
      · rename_i rest hrest
        exact absurd hrest (hword rest)
      · rfl
    rw [opt_of_refused hfraction, hnone]
    exact .ok none [] c.rest

/-- The mark of an exponent is one character. -/
theorem either_mark {x : Char} {rest : List Char} (hx : Lexeme.isExponentMark x = true)
    (h : c.rest = x :: rest) :
    either (word ['e']) (word ['E']) c = .read ((), ⟨c.position.next x, rest⟩) := by
  simp only [Lexeme.isExponentMark, Bool.or_eq_true, beq_iff_eq] at hx
  rcases hx with rfl | rfl
  · exact either_of_read (word_append ['e'] h)
  · have habsent : ∀ more, c.rest ≠ ['e'] ++ more := by
      intro more hmore
      rw [h] at hmore
      cases hmore
    rw [either_of_refused (word_absent habsent)]
    exact word_append ['E'] h

theorem opt_exponentPart (c : Cursor) :
    FollowsPart .exponent c (opt exponentPart c) (Lexeme.exponent c.rest) := by
  by_cases hmark : ∃ x rest, c.rest = x :: rest ∧ Lexeme.isExponentMark x = true
  · obtain ⟨x, rest, hrest, hx⟩ := hmark
    obtain ⟨o, ho⟩ := opt_character Lexeme.isSign ⟨c.position.next x, rest⟩
    have hexponent : exponentPart c = orFailWith digits
        (TokenFault.update (.broken .exponent c.position.offset)) id
          ⟨(c.position.next x).after (Lexeme.optional Lexeme.isSign rest).1,
            (Lexeme.optional Lexeme.isSign rest).2⟩ := by
      unfold exponentPart
      rw [either_mark hx hrest, Outcome.read_bind]
      dsimp only
      rw [ho]
      rfl
    rw [hrest, Lexeme.exponent, if_pos hx]
    dsimp only
    by_cases hdigits : (Lexeme.optional Lexeme.isSign rest).2.takeWhile Char.isDigit = []
    · rw [if_pos hdigits, opt_of_failed (hexponent.trans
        (orFailWith_of_refused (digits_of_eq hdigits))), ← Position.after_cons,
        Position.offset_after]
      exact .error _
    · rw [if_neg hdigits, opt_of_read (hexponent.trans (orFailWith_of_read (digits_of_ne hdigits))),
        ← Position.after_cons, ← Position.after_append]
      exact .ok _ _ _
  · have hword : ∀ x, Lexeme.isExponentMark x = true → ∀ rest, c.rest ≠ [x] ++ rest :=
      fun x hx rest h => hmark ⟨x, rest, h, hx⟩
    have hexponent : exponentPart c = .refused ⟨c.position.offset, .bare .text⟩ := by
      unfold exponentPart
      rw [either_of_refused (word_absent (hword 'e' rfl)), word_absent (hword 'E' rfl)]
      rfl
    have hnone : Lexeme.exponent c.rest = .ok ([], c.rest) := by
      cases hrest : c.rest with
      | nil => rfl
      | cons x rest =>
        rw [Lexeme.exponent, if_neg fun hx => hmark ⟨x, rest, hrest, hx⟩]
    rw [opt_of_refused hexponent, hnone]
    exact .ok none [] c.rest

end Characters

/-! ## The characters of tokens -/

section Bodies

variable {c : Cursor} {refusal : Nat → Prop}

/-- A scan behind characters that were read before. -/
theorem Follows.prepend {front rest : List Char} {o : Outcome TokenFault (Unit × Cursor)} {s : Scan}
    (h : Follows refusal ⟨c.position.after front, rest⟩ o s) :
    Follows refusal c o (s.prepend front) := by
  cases h with
  | found lexeme rest =>
    dsimp only
    rw [← Position.after_append]
    exact .found _ _
  | absent what h => exact .absent what h
  | broken part before mark =>
    dsimp only
    rw [Position.offset_after, Nat.add_assoc _ (byteSize front), ← byteSize_append]
    exact .broken part _ mark

theorem unsignedBody_follows (c : Cursor) :
    Follows (· = c.position.offset) c (unsignedBody c) (Lexeme.unsignedNumber c.rest) := by
  unfold unsignedBody Lexeme.unsignedNumber
  by_cases hwhole : c.rest.takeWhile Char.isDigit = []
  · rw [digits_of_eq hwhole, if_pos hwhole]
    exact .absent .digits rfl
  rw [digits_of_ne hwhole, if_neg hwhole, Outcome.read_bind]
  dsimp only
  generalize c.rest.takeWhile Char.isDigit = whole
  generalize c.rest.dropWhile Char.isDigit = rest
  have hfraction := opt_fraction ⟨c.position.after whole, rest⟩
  dsimp only at hfraction
  generalize opt fraction _ = o at hfraction ⊢
  generalize Lexeme.fraction rest = part at hfraction ⊢
  cases hfraction with
  | error mark =>
    dsimp only
    rw [Outcome.failed_bind, Position.offset_after]
    exact .broken .fraction whole mark
  | ok _ fraction rest =>
    dsimp only
    rw [Outcome.read_bind, ← Position.after_append]
    have hexponent := opt_exponentPart ⟨c.position.after (whole ++ fraction), rest⟩
    dsimp only at hexponent ⊢
    generalize opt exponentPart _ = o at hexponent ⊢
    generalize Lexeme.exponent rest = part at hexponent ⊢
    cases hexponent with
    | error mark =>
      dsimp only
      rw [Outcome.failed_bind, Position.offset_after]
      exact .broken .exponent _ mark
    | ok _ exponent rest =>
      dsimp only
      rw [Outcome.read_bind, ← Position.after_append]
      exact .found _ _

theorem numberBody_follows (c : Cursor) :
    Follows (· = c.position.offset + byteSize (Lexeme.optional Lexeme.isSign c.rest).1) c
      (numberBody c) (Lexeme.number c.rest) := by
  obtain ⟨o, ho⟩ := opt_character Lexeme.isSign c
  have hunsigned := unsignedBody_follows
    ⟨c.position.after (Lexeme.optional Lexeme.isSign c.rest).1,
      (Lexeme.optional Lexeme.isSign c.rest).2⟩
  unfold numberBody Lexeme.number
  rw [ho, Outcome.read_bind]
  rw [Position.offset_after] at hunsigned
  exact hunsigned.prepend

theorem Follows.mono {more : Nat → Prop} {o : Outcome TokenFault (Unit × Cursor)} {s : Scan}
    (h : Follows refusal c o s) (hmore : ∀ offset, refusal offset → more offset) :
    Follows more c o s := by
  cases h with
  | found lexeme rest => exact .found lexeme rest
  | absent what h => exact .absent what (hmore _ h)
  | broken part before mark => exact .broken part before mark

/-- A rule that goes on behind a lexeme, and does not refuse there, reads more of
it. -/
theorem Follows.extend {o : Outcome TokenFault (Unit × Cursor)} {s : Scan}
    {more : List Char → List Char × List Char} {next : Rule TokenFault Unit}
    (h : Follows refusal c o s)
    (hmore : ∀ d, next d = .read ((), ⟨d.position.after (more d.rest).1, (more d.rest).2⟩)) :
    Follows refusal c (o >>= fun x => next x.2) (s.extend more) := by
  cases h with
  | found lexeme rest =>
    rw [Outcome.read_bind, hmore]
    dsimp only [Scan.extend]
    rw [← Position.after_append]
    exact .found _ _
  | absent what h => exact .absent what h
  | broken part before mark => exact .broken part before mark

theorem suffixBody_eq (dialect : Dialect) (c : Cursor) :
    suffixBody dialect c = .read ((), ⟨c.position.after (Lexeme.suffix dialect c.rest).1,
      (Lexeme.suffix dialect c.rest).2⟩) := by
  obtain ⟨o, ho⟩ := opt_character (Lexeme.isPrefixChar dialect) c
  obtain ⟨o', ho'⟩ := opt_character Lexeme.isUnitChar
    ⟨c.position.after (Lexeme.optional (Lexeme.isPrefixChar dialect) c.rest).1,
      (Lexeme.optional (Lexeme.isPrefixChar dialect) c.rest).2⟩
  unfold suffixBody
  rw [ho, Outcome.read_bind]
  dsimp only at ho' ⊢
  rw [ho', Outcome.read_bind, ← Position.after_append]
  rfl

theorem magnitudeBody_follows (dialect : Dialect) (c : Cursor) :
    Follows (fun _ => True) c (magnitudeBody dialect c) (Lexeme.magnitude dialect c.rest) :=
  ((numberBody_follows c).mono fun _ _ => trivial).extend (suffixBody_eq dialect)

theorem percentageBody_follows (c : Cursor) :
    Follows (fun _ => True) c (percentageBody c) (Lexeme.percentage c.rest) := by
  have hunsigned := unsignedBody_follows c
  unfold percentageBody Lexeme.percentage
  generalize unsignedBody c = o at hunsigned ⊢
  generalize Lexeme.unsignedNumber c.rest = s at hunsigned ⊢
  cases hunsigned with
  | absent what => exact .absent what trivial
  | broken part before mark => exact .broken part before mark
  | found lexeme rest =>
    rw [Outcome.read_bind]
    dsimp only
    by_cases hpercent : ∃ more, rest = '%' :: more
    · obtain ⟨more, rfl⟩ := hpercent
      rw [character_of_pos rfl rfl]
      have hafter : (c.position.after lexeme).next '%' = c.position.after (lexeme ++ ['%']) := by
        rw [Position.after_append]
        rfl
      rw [hafter]
      exact .found _ more
    · have hstops : Stops (· == '%') rest := by
        intro x hx
        rw [beq_eq_false_iff_ne]
        rintro rfl
        exact hpercent ⟨rest.tail, List.eq_cons_of_mem_head? hx⟩
      rw [character_of_stops hstops]
      split
      · rename_i heq
        exact absurd ⟨_, (Scan.found.inj heq).2⟩ hpercent
      · exact .absent .character trivial
      · rename_i hne
        exact absurd rfl (hne _ _)

theorem coefficientBody_follows (c : Cursor) :
    Follows (fun _ => True) c (coefficientBody c) (Lexeme.coefficient c.rest) := by
  obtain ⟨o, ho⟩ := opt_character Lexeme.isSign c
  unfold coefficientBody Lexeme.coefficient
  rw [ho, Outcome.read_bind]
  dsimp only
  generalize (Lexeme.optional Lexeme.isSign c.rest).1 = sign
  generalize (Lexeme.optional Lexeme.isSign c.rest).2 = rest
  by_cases hwhole : rest.takeWhile Char.isDigit = []
  · rw [digits_of_eq hwhole, if_pos hwhole]
    exact .absent .digits trivial
  rw [digits_of_ne hwhole, if_neg hwhole, Outcome.read_bind]
  dsimp only
  split
  · rename_i after heq
    rw [word_append _ heq]
    dsimp only
    rw [← Position.after_append, ← Position.after_append, ← List.append_assoc]
    exact .found _ after
  · rename_i hne
    rw [word_absent hne]
    exact .absent .text trivial

theorem nameBody_follows (c : Cursor) :
    Follows (fun _ => True) c (nameBody c) (Lexeme.name c.rest) := by
  unfold nameBody character
  cases hrest : c.rest with
  | nil => exact .absent .character trivial
  | cons x rest =>
    unfold Lexeme.name
    by_cases hx : x.isAlpha = true
    · dsimp only
      rw [if_pos hx, if_pos hx]
      exact .found (x :: rest.takeWhile Lexeme.isNameChar) _
    · dsimp only
      rw [if_neg hx, if_neg hx]
      exact .absent .character trivial

end Bodies

/-! ## Tokens -/

/-- **The rule for a token comes to what the scan for it does.** Where it
refuses, its complaint names the token. -/
inductive TokenAnswers (refusal : Nat → Prop) (what : Expected) :
    Outcome TokenFault (Token × Cursor) → Except ParseError (Option (Token × Cursor)) → Prop
  | read (x : Token × Cursor) : TokenAnswers refusal what (.read x) (.ok (some x))
  | refused {offset : Nat} (h : refusal offset) :
    TokenAnswers refusal what (.refused ⟨offset, .expected what⟩) (.ok none)
  | failed (offset : Nat) (part : NumberPart) (start : Nat) :
    TokenAnswers refusal what (.failed ⟨offset, .broken part start⟩)
      (.error ⟨offset, .brokenNumber part start⟩)

section Tokens

variable {c : Cursor} {body : Rule TokenFault Unit} {what : Expected}

theorem token_of_read {lexeme rest : List Char}
    (h : body c = .read ((), ⟨c.position.after lexeme, rest⟩)) (hrest : c.rest = lexeme ++ rest) :
    token body what c = .read (c.accept lexeme rest) := by
  have hlexeme : c.rest.take (c.rest.length - rest.length) = lexeme := by
    rw [hrest, List.length_append, Nat.add_sub_cancel, List.take_left]
  unfold token run
  rw [convertErrorTo_of_read h, Outcome.read_bind]
  dsimp only
  -- The spans of the lexeme and of the blanks behind it are in order.
  rw [(Reaches.after _ lexeme).span, Outcome.read_bind, Outcome.read_bind]
  dsimp only
  rw [(Reaches.after _ _).span, Outcome.read_bind, hlexeme]
  rfl

theorem token_of_refused {offset : Nat} {primitive : Primitive}
    (h : body c = .refused ⟨offset, .bare primitive⟩) :
    token body what c = .refused ⟨offset, .expected what⟩ := by
  unfold token
  rw [convertErrorTo_of_refused h]
  rfl

theorem token_of_failed {e : Complaint TokenFault} (h : body c = .failed e) :
    token body what c = .failed e := by
  unfold token
  rw [convertErrorTo_of_failed h]
  rfl

theorem token_answers {refusal : Nat → Prop} {scan : List Char → Scan}
    (hfollows : Follows refusal c (body c) (scan c.rest))
    (hfound : ∀ {cs lexeme rest}, scan cs = .found lexeme rest → lexeme ++ rest = cs ∧ lexeme ≠ []) :
    TokenAnswers refusal what (token body what c) (c.token scan) := by
  unfold Cursor.token
  generalize hscan : scan c.rest = s at hfollows ⊢
  generalize hbody : body c = o at hfollows
  cases hfollows with
  | found lexeme rest =>
    rw [token_of_read hbody (hfound hscan).1.symm]
    exact .read _
  | absent primitive h =>
    rw [token_of_refused hbody]
    exact .refused h
  | broken part before mark =>
    rw [token_of_failed hbody]
    exact .failed _ part _

theorem number_answers (c : Cursor) :
    TokenAnswers (· = c.position.offset + byteSize (Lexeme.optional Lexeme.isSign c.rest).1) .number
      (number c) (c.token Lexeme.number) :=
  token_answers (numberBody_follows c) Lexeme.number_found

theorem magnitude_answers (dialect : Dialect) (c : Cursor) :
    TokenAnswers (fun _ => True) .magnitude (magnitude dialect c)
      (c.token (Lexeme.magnitude dialect)) :=
  token_answers (magnitudeBody_follows dialect c) Lexeme.magnitude_found

theorem percentage_answers (c : Cursor) :
    TokenAnswers (fun _ => True) .percentage (percentage c) (c.token Lexeme.percentage) :=
  token_answers (percentageBody_follows c) Lexeme.percentage_found

theorem coefficient_answers (c : Cursor) :
    TokenAnswers (fun _ => True) .coefficient (coefficient c) (c.token Lexeme.coefficient) :=
  token_answers (coefficientBody_follows c) Lexeme.coefficient_found

theorem name_answers (c : Cursor) :
    TokenAnswers (fun _ => True) .name (name c) (c.token Lexeme.name) :=
  token_answers (nameBody_follows c) Lexeme.name_found

/-! ### Marks -/

theorem mark_append (text : List Char) {rest : List Char} (h : c.rest = text ++ rest) :
    mark text c = .read (c.accept text rest) :=
  token_of_read (word_append text h) h

theorem mark_absent {text : List Char} (h : ∀ rest, c.rest ≠ text ++ rest) :
    mark text c = .refused ⟨c.position.offset, .expected (.mark text)⟩ :=
  token_of_refused (word_absent h)

theorem slash_append {rest : List Char} (h : c.rest = '/' :: rest)
    (hsecond : ∀ more, rest ≠ '/' :: more) : slash c = .read (c.accept ['/'] rest) := by
  refine token_of_read ?_ h
  unfold slashBody
  rw [word_append ['/'] h, Outcome.read_bind]
  dsimp only
  cases rest with
  | nil => exact either_of_refused rfl
  | cons x rest =>
    have hx : (x != '/') = true := by
      rw [bne_iff_ne]
      rintro rfl
      exact hsecond rest rfl
    have hcharacter : character (· != '/') ⟨c.position.after ['/'], x :: rest⟩ = .read _ :=
      character_of_pos rfl hx
    refine either_of_read ?_
    unfold ahead
    rw [hcharacter]
    rfl

theorem slash_absent (h : ∀ rest, c.rest ≠ '/' :: rest) :
    slash c = .refused ⟨c.position.offset, .expected (.mark ['/'])⟩ := by
  have hbody : slashBody c = .refused ⟨c.position.offset, .bare .text⟩ := by
    unfold slashBody
    rw [word_absent h]
    rfl
  exact token_of_refused hbody

end Tokens

end WorstCase.Grammar
