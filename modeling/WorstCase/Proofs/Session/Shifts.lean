import Mathlib.Control.Monad.Basic
import WorstCase.Proofs.Evaluation.Results
import WorstCase.Proofs.Quantity.Temperature
import WorstCase.Proofs.Session.History

/-!
# Shifts do not compound

A resistance may be taken to a temperature on one line and to another on a
later one, and each time it is all of it that is kept: value, spread and
temperature. Still only the last shift counts. The value at 20 °C goes along
with a resistance for this, and what could spoil it is the spread, which is
scaled from shift to shift where there is no tolerance to make it from.

In a session that cannot happen, since no line assigns such a resistance
(`Session.environment_all_after`). An expression may be as it likes: what
matters is only what it comes to.
-/

namespace WorstCase

/-- **A shifted expression that is shifted again** comes to what it comes to
without the first shift, where the values of the environment can be shifted
without loss. If it fails, what fails is the second shift. -/
theorem Expr.eval_shifted_again {S : Type} [Scalar S] {env : Environment S}
    (henv : env.All Quantity.Proportional) {e shifted : Expr S} {a b : S}
    {i j k l m n : Extent} {o : Outcome S}
    (hshifted : shifted.bare = (Expr.atTemperature i e ⟨a, j⟩).bare)
    (h : shifted.eval env = .ok o) :
    (∃ q, (Expr.atTemperature k shifted ⟨b, l⟩).eval env = .ok (.quantity q)
      ∧ (Expr.atTemperature m e ⟨b, n⟩).eval env = .ok (.quantity q))
    ∨ ∃ error, (Expr.atTemperature k shifted ⟨b, l⟩).eval env = .error ⟨.quantity error, k.span⟩
      ∧ (Expr.atTemperature m e ⟨b, n⟩).eval env = .error ⟨.quantity error, m.span⟩ := by
  have hresult : (Expr.atTemperature i e ⟨a, j⟩).eval env = .ok o := by
    rw [← result_eq_ok, ← result_eq_of_bare_eq hshifted, result_eq_ok]
    exact h
  obtain ⟨p, q, hp, hq, rfl⟩ := eval_atTemperature_eq_ok.mp hresult
  have hproportional : p.Proportional := Quantity.keptByEvaluation_proportional.eval henv hp
  have htwice : (Expr.atTemperature k shifted ⟨b, l⟩).eval env
      = metAt k.span ((p.atTemperature b).map .quantity) := by
    rw [eval, h, ← Quantity.atTemperature_atTemperature hproportional hq]
    rfl
  have honce : (Expr.atTemperature m e ⟨b, n⟩).eval env
      = metAt m.span ((p.atTemperature b).map .quantity) := by
    rw [eval, hp]
    rfl
  rw [htwice, honce]
  cases p.atTemperature b with
  | ok r => exact .inl ⟨r, rfl, rfl⟩
  | error error => exact .inr ⟨error, rfl, rfl⟩

namespace Session

/-- **Shifts do not compound in any session.** In whatever settings it is
started, and whatever lines are executed in it: if `e @ a` has a value, then
`(e @ a) @ b` and `e @ b` have the same quantity for a value, in all its parts,
or both fail with the same error of the second shift. Parentheses and places do
not matter. -/
theorem shifts_do_not_compound (settings : Settings) (lines : List (List Char))
    {e shifted : Expr Binary64} {a b : Binary64} {i j k l m n : Extent}
    {o : Outcome Binary64}
    (hshifted : shifted.bare = (Expr.atTemperature i e ⟨a, j⟩).bare)
    (h : shifted.eval (({ settings } : Session).after lines).environment = .ok o) :
    let env := (({ settings } : Session).after lines).environment
    (∃ q, (Expr.atTemperature k shifted ⟨b, l⟩).eval env = .ok (.quantity q)
      ∧ (Expr.atTemperature m e ⟨b, n⟩).eval env = .ok (.quantity q))
    ∨ ∃ error, (Expr.atTemperature k shifted ⟨b, l⟩).eval env = .error ⟨.quantity error, k.span⟩
      ∧ (Expr.atTemperature m e ⟨b, n⟩).eval env = .error ⟨.quantity error, m.span⟩ := by
  intro env
  have henv : env.All Quantity.Proportional :=
    environment_all_after Quantity.keptByEvaluation_proportional (.empty _) lines
  exact Expr.eval_shifted_again henv hshifted h

/-- A resistance shifted on the line that assigns it, and on the line that shows
it. -/
theorem shifts_do_not_compound_warmed :
    let lines := ["r = 1k 1% 100ppm", "s = r @ 40"].map String.toList
    let env := (({} : Session).after lines).environment
    let warmed : Expr Binary64 :=
      .atTemperature .nowhere (.var .nowhere "s") ⟨Binary64.ofRat 60, .nowhere⟩
    ∃ q, (Expr.atTemperature .nowhere (.group .nowhere warmed)
        ⟨Binary64.ofRat 85, .nowhere⟩).eval env = .ok (.quantity q)
      ∧ (Expr.atTemperature .nowhere (.var .nowhere "s")
        ⟨Binary64.ofRat 85, .nowhere⟩).eval env = .ok (.quantity q) := by
  intro lines env warmed
  have hwarmed : ((Expr.group .nowhere warmed).eval env).isOk = true := by decide +kernel
  have honce : ((Expr.atTemperature .nowhere (.var .nowhere "s")
    ⟨Binary64.ofRat 85, .nowhere⟩).eval env).isOk = true := by decide +kernel
  cases h : (Expr.group .nowhere warmed).eval env with
  | error error =>
    rw [h] at hwarmed
    cases hwarmed
  | ok o =>
    refine (shifts_do_not_compound {} lines rfl h).resolve_right ?_
    rintro ⟨error, -, herror⟩
    rw [herror] at honce
    cases honce

end Session

end WorstCase
