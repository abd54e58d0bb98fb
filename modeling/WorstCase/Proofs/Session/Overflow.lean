import WorstCase.Proofs.Quantity.Ordered
import WorstCase.Proofs.Session.Composition

/-!
# Overflow in a session

What an operator or a power makes of quantities has bounds in range: bounds that
are not are reported. A stated quantity is tested less. Its mean must be in
range and so must its tolerance, but not the bounds that they span, and these
are out of range where the mean is great enough
(`Session.overflow_enters`).

There is no other way in. A shift to another temperature states the resistance
anew, since one that can be shifted has a tolerance (`Quantity.Proportional`).
So in every session a value is within range unless its own mean and its own
tolerance span a bound that is not (`Session.isFinite_iff_not_overflows`).
-/

namespace WorstCase

open Binary64

section Stated

variable {S : Type} [Scalar S]

/-- **A measure as it is stated**: what its mean and its tolerance give. -/
def Measure.Stated (m : Measure S) : Prop :=
  ∃ t, m.tolerance = some t ∧ Measure.ofTolerance m.mean t = .ok m

/-- A measure made from a mean and a tolerance has both, and so is as stated. -/
theorem Measure.Stated.ofTolerance {mean tolerance : S} {m : Measure S}
    (h : Measure.ofTolerance mean tolerance = .ok m) : m.Stated := by
  refine ⟨tolerance, tolerance_ofTolerance h, ?_⟩
  rw [mean_ofTolerance h, h]

/-- **A quantity that was tested for overflow, or is as stated**, with a spread
that follows the mean. -/
structure Quantity.Tested (q : Quantity S) : Prop where
  proportional : q.Proportional
  /-- Its bounds are in range, or nobody has asked. -/
  tested : q.bounds.isFinite = true ∨ q.measure.Stated

/-- **Evaluation tests what it joins.** -/
theorem Quantity.keptByEvaluation_tested : KeptByEvaluation (Quantity.Tested (S := S)) where
  literal h := by
    refine ⟨keptByEvaluation_proportional.literal h, .inr ?_⟩
    rcases Literal.eval_eq_ok h with ⟨-, r, rfl, hr⟩ | ⟨-, -, hq⟩
    · obtain ⟨m, hm, hr⟩ := Except.bind_eq_ok.mp hr
      obtain ⟨-, rfl⟩ := Resistance.ofMeasure_eq_ok.mp hr
      exact .ofTolerance hm
    · obtain ⟨m, hm, hq⟩ := Except.bind_eq_ok.mp hq
      rcases ofMeasure_eq_ok hq with ⟨-, r, rfl, hr⟩ | ⟨hkind, rfl⟩
      · obtain ⟨-, rfl⟩ := Resistance.ofMeasure_eq_ok.mp hr
        exact .ofTolerance hm
      · exact .ofTolerance hm
  combine hp hq h := by
    obtain ⟨i, -, hr⟩ := recoveredFrom_combine h
    exact ⟨keptByEvaluation_proportional.combine hp.proportional hq.proportional h,
      .inl hr.isFinite⟩
  power hp h :=
    ⟨keptByEvaluation_proportional.power hp.proportional h, .inl (recoveredFrom_power h).isFinite⟩
  atTemperature hp h := by
    refine ⟨keptByEvaluation_proportional.atTemperature hp.proportional h, .inr ?_⟩
    obtain ⟨r, s, rfl, rfl, hs⟩ := atTemperature_eq_resistance h
    obtain ⟨tolerance, ht, -⟩ := (hp.proportional r rfl).tolerance_atTemperature hs
    obtain ⟨coefficient, m, -, -, -, hm, rfl⟩ := Resistance.atTemperature_eq_ok.mp hs
    rw [Measure.rescaledTo_of_tolerance ht] at hm
    exact .ofTolerance hm

end Stated

/-! ## Bounds out of range -/

namespace Measure

/-- **The bounds of a stated measure are in range** when the bound further from
zero is. -/
theorem isFinite_ofTolerance {mean tolerance : Binary64} {m : Measure Binary64}
    (h : ofTolerance mean tolerance = .ok m) :
    m.bounds.isFinite = true ↔ (mean * (1 + tolerance)).isFinite = true := by
  obtain ⟨hmean, ht, hneg, rfl⟩ := eq_of_ofTolerance h
  have hnonneg := value_nonneg ht hneg
  have hless := isNearest_mul hmean (one_sub_mem ht hnonneg).1
  have hmore := isNearest_mul hmean (one_add_mem ht hnonneg).1
  rw [Interval.isFinite_lesser_greater hless.isNaN hmore.isNaN]
  exact and_iff_right_of_imp (isFinite_spread hmean ht hnonneg)

/-- **A stated measure with a bound out of range.** -/
def Overflows (m : Measure Binary64) : Prop :=
  ∃ t, m.tolerance = some t ∧ ofTolerance m.mean t = .ok m
    ∧ (m.mean * (1 + t)).isFinite = false

end Measure

/-- **What was tested for overflow, or is as stated,** has a bound out of range
only in the second case. -/
theorem Quantity.Tested.isFinite_iff {q : Quantity Binary64} (hq : q.Tested) :
    q.bounds.isFinite = false ↔ q.measure.Overflows := by
  constructor
  · intro h
    rcases hq.tested with hfinite | ⟨t, ht, hm⟩
    · cases h.symm.trans hfinite
    · refine ⟨t, ht, hm, ?_⟩
      rw [← Bool.not_eq_true, ← Measure.isFinite_ofTolerance hm]
      exact Bool.not_eq_true _ ▸ h
  · rintro ⟨t, -, hm, hfar⟩
    rw [← Bool.not_eq_true]
    exact fun hfinite => absurd ((Measure.isFinite_ofTolerance hm).mp hfinite)
      (Bool.not_eq_true _ ▸ hfar)

namespace Session

/-- A run comes to where some of its lines lead, which are those before one asks
to end the session. -/
theorem exists_runLines_eq_after (s : Session) (lines : List Line) :
    ∃ texts, (s.runLines lines).2 = s.after texts := by
  induction lines generalizing s with
  | nil => exact ⟨[], rfl⟩
  | cons line rest ih =>
    by_cases hexit : AsksExit line.text
    · rw [runLines_cons_of_exit hexit]
      exact ⟨[], rfl⟩
    · rw [runLines_cons hexit]
      obtain ⟨texts, htexts⟩ := ih (s.step line.text)
      exact ⟨line.text :: texts, htexts⟩

/-- **What evaluation keeps, a run keeps.** -/
theorem environment_all_run {s : Session} {P : Quantity Binary64 → Prop} (hP : KeptByEvaluation P)
    (henv : s.environment.All P) (script : List Char) : (s.run script).2.environment.All P := by
  obtain ⟨texts, htexts⟩ := exists_runLines_eq_after s (linesOf script)
  rw [run, htexts]
  exact environment_all_after hP henv texts

/-- A text that is evaluated is an expression, as things are. -/
theorem evaluate_eq_ok {s : Session} {text : List Char} {o : Outcome Binary64}
    (h : s.evaluate text = .ok o) : ∃ e : Expr Binary64, e.eval s.environment = .ok o := by
  unfold evaluate at h
  split at h
  · cases h
  · rename_i e he
    exact ⟨e, Except.mapError_eq_ok.mp h⟩

/-- **A bound is out of range only where it was stated so.** After a script, in
whatever settings, a variable or the value of a typed expression has a bound out
of range exactly when its own mean and its own tolerance span one. What an
operator joins, and what is squared, never has: its overflow is an error. -/
theorem isFinite_iff_not_overflows (settings : Settings) (script : List Char) :
    let s := (({ settings } : Session).run script).2
    (∀ name q, s.environment.get? name = some q →
      (q.bounds.isFinite = false ↔ q.measure.Overflows))
    ∧ (∀ text q, s.evaluate text = .ok (.quantity q) →
      (q.bounds.isFinite = false ↔ q.measure.Overflows))
    ∧ (∀ extent op left right q,
      (Expr.binary extent op left right).eval s.environment = .ok (.quantity q) →
      q.bounds.isFinite = true)
    ∧ ∀ extent base exponent q,
      (Expr.power extent base exponent).eval s.environment = .ok (.quantity q) →
      q.bounds.isFinite = true := by
  intro s
  have henv : s.environment.All Quantity.Tested :=
    environment_all_run Quantity.keptByEvaluation_tested (.empty _) script
  refine ⟨fun name q hq => (henv name q hq).isFinite_iff, ?_, ?_, ?_⟩
  · intro text q hq
    obtain ⟨e, he⟩ := evaluate_eq_ok hq
    exact (Quantity.keptByEvaluation_tested.eval henv he).isFinite_iff
  · intro extent op left right q hq
    obtain ⟨p, r, -, -, h⟩ := Expr.eval_binary_eq_ok.mp hq
    obtain ⟨i, -, hr⟩ := Quantity.recoveredFrom_combine h
    exact hr.isFinite
  · intro extent base exponent q hq
    obtain ⟨p, -, h⟩ := Expr.eval_power_eq_ok.mp hq
    exact (Quantity.recoveredFrom_power h).isFinite

/-- A voltage that its tolerance may double, out of range. -/
def doubled : Quantity Binary64 :=
  .plain .voltage ⟨ofRat (10 ^ 308), some 1, ⟨0, infinity false⟩⟩ Kind.voltage_ne_resistance

theorem isFinite_iff_not_overflows_doubled :
    (({} : Session).run "a = 1e308V 100%".toList).2.environment.get? "a" = some doubled
      ∧ doubled.bounds.isFinite = false ∧ doubled.measure.Overflows := by
  have hget : (({} : Session).run "a = 1e308V 100%".toList).2.environment.get? "a"
    = some doubled := by decide +kernel
  have hfinite : doubled.bounds.isFinite = false := by decide
  exact ⟨hget, hfinite, ((isFinite_iff_not_overflows {} _).1 "a" doubled hget).mp hfinite⟩

/-- **A voltage that may be twice `1e308` is accepted**, and its upper bound is
infinite. No line of the script fails. -/
theorem overflow_enters :
    let entered := ({} : Session).run "a = 1e308V 100%".toList
    (∀ l ∈ entered.1, l.error? = none)
      ∧ entered.2.environment.get? "a" = some doubled
      ∧ entered.2.evaluate "a".toList = .ok (.quantity doubled)
      ∧ doubled.bounds.upper.isInfinite = true := by
  decide +kernel

end Session

end WorstCase
