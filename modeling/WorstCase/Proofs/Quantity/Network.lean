import WorstCase.Proofs.Evaluation.Dimensions
import WorstCase.Proofs.Interval.Rounded
import WorstCase.Proofs.Quantity.Constructible
import WorstCase.Proofs.Quantity.Temperature

/-!
# The temperature of a network of resistances

A network is put together from resistances in series and in parallel, and
scaled by factors. Its temperature is computed by two rules that have nothing to
do with each other: a connection compares the temperatures of its two parts, and
a product or a quotient takes the one of the resistance in it. What comes of
them over a whole network has a simple description all the same. The network
holds at a temperature when every resistance in it does
(`Network.Labelled`), in whatever order and however often it is put
together, since sharing a temperature with one part is sharing it with all.

A divider is less simple. It asks for like temperatures, and the mark of a
network whose resistances share none is like itself. So a network that shares a
temperature is never divided with one that does not share it, but two networks
that share none, and nothing with each other, are
(`Network.divider_of_mixed`).
-/

namespace WorstCase

open Binary64

/-! ## Like temperatures -/

namespace Temperature

variable {S : Type} [Scalar S]

@[simp] theorem mixed_combine (t : Temperature S) : mixed.combine t = mixed := rfl

@[simp] theorem combine_mixed (t : Temperature S) : t.combine mixed = mixed := by
  cases t <;> rfl

/-- **A combination holds at a temperature when both its parts do.** -/
theorem same_combine (s t : Temperature Binary64) (x : Binary64) :
    (s.combine t).same (.celsius x) = true
      ↔ s.same (.celsius x) = true ∧ t.same (.celsius x) = true := by
  cases s with
  | mixed => simp [same]
  | celsius a =>
    cases t with
    | mixed => simp [same]
    | celsius b =>
      show (if Scalar.same a b then celsius a else mixed).same (.celsius x) = true
        ↔ Scalar.same a x = true ∧ Scalar.same b x = true
      by_cases hab : Scalar.same a b = true
      · rw [if_pos hab]
        show Scalar.same a x = true ↔ _
        rw [same_iff] at hab
        rw [same_iff, same_iff, hab.2.2]
        exact ⟨fun h => ⟨h, hab.2.1, h.2⟩, fun h => ⟨hab.1, h.2.2⟩⟩
      · rw [if_neg hab]
        refine ⟨nofun, fun ⟨ha, hb⟩ => absurd ?_ hab⟩
        rw [same_iff] at ha hb ⊢
        exact ⟨ha.1, hb.1, ha.2.2.trans hb.2.2.symm⟩

/-- A temperature that is one temperature is a number. -/
def IsNumber (t : Temperature Binary64) : Prop := ∀ x, t = .celsius x → x.isNaN = false

theorem IsNumber.combine {s t : Temperature Binary64} (hs : s.IsNumber) :
    (s.combine t).IsNumber := by
  cases s with
  | mixed => exact nofun
  | celsius a =>
    cases t with
    | mixed => exact nofun
    | celsius b =>
      intro x hx
      refine hs x ?_
      unfold Temperature.combine at hx
      dsimp only at hx
      split at hx
      · exact hx
      · cases hx

/-- The mark for no one temperature is what is not the same as any. -/
theorem eq_mixed_iff {t : Temperature Binary64} (ht : t.IsNumber) :
    t = .mixed ↔ ¬∃ x, t.same (.celsius x) = true := by
  cases t with
  | mixed => simp [same]
  | celsius a =>
    have ha : a.isNaN = false := ht a rfl
    refine ⟨nofun, fun h => absurd ⟨a, ?_⟩ h⟩
    exact same_iff.mpr ⟨ha, ha, rfl⟩

/-- **Two temperatures are alike** when they are one, or when neither is one. -/
theorem same_iff_exists {s t : Temperature Binary64} (hs : s.IsNumber) (ht : t.IsNumber) :
    s.same t = true
      ↔ (∃ x, s.same (.celsius x) = true ∧ t.same (.celsius x) = true)
        ∨ (¬∃ x, s.same (.celsius x) = true) ∧ ¬∃ x, t.same (.celsius x) = true := by
  rw [← eq_mixed_iff hs, ← eq_mixed_iff ht]
  cases s with
  | mixed => cases t <;> simp [same]
  | celsius a =>
    cases t with
    | mixed => simp [same]
    | celsius b =>
      show Scalar.same a b = true
        ↔ (∃ x, Scalar.same a x = true ∧ Scalar.same b x = true) ∨ _
      have hb : b.isNaN = false := ht b rfl
      constructor
      · intro h
        exact .inl ⟨b, h, same_iff.mpr ⟨hb, hb, rfl⟩⟩
      · rintro (⟨x, hax, hbx⟩ | ⟨⟨⟩, -⟩)
        rw [same_iff] at hax hbx ⊢
        exact ⟨hax.1, hb, hax.2.2.trans hbx.2.2.symm⟩

end Temperature

/-! ## The temperature of a result -/

namespace Quantity

section Results

variable {S : Type} [Scalar S] {p q : Quantity S} {r s u : Resistance S}

/-- A result that is a resistance has the temperature it is given, and no
coefficient. -/
theorem temperature_ofResult {kind : Kind} {bounds : Interval S} {t : Temperature S}
    {op : Operator} (h : ofResult kind bounds t op = .ok (.resistance u)) :
    u.coefficient = none ∧ u.temperature = t := by
  obtain ⟨-, m, -, h⟩ := ofResult_eq_ok.mp h
  rcases ofMeasure_eq_ok h with ⟨-, r, hr, hmade⟩ | ⟨hkind, hplain⟩
  · cases hr
    obtain ⟨-, rfl⟩ := Resistance.ofMeasure_eq_ok.mp hmade
    exact ⟨rfl, rfl⟩
  · cases hplain

theorem temperature_combined {bounds : Interval S} {op : Operator}
    (h : r.combined s bounds op = .ok u) :
    u.coefficient = none ∧ u.temperature = r.temperature.combine s.temperature := by
  obtain ⟨-, m, -, h⟩ := Resistance.combined_eq_ok.mp h
  obtain ⟨-, rfl⟩ := Resistance.ofMeasure_eq_ok.mp h
  exact ⟨rfl, rfl⟩

/-- **Two rules for the temperature of a resistance that an operator results
in.** Two resistances are connected, and it is the one they share; otherwise it
is inherited. A coefficient there never is. -/
theorem temperature_combine {op : BinaryOperator}
    (h : p.combine op q = .ok (.quantity (.resistance u))) :
    u.coefficient = none
      ∧ ((∃ r s, p = .resistance r ∧ q = .resistance s
          ∧ u.temperature = r.temperature.combine s.temperature)
        ∨ ¬(p.kind = .resistance ∧ q.kind = .resistance)
          ∧ u.temperature = inheritedTemperature p q) := by
  have hkind : op.kind? p.kind q.kind = some .resistance := kind_combine h
  cases op with
  | add =>
    obtain ⟨-, -, h⟩ := add_eq_quantity h
    rcases h with ⟨r, s, u', rfl, rfl, hu, h⟩ | ⟨hp, h⟩
    · cases hu
      obtain ⟨hcoefficient, htemperature⟩ := temperature_combined h
      exact ⟨hcoefficient, .inl ⟨r, s, rfl, rfl, htemperature⟩⟩
    · exact absurd (kind_ofResult h).symm hp
  | sub =>
    obtain ⟨-, -, hp, h⟩ := sub_eq_quantity h
    exact absurd (kind_ofResult h).symm hp
  | mul =>
    obtain ⟨kind, -, h⟩ := mul_eq_quantity h
    obtain ⟨i, -, h⟩ := ofResult?_eq_ok.mp h
    obtain ⟨hcoefficient, htemperature⟩ := temperature_ofResult h
    refine ⟨hcoefficient, .inr ⟨?_, htemperature⟩⟩
    rintro ⟨hp, hq⟩
    rw [hp, hq] at hkind
    cases hkind
  | div =>
    obtain ⟨kind, -, -, h⟩ := div_eq_quantity h
    obtain ⟨i, -, h⟩ := ofResult?_eq_ok.mp h
    obtain ⟨hcoefficient, htemperature⟩ := temperature_ofResult h
    refine ⟨hcoefficient, .inr ⟨?_, htemperature⟩⟩
    rintro ⟨hp, hq⟩
    rw [hp, hq] at hkind
    cases hkind
  | parallel =>
    obtain ⟨v, hv, h⟩ := Except.map_eq_ok.mp h
    cases h
    obtain ⟨r, s, u', rfl, rfl, hu, h⟩ := parallel_eq_ok hv
    cases hu
    obtain ⟨i, -, h⟩ := Resistance.parallel_eq_ok.mp h
    obtain ⟨hcoefficient, htemperature⟩ := temperature_combined h
    exact ⟨hcoefficient, .inl ⟨r, s, rfl, rfl, htemperature⟩⟩
  | divider =>
    obtain ⟨v, hv, h⟩ := divider_none_eq_ok.mp h
    cases h
    obtain ⟨r, s, m, -, -, hplain, -⟩ := dividerRatio_eq_ok hv
    cases hplain

theorem exists_resistance_of_combine {op : BinaryOperator} {o : Outcome S}
    (hkind : op.kind? p.kind q.kind = some .resistance) (h : p.combine op q = .ok o) :
    ∃ u, o = .quantity (.resistance u) := by
  obtain ⟨r, rfl⟩ := exists_quantity_of_combine hkind h
  obtain ⟨u, rfl⟩ := exists_resistance (Option.some.inj ((kind_combine h).symm.trans hkind))
  exact ⟨u, rfl⟩

/-- **Once mixed, always mixed**: whatever a resistance without one temperature
is combined with, a resistance that results has none either. -/
theorem temperature_combine_of_mixed {op : BinaryOperator} (hr : r.temperature = .mixed)
    (h : (resistance r).combine op q = .ok (.quantity (.resistance u))
      ∨ q.combine op (.resistance r) = .ok (.quantity (.resistance u))) :
    u.temperature = .mixed := by
  rcases h with h | h
  · obtain ⟨-, ⟨r', s, hp, -, htemperature⟩ | ⟨-, htemperature⟩⟩ := temperature_combine h
    · cases hp
      rw [htemperature, hr, Temperature.mixed_combine]
    · exact htemperature.trans hr
  · obtain ⟨-, ⟨s, r', -, hp, htemperature⟩ | ⟨hboth, htemperature⟩⟩ := temperature_combine h
    · cases hp
      rw [htemperature, hr, Temperature.combine_mixed]
    · cases q with
      | resistance s => exact absurd ⟨rfl, rfl⟩ hboth
      | plain kind m ne => exact htemperature.trans hr

end Results

end Quantity

/-- Without a coefficient there is no other temperature. -/
theorem Quantity.atTemperature_of_coefficient {S : Type} [Scalar S] {r : Resistance S}
    (h : r.coefficient = none) (degrees : S) :
    (Quantity.resistance r).atTemperature degrees = .error .missingCoefficient := by
  have hr : r.atTemperature degrees = .error .missingCoefficient := by
    rw [Resistance.atTemperature, h]
  show (r.atTemperature degrees).map Quantity.resistance = _
  rw [hr]
  rfl

/-! ## Dividers -/

namespace Resistance

variable {S : Type} [Scalar S] {r s : Resistance S}

/-- Unlike temperatures are what a divider reports first. -/
theorem dividerRatio_of_not_same (h : r.temperature.same s.temperature = false) :
    r.dividerRatio s = .error (.temperatureMismatch r.temperature s.temperature) := by
  unfold dividerRatio
  rw [h]
  rfl

/-- Otherwise it does not report them. -/
theorem dividerRatio_of_same (h : r.temperature.same s.temperature = true)
    (a b : Temperature S) : r.dividerRatio s ≠ .error (.temperatureMismatch a b) := by
  unfold dividerRatio
  rw [h]
  dsimp only
  rw [if_neg (by decide)]
  split
  · unfold Measure.ofBounds
    split
    · nofun
    · split <;> nofun
  · nofun

end Resistance

/-! ## The temperatures there are -/

/-- **A resistance whose temperature may be relied on.** -/
structure Resistance.Sited (r : Resistance Binary64) : Prop where
  /-- If it is one temperature, it is a number. -/
  isNumber : r.temperature.IsNumber
  /-- If it is none, the resistance cannot be taken to one. -/
  coefficient : r.temperature = .mixed → r.coefficient = none

namespace Resistance

theorem Sited.ofCelsius {r : Resistance Binary64} {x : Binary64} (hx : x.isNaN = false)
    (h : r.temperature = .celsius x) : r.Sited := by
  refine ⟨fun y hy => ?_, fun hmixed => ?_⟩
  · cases h.symm.trans hy
    exact hx
  · cases h.symm.trans hmixed

/-- What is stated is stated at 20 °C. -/
theorem Sited.ofReference {r : Resistance Binary64} (h : r.temperature = .reference) : r.Sited :=
  .ofCelsius rfl h

theorem Sited.ofMeasure {m : Measure Binary64} {coefficient : Option Int}
    {r : Resistance Binary64} (h : Resistance.ofMeasure m coefficient .reference = .ok r) :
    r.Sited := by
  obtain ⟨-, rfl⟩ := ofMeasure_eq_ok.mp h
  exact .ofReference rfl

end Resistance

namespace Quantity

/-- A quantity that is a resistance whose temperature may be relied on, or no
resistance. -/
def Sited (q : Quantity Binary64) : Prop := ∀ r, q = .resistance r → r.Sited

variable {p q r : Quantity Binary64}

theorem Sited.combine (op : BinaryOperator) (hp : p.Sited) (hq : q.Sited)
    (h : p.combine op q = .ok (.quantity r)) : r.Sited := by
  rintro u rfl
  obtain ⟨hcoefficient, htemperature⟩ := temperature_combine h
  refine ⟨?_, fun _ => hcoefficient⟩
  rcases htemperature with ⟨s, t, rfl, rfl, htemperature⟩ | ⟨-, htemperature⟩
  · rw [htemperature]
    exact (hp s rfl).isNumber.combine
  · rw [htemperature]
    cases p with
    | resistance s => exact (hp s rfl).isNumber
    | plain kind m ne =>
      cases q with
      | resistance t => exact (hq t rfl).isNumber
      | plain kind' m' ne' =>
        rintro x ⟨⟩
        rfl

theorem Sited.withTolerance {tolerance : Binary64} (hp : p.Sited)
    (h : p.withTolerance tolerance = .ok q) : q.Sited := by
  rintro u rfl
  cases p with
  | plain kind m ne =>
    obtain ⟨n, -, hn⟩ := Except.map_eq_ok.mp h
    cases hn
  | resistance r =>
    obtain ⟨s, hs, hu⟩ := Except.map_eq_ok.mp h
    cases hu
    obtain ⟨m, -, hs⟩ := Except.bind_eq_ok.mp hs
    cases hs
    exact ⟨(hp r rfl).isNumber, (hp r rfl).coefficient⟩

theorem sited_atTemperature {degrees : Binary64} (h : p.atTemperature degrees = .ok q) :
    q.Sited := by
  obtain ⟨r, s, rfl, rfl, hs⟩ := atTemperature_eq_resistance h
  obtain ⟨coefficient, m, -, hdegrees, -, -, rfl⟩ := Resistance.atTemperature_eq_ok.mp hs
  rintro _ ⟨⟩
  exact .ofCelsius (isNaN_of_isFinite hdegrees) rfl

/-- **Every way to make quantities keeps their temperatures reliable.** -/
theorem keptByMaking_sited : KeptByMaking Sited where
  resistance _ h := by
    rintro _ ⟨⟩
    exact .ofMeasure h
  plain _ _ := by rintro _ ⟨⟩
  withTolerance hp h := hp.withTolerance h
  combine hp hq h := hp.combine _ hq h
  power _ h := by
    obtain ⟨kind, -, -, h⟩ := power_eq_quantity h
    rintro u rfl
    exact .ofReference (temperature_ofResult h).2
  atTemperature _ h := sited_atTemperature h

end Quantity

/-- **The temperature of a resistance that was made may be relied on.** -/
theorem MadeResistance.sited (r : MadeResistance Binary64) : r.resistance.Sited :=
  r.toQuantity.has Quantity.keptByMaking_sited r.resistance rfl

/-! ## Networks -/

theorem Kind.factor_ne_resistance : Kind.factor ≠ .resistance := by decide

/-- **A network of resistances**, put together in series and in parallel and
scaled by factors. -/
inductive Network (S : Type) [Scalar S] where
  /-- One resistance. -/
  | single (r : MadeResistance S)
  /-- Two networks in series. -/
  | series (a b : Network S)
  /-- Two networks in parallel. -/
  | parallel (a b : Network S)
  /-- A network times a factor. -/
  | times (a : Network S) (factor : Measure S)
  /-- A factor times a network. -/
  | factorTimes (factor : Measure S) (a : Network S)
  /-- A network divided by a factor. -/
  | divided (a : Network S) (factor : Measure S)

namespace Network

variable {S : Type} [Scalar S]

/-- The resistances in a network. -/
def leaves : Network S → List (Resistance S)
  | .single r => [r.resistance]
  | .series a b | .parallel a b => a.leaves ++ b.leaves
  | .times a _ | .factorTimes _ a | .divided a _ => a.leaves

/-- Whether nothing was put together. -/
def isSingle : Network S → Bool
  | .single _ => true
  | _ => false

omit [Scalar S] in
/-- A factor as a quantity. -/
def factor (m : Measure S) : Quantity S := .plain .factor m Kind.factor_ne_resistance

/-- The operation on what two networks come to, if it is a quantity. -/
def join (op : BinaryOperator) : Outcome S → Outcome S → Except (QuantityError S) (Outcome S)
  | .quantity p, .quantity q => p.combine op q
  | _, _ => .ok .undefined

/-- **What a network comes to.** -/
def eval : Network S → Except (QuantityError S) (Outcome S)
  | .single r => .ok (.quantity (.resistance r.resistance))
  | .series a b => do join .add (← a.eval) (← b.eval)
  | .parallel a b => do join .parallel (← a.eval) (← b.eval)
  | .times a m => do join .mul (← a.eval) (.quantity (factor m))
  | .factorTimes m a => do join .mul (.quantity (factor m)) (← a.eval)
  | .divided a m => do join .div (← a.eval) (.quantity (factor m))

/-- **The network holds at a temperature** when every resistance in it does. -/
def HoldsAt (n : Network S) (t : S) : Prop := ∀ r ∈ n.leaves, r.temperature.same (.celsius t) = true

theorem holdsAt_single {r : MadeResistance S} {t : S} :
    (single r).HoldsAt t ↔ r.resistance.temperature.same (.celsius t) = true :=
  List.forall_mem_singleton

theorem holdsAt_of_leaves {n a b : Network S} {t : S} (h : n.leaves = a.leaves ++ b.leaves) :
    n.HoldsAt t ↔ a.HoldsAt t ∧ b.HoldsAt t := by
  unfold HoldsAt
  rw [h, List.forall_mem_append]

/-! ### The temperature of a network -/

/-- **A network and what it comes to**, as far as the temperature goes. -/
structure Labelled (n : Network Binary64) (r : Resistance Binary64) : Prop where
  sited : r.Sited
  /-- It is at the temperature of all its resistances, if they share one. -/
  same_iff : ∀ t, r.temperature.same (.celsius t) = true ↔ n.HoldsAt t
  /-- What was put together has no coefficient. -/
  coefficient : n.isSingle = false → r.coefficient = none

variable {a b n : Network Binary64} {r s u : Resistance Binary64}

theorem Labelled.single (r : MadeResistance Binary64) :
    (Network.single r).Labelled r.resistance :=
  ⟨r.sited, fun _ => holdsAt_single.symm, nofun⟩

/-- Two networks are connected, in whichever way. -/
theorem Labelled.connect (op : BinaryOperator) {o : Outcome Binary64} (ha : a.Labelled r)
    (hb : b.Labelled s) (hkind : op.kind? .resistance .resistance = some .resistance)
    (hleaves : n.leaves = a.leaves ++ b.leaves)
    (h : (Quantity.resistance r).combine op (.resistance s) = .ok o) :
    ∃ u, o = .quantity (.resistance u) ∧ n.Labelled u := by
  obtain ⟨u, rfl⟩ := Quantity.exists_resistance_of_combine hkind h
  refine ⟨u, rfl, ?_⟩
  obtain ⟨hcoefficient, ⟨_, _, ⟨⟩, ⟨⟩, htemperature⟩ | ⟨hboth, -⟩⟩ := Quantity.temperature_combine h
  · refine ⟨⟨htemperature ▸ ha.sited.isNumber.combine, fun _ => hcoefficient⟩, fun t => ?_,
      fun _ => hcoefficient⟩
    rw [htemperature, Temperature.same_combine, ha.same_iff, hb.same_iff,
      holdsAt_of_leaves hleaves]
  · exact absurd ⟨rfl, rfl⟩ hboth

/-- A network is scaled: the result has its temperature, and no coefficient. -/
theorem Labelled.scale (ha : a.Labelled r) (hleaves : n.leaves = a.leaves)
    (hcoefficient : u.coefficient = none) (htemperature : u.temperature = r.temperature) :
    n.Labelled u := by
  refine ⟨⟨htemperature ▸ ha.sited.isNumber, fun _ => hcoefficient⟩, fun t => ?_,
    fun _ => hcoefficient⟩
  rw [htemperature, ha.same_iff]
  unfold HoldsAt
  rw [hleaves]

/-- A network is scaled from the right. -/
theorem Labelled.scale_right (op : BinaryOperator) {m : Measure Binary64} {o : Outcome Binary64}
    (ha : a.Labelled r) (hkind : op.kind? .resistance .factor = some .resistance)
    (hleaves : n.leaves = a.leaves)
    (h : (Quantity.resistance r).combine op (factor m) = .ok o) :
    ∃ u, o = .quantity (.resistance u) ∧ n.Labelled u := by
  obtain ⟨u, rfl⟩ := Quantity.exists_resistance_of_combine hkind h
  obtain ⟨hcoefficient, ⟨_, _, -, ⟨⟩, -⟩ | ⟨-, htemperature⟩⟩ := Quantity.temperature_combine h
  exact ⟨u, rfl, ha.scale hleaves hcoefficient htemperature⟩

/-- A network is scaled from the left. -/
theorem Labelled.scale_left (op : BinaryOperator) {m : Measure Binary64} {o : Outcome Binary64}
    (ha : a.Labelled r) (hkind : op.kind? .factor .resistance = some .resistance)
    (hleaves : n.leaves = a.leaves)
    (h : (factor m).combine op (.resistance r) = .ok o) :
    ∃ u, o = .quantity (.resistance u) ∧ n.Labelled u := by
  obtain ⟨u, rfl⟩ := Quantity.exists_resistance_of_combine hkind h
  obtain ⟨hcoefficient, ⟨_, _, ⟨⟩, -⟩ | ⟨-, htemperature⟩⟩ := Quantity.temperature_combine h
  exact ⟨u, rfl, ha.scale hleaves hcoefficient htemperature⟩

/-- **A network that has a value is a resistance**, whose temperature is the one
of all its resistances: by induction on the network. -/
theorem exists_labelled {o : Outcome Binary64} (h : n.eval = .ok o) :
    ∃ r, o = .quantity (.resistance r) ∧ n.Labelled r := by
  induction n generalizing o with
  | single r =>
    cases h
    exact ⟨r.resistance, rfl, .single r⟩
  | series a b iha ihb =>
    obtain ⟨p, hp, h⟩ := Except.bind_eq_ok.mp h
    obtain ⟨q, hq, h⟩ := Except.bind_eq_ok.mp h
    obtain ⟨r, rfl, hr⟩ := iha hp
    obtain ⟨s, rfl, hs⟩ := ihb hq
    exact hr.connect .add hs rfl rfl h
  | parallel a b iha ihb =>
    obtain ⟨p, hp, h⟩ := Except.bind_eq_ok.mp h
    obtain ⟨q, hq, h⟩ := Except.bind_eq_ok.mp h
    obtain ⟨r, rfl, hr⟩ := iha hp
    obtain ⟨s, rfl, hs⟩ := ihb hq
    exact hr.connect .parallel hs rfl rfl h
  | times a m ih =>
    obtain ⟨p, hp, h⟩ := Except.bind_eq_ok.mp h
    obtain ⟨r, rfl, hr⟩ := ih hp
    exact hr.scale_right .mul rfl rfl h
  | factorTimes m a ih =>
    obtain ⟨p, hp, h⟩ := Except.bind_eq_ok.mp h
    obtain ⟨r, rfl, hr⟩ := ih hp
    exact hr.scale_left .mul rfl rfl h
  | divided a m ih =>
    obtain ⟨p, hp, h⟩ := Except.bind_eq_ok.mp h
    obtain ⟨r, rfl, hr⟩ := ih hp
    exact hr.scale_right .div rfl rfl h

/-- **The temperature of a network.** A network that has a value is a resistance.
It is at one temperature exactly when all its resistances are at that one, and at
none in every other case. As soon as anything was put together it has no
coefficient and cannot be taken to another temperature. Nor can it be where it is
at no temperature, and nothing that it is combined with gives it one. -/
theorem temperature_eval {n : Network Binary64} {o : Outcome Binary64} (h : n.eval = .ok o) :
    ∃ r, o = .quantity (.resistance r)
      ∧ (∀ t, (∃ s, r.temperature = .celsius s ∧ Scalar.same s t = true) ↔ n.HoldsAt t)
      ∧ (r.temperature = .mixed ↔ ¬∃ t, n.HoldsAt t)
      ∧ (n.isSingle = false ∨ r.temperature = .mixed → r.coefficient = none
        ∧ ∀ degrees, (Quantity.resistance r).atTemperature degrees = .error .missingCoefficient)
      ∧ (r.temperature = .mixed → ∀ op q u,
        (Quantity.resistance r).combine op q = .ok (.quantity (.resistance u))
          ∨ q.combine op (.resistance r) = .ok (.quantity (.resistance u)) →
        u.temperature = .mixed) := by
  obtain ⟨r, rfl, hr⟩ := exists_labelled h
  refine ⟨r, rfl, fun t => ?_, ?_, fun hwhich => ?_, fun hmixed op q u => ?_⟩
  · rw [← hr.same_iff]
    cases r.temperature with
    | mixed => simp [Temperature.same]
    | celsius s => simp [Temperature.same]
  · rw [Temperature.eq_mixed_iff hr.sited.isNumber]
    simp only [hr.same_iff]
  · have hcoefficient : r.coefficient = none := hwhich.elim hr.coefficient hr.sited.coefficient
    exact ⟨hcoefficient, Quantity.atTemperature_of_coefficient hcoefficient⟩
  · exact Quantity.temperature_combine_of_mixed hmixed

/-- **Which networks a divider takes for networks at one temperature**: two whose
resistances all share one, and two of which neither has one that its own
resistances share. -/
theorem Labelled.same_iff_exists (ha : a.Labelled r) (hb : b.Labelled s) :
    r.temperature.same s.temperature = true
      ↔ (∃ t, a.HoldsAt t ∧ b.HoldsAt t) ∨ (¬∃ t, a.HoldsAt t) ∧ ¬∃ t, b.HoldsAt t := by
  rw [Temperature.same_iff_exists ha.sited.isNumber hb.sited.isNumber]
  simp only [ha.same_iff, hb.same_iff]

/-- **A divider of two networks.** If either network has a temperature that all
its resistances share, a divider, with a voltage or without, succeeds only if
all resistances of both share one, and reports the mismatch whenever they do
not. But if neither has one, no mismatch is reported, whatever temperatures the
resistances are at. -/
theorem divider_eval {m n : Network Binary64} {p q : Quantity Binary64}
    (hp : m.eval = .ok (.quantity p)) (hq : n.eval = .ok (.quantity q)) :
    ((∃ t, m.HoldsAt t) ∨ (∃ t, n.HoldsAt t) →
      (∀ voltage o, p.divider q voltage = .ok o → ∃ t, m.HoldsAt t ∧ n.HoldsAt t)
      ∧ ((¬∃ t, m.HoldsAt t ∧ n.HoldsAt t) →
        ∀ voltage, ∃ a b, p.divider q voltage = .error (.temperatureMismatch a b)))
    ∧ ((¬∃ t, m.HoldsAt t) → (¬∃ t, n.HoldsAt t) →
      ∀ a b, p.divider q none ≠ .error (.temperatureMismatch a b)) := by
  obtain ⟨r, hr, hmr⟩ := exists_labelled hp
  obtain ⟨s, hs, hns⟩ := exists_labelled hq
  cases hr
  cases hs
  have hsame := hmr.same_iff_exists hns
  refine ⟨fun hshared => ?_, fun hm hn a b h => ?_⟩
  · have hmismatch (hcommon : ¬∃ t, m.HoldsAt t ∧ n.HoldsAt t)
        (voltage : Option (Quantity Binary64)) :
        (Quantity.resistance r).divider (.resistance s) voltage
          = .error (.temperatureMismatch r.temperature s.temperature) := by
      have hnot : r.temperature.same s.temperature = false := by
        rw [← Bool.not_eq_true, hsame]
        rintro (h | ⟨hm, hn⟩)
        · exact hcommon h
        · exact hshared.elim hm hn
      refine Except.bind_eq_error.mpr (.inl (Except.map_eq_error.mpr ?_))
      exact Resistance.dividerRatio_of_not_same hnot
    refine ⟨fun voltage o h => ?_, fun hcommon voltage => ⟨_, _, hmismatch hcommon voltage⟩⟩
    by_contra hcommon
    cases (hmismatch hcommon voltage).symm.trans h
  · have hlike : r.temperature.same s.temperature = true := hsame.mpr (.inr ⟨hm, hn⟩)
    rcases Except.bind_eq_error.mp h with h | ⟨ratio, -, h⟩
    · exact Resistance.dividerRatio_of_same hlike a b (Except.map_eq_error.mp h)
    · cases h

/-! ### Two networks that share no temperature -/

/-- A resistance of 1 kΩ at 20 °C that gains a tenth with each degree. -/
def cold : Resistance Binary64 :=
  ⟨⟨ofRat 1000, some (ofRat (1 / 4)), ⟨ofRat 750, ofRat 1250⟩⟩, some 100000, ofRat 1000,
    .celsius (ofRat 20)⟩

/-- The same resistance at 30 °C. -/
def warm : Resistance Binary64 :=
  ⟨⟨ofRat 2000, some (ofRat (1 / 4)), ⟨ofRat 1500, ofRat 2500⟩⟩, some 100000, ofRat 1000,
    .celsius (ofRat 30)⟩

theorem cold_made : (Quantity.resistance cold).Constructible := by
  have h : Resistance.ofTolerance (ofRat 1000) (ofRat (1 / 4)) (some 100000) = .ok cold := by
    decide +kernel
  exact .resistanceOfTolerance h

theorem warm_made : (Quantity.resistance warm).Constructible := by
  have h : (Quantity.resistance cold).atTemperature (ofRat 30) = .ok (.resistance warm) := by
    decide +kernel
  exact .atTemperature cold_made h

/-- The first of them alone. -/
def atCold : Network Binary64 := .single ⟨cold, cold_made⟩

/-- The second of them alone. -/
def atWarm : Network Binary64 := .single ⟨warm, warm_made⟩

/-- What they come to in series. -/
def lukewarm : Resistance Binary64 :=
  ⟨⟨ofRat 3000, some (ofRat (1 / 4)), ⟨ofRat 2250, ofRat 3750⟩⟩, none, ofRat 3000, .mixed⟩

theorem lukewarm_eval :
    (atCold.series atWarm).eval = .ok (.quantity (.resistance lukewarm)) := by
  decide +kernel

/-- The two in series are at no temperature. -/
theorem temperature_eval_lukewarm :
    (¬∃ t, (atCold.series atWarm).HoldsAt t)
      ∧ ∀ degrees, (Quantity.resistance lukewarm).atTemperature degrees
        = .error .missingCoefficient := by
  obtain ⟨r, hr, -, hmixed, hshift, -⟩ := temperature_eval lukewarm_eval
  cases hr
  exact ⟨hmixed.mp rfl, (hshift (.inl rfl)).2⟩

/-- There is no temperature that both of them are at. -/
theorem cold_warm_unlike : ¬∃ t, cold.temperature.same (.celsius t) = true
    ∧ warm.temperature.same (.celsius t) = true := by
  have hmixed : cold.temperature.combine warm.temperature = .mixed := by decide +kernel
  rintro ⟨t, h⟩
  rw [← Temperature.same_combine, hmixed] at h
  cases h

/-- One by the other they are not divided. -/
theorem divider_eval_cold_warm :
    (∃ t, atCold.HoldsAt t)
      ∧ ∀ voltage, ∃ a b, (Quantity.resistance cold).divider (.resistance warm) voltage
        = .error (.temperatureMismatch a b) := by
  have hshared : ∃ t, atCold.HoldsAt t := ⟨ofRat 20, holdsAt_single.mpr (by decide +kernel)⟩
  obtain ⟨hdivided, -⟩ := divider_eval (m := atCold) (n := atWarm) rfl rfl
  refine ⟨hshared, (hdivided (.inl hshared)).2 ?_⟩
  rintro ⟨t, hm, hn⟩
  exact cold_warm_unlike ⟨t, holdsAt_single.mp hm, holdsAt_single.mp hn⟩

/-- **Both in series, by both in series, they are**: a network of resistances at
20 °C and at 30 °C is divided by another, and no mismatch is reported. -/
theorem divider_of_mixed :
    let n := atCold.series atWarm
    n.eval = .ok (.quantity (.resistance lukewarm))
      ∧ (∀ l ∈ n.leaves, ∃ t, l.temperature = .celsius t)
      ∧ (¬∃ t, n.HoldsAt t)
      ∧ (Quantity.resistance lukewarm).divider (.resistance lukewarm) none
        = .ok (.quantity (factor
          ⟨ofRat (1 / 2), some (ofRat (1 / 4)), ⟨ofRat (3 / 8), ofRat (5 / 8)⟩⟩)) := by
  intro n
  refine ⟨lukewarm_eval, ?_, ?_, by decide +kernel⟩
  · rintro l (_ | ⟨_, _ | ⟨_, ⟨⟩⟩⟩)
    · exact ⟨_, rfl⟩
    · exact ⟨_, rfl⟩
  · rintro ⟨t, h⟩
    obtain ⟨hcold, hwarm⟩ := (holdsAt_of_leaves rfl).mp h
    exact cold_warm_unlike ⟨t, holdsAt_single.mp hcold, holdsAt_single.mp hwarm⟩

end Network

end WorstCase
