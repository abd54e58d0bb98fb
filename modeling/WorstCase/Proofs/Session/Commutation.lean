import Mathlib.Control.Monad.Basic
import WorstCase.Proofs.Evaluation.Locality
import WorstCase.Proofs.Session.History

/-!
# Lines that may change places

What a line comes to depends on the settings and on the variables in it. So a
line cannot tell sessions apart that agree on these (`Session.AlikeFor`): it
comes to the same result in either, and whether it assigns a quantity, and
which, is the same too.

An assignment, in turn, changes what its name stands for and nothing else
(`Session.get?_step_of_ne`). Two assignments to different names, neither of
which reads what the other assigns, are therefore out of each other's sight. In
what order they are executed shows at most in the order of the names, which a
session keeps as they were first entered.
-/

namespace WorstCase

/-- The value to assign depends on the variables that occur. -/
theorem Expr.evalFor_congr {S : Type} [Scalar S] {env other : Environment S} {e : Expr S}
    (h : ∀ name ∈ e.names, other.get? name = env.get? name) (name : String) :
    e.evalFor other name = e.evalFor env name := by
  rw [evalFor, evalFor, eval_congr h]

/-- The variables that a statement reads. The name it assigns to is not one. -/
def Statement.reads {S : Type} : Statement S → List String
  | .assign _ _ value => value.names
  | .expression value => value.names

namespace Session

variable {s t : Session} {line first second : List Char} {name x y : String}
  {v w : Expr Binary64} {q : Quantity Binary64}

/-! ## What a line depends on -/

/-- **Two sessions that a line cannot tell apart**: they are set to the same,
and agree on the variables that the line reads. -/
structure AlikeFor (line : List Char) (s t : Session) : Prop where
  settings : t.settings = s.settings
  reads : ∀ statement, parseStatement s.settings.dialect line = .ok statement →
    ∀ name ∈ statement.reads, t.environment.get? name = s.environment.get? name

theorem AlikeFor.symm (h : AlikeFor line s t) : AlikeFor line t s where
  settings := h.settings.symm
  reads statement hparse name hname :=
    (h.reads statement (h.settings ▸ hparse) name hname).symm

/-- **The line comes to the same result.** -/
theorem AlikeFor.result (h : AlikeFor line s t) : (t.execute line).1 = (s.execute line).1 := by
  unfold execute
  dsimp only
  split
  · rfl
  · split
    · rfl
    · rw [h.settings]
      cases hparse : parseStatement s.settings.dialect line with
      | error e => rfl
      | ok statement =>
        have hreads := h.reads statement hparse
        cases statement with
        | assign extent node value =>
          dsimp only [perform]
          rw [Expr.evalFor_congr hreads, h.settings]
          split <;> rfl
        | expression value =>
          dsimp only [perform]
          rw [Expr.eval_congr hreads, h.settings]
          split <;> rfl

/-- **The line assigns the same.** -/
theorem AlikeFor.assigns (h : AlikeFor line s t) (hassigns : s.Assigns line name q) :
    t.Assigns line name q := by
  obtain ⟨extent, node, value, hparse, hname, hvalue⟩ := hassigns.value
  refine ⟨hassigns.not_blank, hassigns.not_comment, hassigns.not_exit, extent, node, value,
    ?_, hname, ?_⟩
  · rw [h.settings]
    exact hparse
  · rw [Expr.eval_congr (h.reads _ hparse)]
    exact hvalue

/-- After the line, sessions that agree on a name still do. -/
theorem AlikeFor.get?_step (h : AlikeFor line s t)
    (hname : t.environment.get? name = s.environment.get? name) :
    (t.step line).environment.get? name = (s.step line).environment.get? name := by
  rcases s.idle_or_assigns line with hidle | ⟨other, q, hassigns⟩
  · rcases t.idle_or_assigns line with hidle' | ⟨other, q, hassigns⟩
    · rw [step_of_idle hidle, step_of_idle hidle']
      exact hname
    · exact absurd (h.symm.assigns hassigns) hidle.not_assigns
  · rw [step_of_assigns hassigns, step_of_assigns (h.assigns hassigns), Ledger.get?_assign,
      Ledger.get?_assign, hname]

/-! ## Assignments -/

/-- **The name that a line assigns to, and the expression it assigns**, if it is
an assignment. -/
def assignment? (s : Session) (line : List Char) : Option (String × Expr Binary64) :=
  match parseStatement s.settings.dialect line with
  | .ok (.assign _ name value) => some (name.value, value)
  | _ => none

theorem assignment?_eq_some : s.assignment? line = some (x, v)
      ↔ ∃ extent node, parseStatement s.settings.dialect line = .ok (.assign extent node v)
        ∧ node.value = x := by
  unfold assignment?
  constructor
  · intro h
    split at h
    · rename_i extent node value hparse
      cases h
      exact ⟨extent, node, hparse, rfl⟩
    · cases h
  · rintro ⟨extent, node, hparse, rfl⟩
    rw [hparse]

/-- What a line reads as depends on the settings only. -/
theorem assignment?_step (s : Session) (first second : List Char) :
    (s.step first).assignment? second = s.assignment? second := by
  rw [assignment?, settings_step, assignment?]

/-- **An assignment changes its name only**, if it changes anything. -/
theorem get?_step_of_ne (h : s.assignment? line = some (x, v)) (hname : name ≠ x) :
    (s.step line).environment.get? name = s.environment.get? name := by
  rcases s.idle_or_assigns line with hidle | ⟨other, q, hassigns⟩
  · rw [step_of_idle hidle]
  · obtain ⟨extent, node, hparse, rfl⟩ := assignment?_eq_some.mp h
    obtain ⟨_, _, _, hparse', rfl, -⟩ := hassigns.value
    cases hparse.symm.trans hparse'
    rw [step_of_assigns hassigns, Ledger.get?_assign, if_neg hname]

/-- An assignment does not notice one to a name that it does not read. -/
theorem alikeFor_step (hfirst : s.assignment? first = some (x, v))
    (hsecond : s.assignment? second = some (y, w)) (hy : y ∉ v.names) :
    AlikeFor first s (s.step second) where
  settings := settings_step s second
  reads statement hparse name hname := by
    obtain ⟨extent, node, hassign, -⟩ := assignment?_eq_some.mp hfirst
    cases hassign.symm.trans hparse
    exact get?_step_of_ne hsecond fun h => hy (h ▸ hname)

/-- What the second of two lines does not assign to has the same value in either
order. -/
theorem get?_after_of_ne (hfirst : s.assignment? first = some (x, v))
    (hsecond : s.assignment? second = some (y, w)) (hy : y ∉ v.names) (hname : name ≠ y) :
    (s.after [first, second]).environment.get? name
      = (s.after [second, first]).environment.get? name := by
  have halike : AlikeFor first s (s.step second) := alikeFor_step hfirst hsecond hy
  have hbefore : (s.step second).environment.get? name = s.environment.get? name :=
    get?_step_of_ne hsecond hname
  calc ((s.step first).step second).environment.get? name
      = (s.step first).environment.get? name :=
        get?_step_of_ne ((assignment?_step s first second).trans hsecond) hname
    _ = ((s.step second).step first).environment.get? name := (halike.get?_step hbefore).symm

/-- **Independent lines commute.** An expression has the same outcome, or the
same error at the same place, in environments that agree on its variables. In
any session, two lines that assign to different names, and neither of which
reads the name that the other assigns to, come to the same results in either
order, and leave every name with the same value. -/
theorem independent_lines_commute :
    (∀ (env other : Environment Binary64) (e : Expr Binary64),
      (∀ name ∈ e.names, other.get? name = env.get? name) → e.eval other = e.eval env)
    ∧ ∀ (s : Session) (first second : List Char) (x y : String) (v w : Expr Binary64),
      s.assignment? first = some (x, v) → s.assignment? second = some (y, w) →
      x ≠ y → x ∉ w.names → y ∉ v.names →
        (s.execute first).1 = ((s.step second).execute first).1
        ∧ ((s.step first).execute second).1 = (s.execute second).1
        ∧ ∀ name, (s.after [first, second]).environment.get? name
          = (s.after [second, first]).environment.get? name := by
  refine ⟨fun env other e h => Expr.eval_congr h, ?_⟩
  intro s first second x y v w hfirst hsecond hne hx hy
  refine ⟨(alikeFor_step hfirst hsecond hy).result.symm, (alikeFor_step hsecond hfirst hx).result,
    fun name => ?_⟩
  by_cases hname : name = y
  · have hname' : name ≠ x := fun h => hne (h.symm.trans hname)
    exact (get?_after_of_ne hsecond hfirst hx hname').symm
  · exact get?_after_of_ne hfirst hsecond hy hname

/-- A known name and a new one, both assigned from a third. -/
theorem independent_lines_commute_known :
    let s := ({} : Session).after (["a = 1k", "c = 2k 5%"].map String.toList)
    let first := "a = c | c".toList
    let second := "b = c + 3k".toList
    (s.execute first).1 = ((s.step second).execute first).1
      ∧ ((s.step first).execute second).1 = (s.execute second).1
      ∧ (∀ name, (s.after [first, second]).environment.get? name
        = (s.after [second, first]).environment.get? name)
      ∧ ∃ w, s.assignment? second = some ("b", w)
        ∧ w.eval (s.step first).environment = w.eval s.environment := by
  intro s first second
  have hfirst : (s.assignment? first).map (fun a => (a.1, a.2.names))
      = some ("a", ["c", "c"]) := by decide +kernel
  have hsecond : (s.assignment? second).map (fun a => (a.1, a.2.names))
      = some ("b", ["c"]) := by decide +kernel
  obtain ⟨⟨x, v⟩, hfirst, hv⟩ := Option.map_eq_some_iff.mp hfirst
  obtain ⟨⟨y, w⟩, hsecond, hw⟩ := Option.map_eq_some_iff.mp hsecond
  obtain ⟨rfl, hv⟩ := Prod.mk.inj hv
  obtain ⟨rfl, hw⟩ := Prod.mk.inj hw
  dsimp only at hv hw
  have hx : "a" ∉ w.names := by rw [hw]; decide
  have hy : "b" ∉ v.names := by rw [hv]; decide
  obtain ⟨hlocal, hcommute⟩ := independent_lines_commute
  obtain ⟨hresult, hresult', hvalues⟩ :=
    hcommute s first second "a" "b" v w hfirst hsecond (by decide) hx hy
  refine ⟨hresult, hresult', hvalues, w, hsecond, hlocal _ _ w fun name hname => ?_⟩
  exact get?_step_of_ne hfirst fun h => hx (h ▸ hname)

end Session

end WorstCase
