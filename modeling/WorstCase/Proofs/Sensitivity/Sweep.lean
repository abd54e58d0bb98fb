import Mathlib.Data.List.Forall2
import Mathlib.Data.List.Perm.Basic
import WorstCase.Proofs.Evaluation.Locality
import WorstCase.Proofs.Evaluation.Success
import WorstCase.Proofs.Ledger
import WorstCase.Scalar.Exact
import WorstCase.Sensitivity

/-!
# What a sweep finds

Every entry of a sweep stands for an evaluation of its own: that of the target in the environment with
one variable changed and nothing else (`VariedTolerance`). A sweep does not make these environments. It
has one, in which it varies the variables in turn, so what an entry was computed in might depend on the
entries before it. It does not, for two reasons. While a variable is varied, its earlier variations are
overwritten by the next (`sweepRow_restores`); and when its row is done it gets its own value back, so
that every row starts from the environment of the first (`sweepRows_eq_ok`).

A sweep therefore succeeds exactly when all these evaluations do, and its table lists them
(`sweep_refines`).
-/

namespace WorstCase

variable {S : Type} [Scalar S] {env : Environment S} {target : Expr S} {tolerances : List S}

/-- **The tolerance of the target where one variable has another tolerance.** Nothing else in the
environment is changed. -/
def VariedTolerance (env : Environment S) (target : Expr S) (name : String) (q : Quantity S)
    (tolerance : S) (entry : Option S) : Prop :=
  ∃ varied changed outcome, q.withTolerance tolerance = .ok varied
    ∧ env.ChangedAt name varied changed ∧ target.eval changed = .ok outcome
    ∧ entry = outcome.tolerance

/-- The changed environment is the one with the varied quantity entered. -/
theorem variedTolerance_iff {name : String} {q : Quantity S} {tolerance : S} {entry : Option S}
    (hname : name ∈ env.names) :
    VariedTolerance env target name q tolerance entry
      ↔ ∃ varied outcome, q.withTolerance tolerance = .ok varied
        ∧ target.eval (env.assign name varied) = .ok outcome ∧ entry = outcome.tolerance := by
  constructor
  · rintro ⟨varied, changed, outcome, hvaried, hchanged, houtcome, hentry⟩
    rw [(Ledger.changedAt_iff hname).mp hchanged] at houtcome
    exact ⟨varied, outcome, hvaried, houtcome, hentry⟩
  · rintro ⟨varied, outcome, hvaried, houtcome, hentry⟩
    exact ⟨varied, _, outcome, hvaried, (Ledger.changedAt_iff hname).mpr rfl, houtcome, hentry⟩

/-! ## One row -/

section Row

variable {name : String} {q : Quantity S} {current after : Environment S} {row : List (Option S)}

/-- The first step of a row. -/
theorem sweepRow_cons_eq_ok {tolerance : S} {rest : List S} :
    sweepRow target name q current (tolerance :: rest) = .ok (row, after)
      ↔ ∃ varied outcome more, q.withTolerance tolerance = .ok varied
        ∧ target.eval (current.assign name varied) = .ok outcome
        ∧ sweepRow target name q (current.assign name varied) rest = .ok (more, after)
        ∧ row = outcome.tolerance :: more := by
  rw [sweepRow]
  constructor
  · intro h
    obtain ⟨varied, hvaried, h⟩ := Except.bind_eq_ok.mp h
    obtain ⟨outcome, houtcome, h⟩ := Except.bind_eq_ok.mp h
    obtain ⟨⟨more, last⟩, hmore, h⟩ := Except.bind_eq_ok.mp h
    cases h
    exact ⟨varied, outcome, more, metAt_eq_ok.mp hvaried, houtcome, hmore, rfl⟩
  · rintro ⟨varied, outcome, more, hvaried, houtcome, hmore, rfl⟩
    refine Except.bind_eq_ok.mpr ⟨varied, metAt_eq_ok.mpr hvaried, ?_⟩
    refine Except.bind_eq_ok.mpr ⟨outcome, houtcome, ?_⟩
    exact Except.bind_eq_ok.mpr ⟨(more, after), hmore, rfl⟩

/-- **A row changes one variable only**: what is entered under its name afterwards makes up for all
that the row entered there. -/
theorem sweepRow_restores (h : sweepRow target name q current tolerances = .ok (row, after))
    (value : Quantity S) : after.assign name value = current.assign name value := by
  induction tolerances generalizing current row with
  | nil =>
    cases h
    rfl
  | cons tolerance rest ih =>
    obtain ⟨varied, outcome, more, -, -, hmore, -⟩ := sweepRow_cons_eq_ok.mp h
    rw [ih hmore, Ledger.assign_assign]

/-- **A row is found entry by entry.** It may start from any environment that differs in its variable
alone. -/
theorem sweepRow_eq_ok (hname : name ∈ env.names)
    (hcurrent : ∀ value, current.assign name value = env.assign name value) :
    (∃ after, sweepRow target name q current tolerances = .ok (row, after))
      ↔ List.Forall₂ (VariedTolerance env target name q) tolerances row := by
  induction tolerances generalizing current row with
  | nil =>
    rw [List.forall₂_nil_left_iff]
    constructor
    · rintro ⟨after, h⟩
      cases h
      rfl
    · rintro rfl
      exact ⟨current, rfl⟩
  | cons tolerance rest ih =>
    have hnext : ∀ varied value, (current.assign name varied).assign name value
        = env.assign name value := by
      intro varied value
      rw [Ledger.assign_assign, hcurrent]
    rw [List.forall₂_cons_left_iff]
    constructor
    · rintro ⟨after, h⟩
      obtain ⟨varied, outcome, more, hvaried, houtcome, hmore, rfl⟩ := sweepRow_cons_eq_ok.mp h
      rw [hcurrent] at houtcome
      exact ⟨_, more, (variedTolerance_iff hname).mpr ⟨varied, outcome, hvaried, houtcome, rfl⟩,
        (ih (hnext varied)).mp ⟨after, hmore⟩, rfl⟩
    · rintro ⟨entry, more, hentry, hmore, rfl⟩
      obtain ⟨varied, outcome, hvaried, houtcome, rfl⟩ := (variedTolerance_iff hname).mp hentry
      obtain ⟨after, hafter⟩ := (ih (hnext varied)).mpr hmore
      rw [← hcurrent] at houtcome
      exact ⟨after, sweepRow_cons_eq_ok.mpr
        ⟨varied, outcome, more, hvaried, houtcome, hafter, rfl⟩⟩

end Row

/-! ## All rows -/

/-- **A row of the table**, for an entry of the environment. -/
def RowFor (env : Environment S) (target : Expr S) (tolerances : List S)
    (entry : String × Quantity S) (row : String × List (Option S)) : Prop :=
  row.1 = entry.1 ∧ List.Forall₂ (VariedTolerance env target entry.1 entry.2) tolerances row.2

/-- **All rows are found in the same environment**, that of the first. -/
theorem sweepRows_eq_ok {entries : List (String × Quantity S)} {rows table : Ledger (List (Option S))}
    (hentries : ∀ entry ∈ entries, env.get? entry.1 = some entry.2)
    (hnames : (rows.names ++ entries.map Prod.fst).Nodup) :
    sweepRows tolerances target env rows entries = .ok table
      ↔ ∃ more, List.Forall₂ (RowFor env target tolerances) entries more
        ∧ table.entries = rows.entries ++ more := by
  induction entries generalizing rows with
  | nil =>
    simp only [sweepRows, List.forall₂_nil_left_iff, exists_eq_left, List.append_nil,
      Except.ok.injEq, Ledger.ext_iff]
    exact eq_comm
  | cons entry rest ih =>
    obtain ⟨name, q⟩ := entry
    obtain ⟨hq, hrest⟩ := List.forall_mem_cons.mp hentries
    have hname : name ∈ env.names := Ledger.mem_names_iff.mpr ⟨q, hq⟩
    have hnew : name ∉ rows.names := fun h =>
      (List.nodup_append.mp hnames).2.2 name h name List.mem_cons_self rfl
    have hgrown : ∀ row, ((rows.assign name row).names ++ rest.map Prod.fst).Nodup := by
      intro row
      rw [Ledger.names_assign, if_neg hnew, List.append_assoc]
      exact hnames
    -- the variable has its own value back, so the environment is what it was
    have hback : ∀ {row after}, sweepRow target name q env tolerances = .ok (row, after) →
        after.assign name q = env := by
      intro row after h
      rw [sweepRow_restores h, Ledger.assign_get? hq]
    rw [sweepRows]
    constructor
    · intro h
      obtain ⟨⟨row, after⟩, hrow, h⟩ := Except.bind_eq_ok.mp h
      change sweepRows tolerances target (after.assign name q) (rows.assign name row) rest
        = .ok table at h
      rw [hback hrow] at h
      obtain ⟨more, hmore, htable⟩ := (ih hrest (hgrown row)).mp h
      rw [Ledger.entries_assign_of_not_mem hnew, List.append_assoc] at htable
      refine ⟨(name, row) :: more, .cons ⟨rfl, ?_⟩ hmore, htable⟩
      exact (sweepRow_eq_ok hname fun _ => rfl).mp ⟨after, hrow⟩
    · rintro ⟨all, hall, htable⟩
      obtain ⟨⟨first, row⟩, more, ⟨hfirst, hrow⟩, hmore, rfl⟩ :=
        List.forall₂_cons_left_iff.mp hall
      change first = name at hfirst
      subst hfirst
      obtain ⟨after, hafter⟩ := (sweepRow_eq_ok hname fun _ => rfl).mpr hrow
      refine Except.bind_eq_ok.mpr ⟨(row, after), hafter, ?_⟩
      show sweepRows tolerances target (after.assign first q) (rows.assign first row) rest
        = .ok table
      rw [hback hafter]
      refine (ih hrest (hgrown row)).mpr ⟨more, hmore, ?_⟩
      rw [Ledger.entries_assign_of_not_mem hnew, List.append_assoc]
      exact htable

/-- **A sweep** has a table when the target has an outcome as things are and every row can be found;
the table is the rows, in the order of the environment. -/
theorem sweep_eq_ok {table : SensitivityTable S} :
    sweep env tolerances target = .ok table
      ↔ (∃ outcome, target.eval env = .ok outcome) ∧ table.tolerances = tolerances
        ∧ List.Forall₂ (RowFor env target tolerances) env.entries table.rows.entries := by
  have hentries : ∀ entry ∈ env.entries, env.get? entry.1 = some entry.2 :=
    fun entry hentry => Ledger.get?_eq_some_iff.mpr hentry
  have hrows : ∀ {rows : Ledger (List (Option S))},
      sweepRows tolerances target env .empty env.entries = .ok rows
        ↔ List.Forall₂ (RowFor env target tolerances) env.entries rows.entries := by
    intro rows
    have hnames : ((Ledger.empty : Ledger (List (Option S))).names
        ++ env.entries.map Prod.fst).Nodup := env.nodup
    rw [sweepRows_eq_ok hentries hnames]
    constructor
    · rintro ⟨more, hmore, htable⟩
      exact htable ▸ hmore
    · intro h
      exact ⟨rows.entries, h, rfl⟩
  rw [sweep]
  constructor
  · intro h
    obtain ⟨outcome, houtcome, h⟩ := Except.bind_eq_ok.mp h
    obtain ⟨rows, hfound, h⟩ := Except.bind_eq_ok.mp h
    cases h
    exact ⟨⟨outcome, houtcome⟩, rfl, hrows.mp hfound⟩
  · obtain ⟨ladder, rows⟩ := table
    rintro ⟨⟨outcome, houtcome⟩, rfl, h⟩
    refine Except.bind_eq_ok.mpr ⟨outcome, houtcome, ?_⟩
    exact Except.bind_eq_ok.mpr ⟨rows, hrows.mpr h, rfl⟩

/-! ## What follows for the table -/

/-- All elements have a related one when a whole list of these does. -/
theorem exists_forall₂_iff {α β : Type} {R : α → β → Prop} {l : List α} :
    (∃ m, List.Forall₂ R l m) ↔ ∀ a ∈ l, ∃ b, R a b := by
  induction l with
  | nil => exact iff_of_true ⟨[], .nil⟩ fun a ha => (nomatch ha)
  | cons a l ih =>
    rw [List.forall_mem_cons, ← ih]
    constructor
    · rintro ⟨m, h⟩
      obtain ⟨b, rest, hb, hrest, rfl⟩ := List.forall₂_cons_left_iff.mp h
      exact ⟨⟨b, hb⟩, rest, hrest⟩
    · rintro ⟨⟨b, hb⟩, rest, hrest⟩
      exact ⟨b :: rest, .cons hb hrest⟩

section Table

variable {table : SensitivityTable S} {name : String} {q : Quantity S} {row : List (Option S)}

/-- The rows of a table are named as the environment is. -/
theorem names_eq_of_rowFor {entries : List (String × Quantity S)}
    {rows : List (String × List (Option S))}
    (h : List.Forall₂ (RowFor env target tolerances) entries rows) :
    rows.map Prod.fst = entries.map Prod.fst := by
  induction h with
  | nil => rfl
  | cons hrow _ ih => exact congrArg₂ List.cons hrow.1 ih

/-- The row of a variable is the one for its entry. -/
theorem row_of_get? (h : List.Forall₂ (RowFor env target tolerances) env.entries table.rows.entries)
    (hq : env.get? name = some q) (hrow : table.rows.get? name = some row) :
    List.Forall₂ (VariedTolerance env target name q) tolerances row := by
  rw [Ledger.get?_eq_some_iff] at hq
  obtain ⟨i, hi, hentry⟩ := List.mem_iff_getElem.mp hq
  obtain ⟨hlength, hget⟩ := List.forall₂_iff_get.mp h
  have hat := hget i hi (hlength ▸ hi)
  change RowFor env target tolerances env.entries[i] table.rows.entries[i] at hat
  rw [hentry] at hat
  -- there is only one row of that name
  have hmem : (name, table.rows.entries[i].2) ∈ table.rows.entries := by
    have hname : table.rows.entries[i].1 = name := hat.1
    rw [← hname]
    exact List.getElem_mem _
  rw [← Ledger.get?_eq_some_iff, hrow] at hmem
  exact Option.some.inj hmem ▸ hat.2

/-- **A variable that does not occur changes nothing**: its row repeats the tolerance that the target
has as things are. -/
theorem row_of_not_mem {outcome : Outcome S} (hname : name ∉ target.names)
    (houtcome : target.eval env = .ok outcome)
    (h : List.Forall₂ (VariedTolerance env target name q) tolerances row) :
    row = tolerances.map fun _ => outcome.tolerance := by
  induction h with
  | nil => rfl
  | cons hentry _ ih =>
    obtain ⟨varied, changed, found, -, hchanged, hfound, rfl⟩ := hentry
    have hsame : target.eval changed = target.eval env := by
      refine Expr.eval_congr fun other hother => hchanged.elsewhere other ?_
      rintro rfl
      exact hname hother
    rw [hsame, houtcome] at hfound
    cases hfound
    rw [ih, List.map_cons]

/-- The order of the environment is no concern of an entry. -/
theorem variedTolerance_of_perm {reordered : Environment S} {tolerance : S} {entry : Option S}
    (hperm : reordered.entries.Perm env.entries) (hname : name ∈ env.names)
    (h : VariedTolerance env target name q tolerance entry) :
    VariedTolerance reordered target name q tolerance entry := by
  have hnames : reordered.names.Perm env.names := hperm.map Prod.fst
  obtain ⟨varied, outcome, hvaried, houtcome, hentry⟩ := (variedTolerance_iff hname).mp h
  refine (variedTolerance_iff (hnames.mem_iff.mpr hname)).mpr
    ⟨varied, outcome, hvaried, ?_, hentry⟩
  rw [← houtcome]
  refine Expr.eval_congr fun other _ => ?_
  rw [Ledger.get?_assign, Ledger.get?_assign, Ledger.get?_of_perm hperm]

/-- **The order of the environment is the order of the rows**, and nothing else depends on it. -/
theorem sweep_of_perm {reordered : Environment S} (hperm : reordered.entries.Perm env.entries)
    (h : sweep env tolerances target = .ok table) :
    ∃ rows, sweep reordered tolerances target = .ok ⟨tolerances, rows⟩
      ∧ rows.entries.Perm table.rows.entries := by
  obtain ⟨⟨outcome, houtcome⟩, -, hrows⟩ := sweep_eq_ok.mp h
  obtain ⟨rows, hfound, hrowsPerm⟩ := List.perm_comp_forall₂ hperm hrows
  have hrowsNodup : (rows.map Prod.fst).Nodup :=
    (hrowsPerm.map Prod.fst).nodup_iff.mpr table.rows.nodup
  refine ⟨⟨rows, hrowsNodup⟩, sweep_eq_ok.mpr ⟨⟨outcome, ?_⟩, rfl, ?_⟩, hrowsPerm⟩
  · rw [← houtcome]
    exact Expr.eval_congr fun other _ => Ledger.get?_of_perm hperm other
  · refine List.Forall₂.imp ?_ ((List.forall₂_and_left (p := (· ∈ env.entries)) _ _).mpr
      ⟨fun entry hentry => hperm.mem_iff.mp hentry, hfound⟩)
    rintro entry row ⟨hentry, hrow⟩
    have hname : entry.1 ∈ env.names := List.mem_map.mpr ⟨entry, hentry, rfl⟩
    exact ⟨hrow.1, hrow.2.imp fun _ _ => variedTolerance_of_perm hperm hname⟩

end Table

/-- **A sweep finds what the evaluations of single variations find.** It has a table exactly when the
target has an outcome as things are, every variable can take every tolerance of the ladder, and the
target has an outcome in each environment that differs in one variable having one of these. The table
has a row for every variable, in the order of the environment, and a row has the tolerances of these
outcomes, in the order of the ladder. So a variable that does not occur in the target has a row that
repeats the tolerance of the target as it is, and another order of the variables is another order of
the rows. -/
theorem sweep_refines (env : Environment S) (tolerances : List S) (target : Expr S) :
    ((∃ table, sweep env tolerances target = .ok table)
      ↔ (∃ outcome, target.eval env = .ok outcome)
        ∧ ∀ name q, env.get? name = some q → ∀ tolerance ∈ tolerances,
          ∃ entry, VariedTolerance env target name q tolerance entry)
    ∧ ∀ table, sweep env tolerances target = .ok table →
      table.tolerances = tolerances
      ∧ table.rows.names = env.names
      ∧ (∀ name q row, env.get? name = some q → table.rows.get? name = some row →
        List.Forall₂ (VariedTolerance env target name q) tolerances row)
      ∧ (∀ name outcome row, name ∉ target.names → target.eval env = .ok outcome →
        table.rows.get? name = some row → row = tolerances.map fun _ => outcome.tolerance)
      ∧ ∀ reordered : Environment S, reordered.entries.Perm env.entries →
        ∃ rows, sweep reordered tolerances target = .ok ⟨tolerances, rows⟩
          ∧ rows.names = reordered.names ∧ rows.entries.Perm table.rows.entries := by
  constructor
  · constructor
    · rintro ⟨table, h⟩
      obtain ⟨houtcome, -, hrows⟩ := sweep_eq_ok.mp h
      refine ⟨houtcome, fun name q hq => ?_⟩
      have hname : name ∈ table.rows.names := by
        rw [show table.rows.names = env.names from names_eq_of_rowFor hrows]
        exact Ledger.mem_names_iff.mpr ⟨q, hq⟩
      obtain ⟨row, hrow⟩ := Ledger.mem_names_iff.mp hname
      exact exists_forall₂_iff.mp ⟨row, row_of_get? hrows hq hrow⟩
    · rintro ⟨houtcome, hall⟩
      have hrows : ∃ rows, List.Forall₂ (RowFor env target tolerances) env.entries rows := by
        refine exists_forall₂_iff.mpr fun entry hentry => ?_
        have hq := Ledger.get?_eq_some_iff.mpr hentry
        obtain ⟨row, hrow⟩ := exists_forall₂_iff.mpr (hall entry.1 entry.2 hq)
        exact ⟨(entry.1, row), rfl, hrow⟩
      obtain ⟨rows, hrows⟩ := hrows
      have hnodup : (rows.map Prod.fst).Nodup := names_eq_of_rowFor hrows ▸ env.nodup
      exact ⟨⟨tolerances, rows, hnodup⟩, sweep_eq_ok.mpr ⟨houtcome, rfl, hrows⟩⟩
  · intro table h
    obtain ⟨-, htolerances, hrows⟩ := sweep_eq_ok.mp h
    have hnames : table.rows.names = env.names := names_eq_of_rowFor hrows
    refine ⟨htolerances, hnames, fun name q row hq hrow => row_of_get? hrows hq hrow,
      fun name outcome row hname houtcome hrow => ?_, fun reordered hperm => ?_⟩
    · have hmem : name ∈ env.names := hnames ▸ Ledger.mem_names_iff.mpr ⟨row, hrow⟩
      obtain ⟨q, hq⟩ := Ledger.mem_names_iff.mp hmem
      exact row_of_not_mem hname houtcome (row_of_get? hrows hq hrow)
    · obtain ⟨rows, hsweep, hrowsPerm⟩ := sweep_of_perm hperm h
      obtain ⟨-, -, hfound⟩ := sweep_eq_ok.mp hsweep
      exact ⟨rows, hsweep, names_eq_of_rowFor hfound, hrowsPerm⟩

/-! ### Two resistors in series, and a supply

Two resistances of 1000 Ω ± 5 % are added up. The voltage of a supply, 2 V ± 20 %, has no part in
it. -/

/-- The resistance that `a` and `b` both stand for. -/
def resistor : Quantity Rat :=
  .resistance ⟨⟨1000, some (1 / 20), ⟨950, 1050⟩⟩, none, 1000, .celsius 20⟩

/-- The voltage that `u` stands for. -/
def supply : Quantity Rat :=
  .plain .voltage ⟨2, some (1 / 5), ⟨8 / 5, 12 / 5⟩⟩ (by decide)

/-- The two resistances and the voltage. -/
def circuit : Environment Rat :=
  ⟨[("a", resistor), ("b", resistor), ("u", supply)], by decide⟩

/-- The sum `a + b`, with all nodes at the start. -/
def inSeries : Expr Rat :=
  let extent : Extent := ⟨⟨.start, .start⟩, ⟨.start, .start⟩⟩
  .binary extent ⟨.add, extent⟩ (.var extent "a") (.var extent "b")

/-- With 1 % and 10 % for one resistance and 5 % for the other, the sum has 3 % and 7.5 %; the voltage
leaves it at 5 %. -/
theorem sweep_refines_inSeries :
    sweep circuit [1 / 100, 1 / 10] inSeries = .ok ⟨[1 / 100, 1 / 10],
        [("a", [some (3 / 100), some (3 / 40)]), ("b", [some (3 / 100), some (3 / 40)]),
          ("u", [some (1 / 20), some (1 / 20)])], by decide⟩
      ∧ List.Forall₂ (VariedTolerance circuit inSeries "a" resistor) [1 / 100, 1 / 10]
        [some (3 / 100), some (3 / 40)]
      ∧ "u" ∉ inSeries.names := by
  have hsweep : sweep circuit [1 / 100, 1 / 10] inSeries = .ok ⟨[1 / 100, 1 / 10],
      [("a", [some (3 / 100), some (3 / 40)]), ("b", [some (3 / 100), some (3 / 40)]),
        ("u", [some (1 / 20), some (1 / 20)])], by decide⟩ := by decide +kernel
  obtain ⟨-, htable⟩ := sweep_refines circuit [1 / 100, 1 / 10] inSeries
  obtain ⟨-, -, hrows, -⟩ := htable _ hsweep
  exact ⟨hsweep, hrows "a" _ _ rfl rfl, by decide⟩

end WorstCase
