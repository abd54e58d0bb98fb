import Mathlib.Data.List.Nodup
import WorstCase.Proofs.Sensitivity.Sweep
import WorstCase.Session

/-!
# Which variable is named

The variable that a sweep names is the one whose row ends highest: no other row ends above it, and the
rows that end as high stand before it (`outranks_of_mostSensitive`).

What a row ends with is the tolerance of the *target*, not a change of it. For a variable that does not
occur in the target this is the tolerance that the target has anyway (`effectOf_of_not_mem`), and where
that is above all that the ladder can bring about, the variable named has no effect at all. The named
variable occurs in the target exactly if one that does outranks all that do not
(`mostSensitive_occurs_iff`).
-/

namespace WorstCase

/-! ## The total order of numbers -/

namespace Binary64

variable {x y z : Binary64}

theorem totalLessOrEqual_total : totalLessOrEqual x y ∨ totalLessOrEqual y x := by
  cases x with
  | nan => cases y <;> simp [totalLessOrEqual]
  | signed n r hr =>
    cases y with
    | nan => exact .inl rfl
    | signed m s hs =>
      simp only [totalLessOrEqual, Bool.or_eq_true, Bool.and_eq_true, decide_eq_true_eq, beq_iff_eq]
      rcases lt_trichotomy (place n r) (place m s) with h | h | h
      · exact .inl (.inl h)
      · cases n with
        | true => exact .inl (.inr ⟨h, .inl rfl⟩)
        | false => exact .inr (.inr ⟨h.symm, .inr rfl⟩)
      · exact .inr (.inl h)

theorem totalLessOrEqual_trans (hxy : totalLessOrEqual x y) (hyz : totalLessOrEqual y z) :
    totalLessOrEqual x z := by
  cases z with
  | nan => cases x <;> rfl
  | signed k t ht =>
    cases y with
    | nan => cases hyz
    | signed m s hs =>
      cases x with
      | nan => cases hxy
      | signed n r hr =>
        simp only [totalLessOrEqual, Bool.or_eq_true, Bool.and_eq_true, decide_eq_true_eq,
          beq_iff_eq] at hxy hyz ⊢
        rcases hxy with hxy | ⟨hxy, hn⟩
        · rcases hyz with hyz | ⟨hyz, -⟩
          · exact .inl (hxy.trans hyz)
          · exact .inl (hyz ▸ hxy)
        · rcases hyz with hyz | ⟨hyz, hm⟩
          · exact .inl (hxy ▸ hyz)
          · refine .inr ⟨hxy.trans hyz, ?_⟩
            revert hn hm
            cases n <;> cases m <;> simp

theorem totalLessOrEqual_antisymm (hxy : totalLessOrEqual x y) (hyx : totalLessOrEqual y x) :
    x = y := by
  cases x with
  | nan =>
    cases y with
    | nan => rfl
    | signed m s hs => cases hxy
  | signed n r hr =>
    cases y with
    | nan => cases hyx
    | signed m s hs =>
      simp only [totalLessOrEqual, Bool.or_eq_true, Bool.and_eq_true, decide_eq_true_eq,
        beq_iff_eq] at hxy hyx
      obtain ⟨hplace, hn⟩ := hxy.resolve_left fun h => by omega
      obtain ⟨-, hm⟩ := hyx.resolve_left fun h => by omega
      -- of two zeros the signs tell which is which
      have hsign : n = m := by
        revert hn hm
        cases n <;> cases m <;> simp
      subst hsign
      have hrank : r = s := by
        unfold place at hplace
        split at hplace <;> omega
      subst hrank
      rfl

end Binary64

namespace SensitivityTable

open Binary64 (totalLessOrEqual)

/-- **What the row of a variable ends with**, if it has a row and the row ends with a tolerance. -/
def effectOf (t : SensitivityTable Binary64) (name : String) : Option Binary64 :=
  (t.rows.get? name).bind effect

/-- **One row outranks another** if it ends higher, or as high and its name comes later. -/
def Outranks (names : List String) (row other : String × Binary64) : Prop :=
  ¬ totalLessOrEqual row.2 other.2
    ∨ row.2 = other.2 ∧ names.idxOf other.1 < names.idxOf row.1

namespace Outranks

variable {names : List String} {row other third : String × Binary64}

/-- Of two rows one only outranks the other. -/
theorem asymm (h : Outranks names row other) : ¬ Outranks names other row := by
  rcases h with hhigher | ⟨hlike, hlater⟩
  · rintro (hlower | ⟨hlike, -⟩)
    · exact Binary64.totalLessOrEqual_total.elim hhigher hlower
    · rw [hlike] at hhigher
      exact Binary64.totalLessOrEqual_total.elim hhigher hhigher
  · rintro (hlower | ⟨-, hearlier⟩)
    · rw [hlike] at hlower
      exact Binary64.totalLessOrEqual_total.elim hlower hlower
    · omega

theorem trans (h : Outranks names row other) (h' : Outranks names other third) :
    Outranks names row third := by
  rcases h with hhigher | ⟨hlike, hlater⟩
  · rcases h' with hhigher' | ⟨hlike', -⟩
    · refine .inl fun hle => hhigher (Binary64.totalLessOrEqual_trans hle ?_)
      exact Binary64.totalLessOrEqual_total.resolve_left hhigher'
    · exact .inl (hlike' ▸ hhigher)
  · rcases h' with hhigher' | ⟨hlike', hlater'⟩
    · exact .inl (hlike ▸ hhigher')
    · exact .inr ⟨hlike.trans hlike', hlater'.trans hlater⟩

end Outranks

/-- **One step of the ranking** keeps of two rows the one that outranks the other. -/
theorem stronger_some {names : List String} {leader next : String × Binary64}
    (hlater : names.idxOf leader.1 < names.idxOf next.1) :
    (stronger (some leader) next = some leader ∧ Outranks names leader next)
      ∨ (stronger (some leader) next = some next ∧ Outranks names next leader) := by
  rw [stronger]
  by_cases hle : totalLessOrEqual leader.2 next.2
  · right
    refine ⟨if_pos hle, ?_⟩
    by_cases hge : totalLessOrEqual next.2 leader.2
    · exact .inr ⟨Binary64.totalLessOrEqual_antisymm hge hle, hlater⟩
    · exact .inl hge
  · exact .inl ⟨if_neg hle, .inl hle⟩

/-- **The ranking leaves a row that outranks every other**, of rows in the order of the names. -/
theorem outranks_of_foldl {names : List String} {leader best : String × Binary64}
    {rows : List (String × Binary64)}
    (horder : (leader :: rows).Pairwise fun row later => names.idxOf row.1 < names.idxOf later.1)
    (h : rows.foldl stronger (some leader) = some best) :
    best ∈ leader :: rows ∧ ∀ row ∈ leader :: rows, row ≠ best → Outranks names best row := by
  induction rows generalizing leader with
  | nil =>
    cases h
    exact ⟨List.mem_cons_self, fun row hrow hne => absurd (List.mem_singleton.mp hrow) hne⟩
  | cons next rest ih =>
    obtain ⟨hleader, hrows⟩ := List.pairwise_cons.mp horder
    -- what the kept row outranks, the best row outranks too
    have hdropped : ∀ {kept dropped}, (kept ≠ best → Outranks names best kept) →
        Outranks names kept dropped → Outranks names best dropped := by
      intro kept dropped hkept hout
      by_cases hbest : kept = best
      · exact hbest ▸ hout
      · exact (hkept hbest).trans hout
    rw [List.foldl_cons] at h
    rcases stronger_some (hleader next List.mem_cons_self) with ⟨hstep, hout⟩ | ⟨hstep, hout⟩
    · rw [hstep] at h
      have horder' := List.pairwise_cons.mpr
        ⟨fun row hrow => hleader row (List.mem_cons_of_mem _ hrow), (List.pairwise_cons.mp hrows).2⟩
      obtain ⟨hmem, hall⟩ := ih horder' h
      obtain ⟨hall, hrest⟩ := List.forall_mem_cons.mp hall
      refine ⟨?_, List.forall_mem_cons.mpr ⟨hall, List.forall_mem_cons.mpr
        ⟨fun _ => hdropped hall hout, hrest⟩⟩⟩
      rcases List.mem_cons.mp hmem with hmem | hmem
      · exact hmem ▸ List.mem_cons_self
      · exact List.mem_cons_of_mem _ (List.mem_cons_of_mem _ hmem)
    · rw [hstep] at h
      obtain ⟨hmem, hall⟩ := ih hrows h
      exact ⟨List.mem_cons_of_mem _ hmem, List.forall_mem_cons.mpr
        ⟨fun _ => hdropped (hall next List.mem_cons_self) hout, hall⟩⟩

/-! ## The row that is named -/

variable {t : SensitivityTable Binary64} {name : String}

/-- The rows that end with a tolerance, with what they end with. -/
def ended (t : SensitivityTable Binary64) : List (String × Binary64) :=
  t.rows.entries.filterMap fun (name, row) => (effect row).map fun e => (name, e)

theorem mem_ended_iff {e : Binary64} : (name, e) ∈ t.ended ↔ t.effectOf name = some e := by
  rw [ended, effectOf, List.mem_filterMap, Option.bind_eq_some_iff]
  constructor
  · rintro ⟨⟨first, row⟩, hrow, h⟩
    obtain ⟨e', he, hsame⟩ := Option.map_eq_some_iff.mp h
    cases hsame
    exact ⟨row, Ledger.get?_eq_some_iff.mpr hrow, he⟩
  · rintro ⟨row, hrow, he⟩
    exact ⟨(name, row), Ledger.get?_eq_some_iff.mp hrow,
      Option.map_eq_some_iff.mpr ⟨e, he, rfl⟩⟩

theorem pairwise_ended (t : SensitivityTable Binary64) :
    t.ended.Pairwise fun row later => t.rows.names.idxOf row.1 < t.rows.names.idxOf later.1 := by
  have hnames : t.rows.names.Pairwise fun a b => t.rows.names.idxOf a < t.rows.names.idxOf b := by
    refine List.pairwise_iff_getElem.mpr fun i j hi hj hij => ?_
    rw [t.rows.nodup_names.idxOf_getElem, t.rows.nodup_names.idxOf_getElem]
    exact hij
  refine List.Pairwise.filterMap _ ?_ (List.pairwise_map.mp hnames)
  rintro ⟨a, row⟩ ⟨b, row'⟩ hab ended hended ended' hended'
  obtain ⟨e, -, rfl⟩ := Option.map_eq_some_iff.mp hended
  obtain ⟨e', -, rfl⟩ := Option.map_eq_some_iff.mp hended'
  exact hab

/-- **The named variable has the row that outranks all others.** -/
theorem outranks_of_mostSensitive (h : t.mostSensitive = some name) :
    ∃ e, t.effectOf name = some e
      ∧ ∀ other f, other ≠ name → t.effectOf other = some f →
        Outranks t.rows.names (name, e) (other, f) := by
  change (t.ended.foldl stronger none).map Prod.fst = some name at h
  obtain ⟨⟨first, e⟩, hbest, hname⟩ := Option.map_eq_some_iff.mp h
  change first = name at hname
  subst hname
  have horder := t.pairwise_ended
  have hmem := @mem_ended_iff t
  generalize t.ended = rows at hbest horder hmem
  cases rows with
  | nil => cases hbest
  | cons leader rows =>
    obtain ⟨hbest, hall⟩ := outranks_of_foldl horder hbest
    refine ⟨e, hmem.mp hbest, fun other f hother hf => ?_⟩
    exact hall (other, f) (hmem.mpr hf) fun same => hother (congrArg Prod.fst same)

/-- **A variable that does not occur in the target** has a row that ends with the tolerance of the
target as it is. -/
theorem effectOf_of_not_mem {env : Environment Binary64} {tolerances : List Binary64}
    {target : Expr Binary64} {outcome : Outcome Binary64} (htolerances : tolerances ≠ [])
    (hsweep : sweep env tolerances target = .ok t) (houtcome : target.eval env = .ok outcome)
    (hname : name ∈ env.names) (hunrelated : name ∉ target.names) :
    t.effectOf name = outcome.tolerance := by
  obtain ⟨-, -, hrows⟩ := sweep_eq_ok.mp hsweep
  have hnames : t.rows.names = env.names := names_eq_of_rowFor hrows
  obtain ⟨q, hq⟩ := Ledger.mem_names_iff.mp hname
  obtain ⟨row, hrow⟩ := Ledger.mem_names_iff.mp (hnames ▸ hname)
  have hsame := row_of_not_mem hunrelated houtcome (row_of_get? hrows hq hrow)
  have hlast : row.getLast? = some outcome.tolerance := by
    rw [hsame, List.getLast?_map, List.getLast?_eq_some_getLast htolerances]
    rfl
  rw [effectOf, hrow, Option.bind_some, effect, hlast, Option.join_some]

end SensitivityTable

/-- **The named variable occurs in the target** exactly if some variable that does outranks all that do
not. These all have the tolerance of the target as it is. -/
theorem mostSensitive_occurs_iff {env : Environment Binary64} {tolerances : List Binary64}
    {target : Expr Binary64} {table : SensitivityTable Binary64} {outcome : Outcome Binary64}
    {name : String} (htolerances : tolerances ≠ [])
    (hsweep : sweep env tolerances target = .ok table) (houtcome : target.eval env = .ok outcome)
    (hnamed : table.mostSensitive = some name) :
    name ∈ target.names ↔ ∃ related e, related ∈ target.names ∧ table.effectOf related = some e
      ∧ ∀ unrelated ∈ env.names, unrelated ∉ target.names → ∀ f, outcome.tolerance = some f →
        SensitivityTable.Outranks env.names (related, e) (unrelated, f) := by
  obtain ⟨-, -, hrows⟩ := sweep_eq_ok.mp hsweep
  have hnames : table.rows.names = env.names := names_eq_of_rowFor hrows
  obtain ⟨e, he, hall⟩ := SensitivityTable.outranks_of_mostSensitive hnamed
  rw [hnames] at hall
  have hanyway : ∀ other ∈ env.names, other ∉ target.names →
      table.effectOf other = outcome.tolerance := fun other hother hunrelated =>
    SensitivityTable.effectOf_of_not_mem htolerances hsweep houtcome hother hunrelated
  constructor
  · intro hoccurs
    refine ⟨name, e, hoccurs, he, fun other hother hunrelated f hf => ?_⟩
    refine hall other f ?_ ((hanyway other hother hunrelated).trans hf)
    rintro rfl
    exact hunrelated hoccurs
  · rintro ⟨related, e', hrelated, he', hout⟩
    by_contra hunrelated
    have hne : related ≠ name := by
      rintro rfl
      exact hunrelated hrelated
    obtain ⟨row, hrow, -⟩ := Option.bind_eq_some_iff.mp he
    have hname : name ∈ env.names := hnames ▸ Ledger.mem_names_iff.mpr ⟨row, hrow⟩
    have hf : outcome.tolerance = some e := (hanyway name hname hunrelated).symm.trans he
    exact (hall related e' hne he').asymm (hout name hname hunrelated e hf)

/-! ### Two resistors

Of two resistances the first has a tolerance above the ladder, the second has none. -/

/-- Both resistances assigned. -/
def twoResistors : Session := (({} : Session).run "a = 1k 20%\nb = 1k".toList).2

/-- A variable, with all places at the start. -/
def alone (name : String) : Expr Binary64 := .var ⟨⟨.start, .start⟩, ⟨.start, .start⟩⟩ name

/-- For the second resistance the second is named, which occurs: the row of the first repeats that the
second has no tolerance. -/
theorem mostSensitive_occurs_iff_twoResistors :
    twoResistors.settings.tolerances ≠ []
      ∧ ∃ table outcome,
        sweep twoResistors.environment twoResistors.settings.tolerances (alone "b") = .ok table
        ∧ (alone "b").eval twoResistors.environment = .ok outcome
        ∧ table.mostSensitive = some "b"
        ∧ ∃ related e, related ∈ (alone "b").names ∧ table.effectOf related = some e
          ∧ ∀ unrelated ∈ twoResistors.environment.names, unrelated ∉ (alone "b").names →
            ∀ f, outcome.tolerance = some f →
              SensitivityTable.Outranks twoResistors.environment.names (related, e) (unrelated, f) := by
  have htolerances : twoResistors.settings.tolerances ≠ [] := by decide +kernel
  have hswept : (sweep twoResistors.environment twoResistors.settings.tolerances (alone "b")).map
      (·.mostSensitive) = .ok (some "b") := by
    decide +kernel
  obtain ⟨table, hsweep, hnamed⟩ := Except.map_eq_ok.mp hswept
  obtain ⟨⟨outcome, houtcome⟩, -⟩ := sweep_eq_ok.mp hsweep
  exact ⟨htolerances, table, outcome, hsweep, houtcome, hnamed,
    (mostSensitive_occurs_iff htolerances hsweep houtcome hnamed).mp (by decide)⟩

/-- **For the first resistance the second is named too**, which does not occur: with the second varied,
the first has its 20 %, and with the first varied 10 % at most. -/
theorem mostSensitive_unrelated :
    (sweep twoResistors.environment twoResistors.settings.tolerances (alone "a")).map (·.mostSensitive)
        = .ok (some "b")
      ∧ "a" ∈ twoResistors.environment.names ∧ "a" ∈ (alone "a").names ∧ "b" ∉ (alone "a").names := by
  decide +kernel

end WorstCase
