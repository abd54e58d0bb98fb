import WorstCase.Ledger

/-!
# Ledgers by their names and values

A ledger is nothing but its names in order and the value under each (`eq_of_get?`): to enter the value
that a name has already changes nothing (`assign_get?`), and of two entries under one name only the later
shows (`assign_assign`). The order of the entries is no concern of the values (`get?_of_perm`).

So a ledger that was filled step by step is a record of what was entered: its names are in the order of
the first entries, and the value under a name is that of the last (`RecordOf`). Every entry keeps this
(`RecordOf.assign`).
-/

namespace WorstCase.Ledger

variable {α : Type} {l m : Ledger α} {name : String} {value : α}

/-! ## What is in a ledger -/

theorem mem_of_lookup {entries : List (String × α)} (h : entries.lookup name = some value) :
    (name, value) ∈ entries := by
  induction entries with
  | nil => cases h
  | cons entry rest ih =>
    obtain ⟨key, old⟩ := entry
    rw [lookup_cons] at h
    split at h
    · rename_i same
      cases h
      rw [same]
      exact List.mem_cons_self
    · exact List.mem_cons_of_mem _ (ih h)

theorem lookup_of_mem {entries : List (String × α)} (hnodup : (entries.map Prod.fst).Nodup)
    (h : (name, value) ∈ entries) : entries.lookup name = some value := by
  induction entries with
  | nil => cases h
  | cons entry rest ih =>
    obtain ⟨key, old⟩ := entry
    obtain ⟨hkey, hrest⟩ := List.nodup_cons.mp hnodup
    rw [lookup_cons]
    rcases List.mem_cons.mp h with same | hmem
    · obtain ⟨rfl, rfl⟩ := Prod.mk.inj same
      exact if_pos rfl
    · have differ : name ≠ key := by
        rintro rfl
        exact hkey (List.mem_map.mpr ⟨_, hmem, rfl⟩)
      rw [if_neg differ]
      exact ih hrest hmem

/-- **The value under a name is that of its entry.** -/
theorem get?_eq_some_iff : l.get? name = some value ↔ (name, value) ∈ l.entries :=
  ⟨mem_of_lookup, lookup_of_mem l.nodup⟩

theorem lookup_eq_none_iff {entries : List (String × α)} :
    entries.lookup name = none ↔ name ∉ entries.map Prod.fst := by
  induction entries with
  | nil => exact iff_of_true rfl List.not_mem_nil
  | cons entry rest ih =>
    obtain ⟨key, old⟩ := entry
    rw [lookup_cons, List.map_cons, List.mem_cons, not_or, ← ih]
    by_cases same : name = key
    · rw [if_pos same]
      exact iff_of_false (Option.some_ne_none old) fun h => h.1 same
    · rw [if_neg same]
      exact ⟨fun h => ⟨same, h⟩, fun h => h.2⟩

theorem get?_eq_none_iff : l.get? name = none ↔ name ∉ l.names := lookup_eq_none_iff

/-- The names are those with a value. -/
theorem mem_names_iff : name ∈ l.names ↔ ∃ value, l.get? name = some value := by
  rw [← Option.ne_none_iff_exists', ne_eq, get?_eq_none_iff, Decidable.not_not]

theorem eq_of_lookup {entries others : List (String × α)} (hnodup : (entries.map Prod.fst).Nodup)
    (hnames : others.map Prod.fst = entries.map Prod.fst)
    (hget : ∀ name, others.lookup name = entries.lookup name) : others = entries := by
  induction entries generalizing others with
  | nil => exact List.map_eq_nil_iff.mp hnames
  | cons entry rest ih =>
    obtain ⟨key, value⟩ := entry
    obtain ⟨hkey, hrest⟩ := List.nodup_cons.mp hnodup
    cases others with
    | nil => cases hnames
    | cons other others =>
      obtain ⟨first, value'⟩ := other
      obtain ⟨hfirst, hothers⟩ := List.cons.inj hnames
      change first = key at hfirst
      subst hfirst
      have hhead := hget first
      rw [lookup_cons, lookup_cons, if_pos rfl, if_pos rfl] at hhead
      cases hhead
      congr 1
      refine ih hrest hothers fun name => ?_
      have hname := hget name
      rw [lookup_cons, lookup_cons] at hname
      by_cases same : name = first
      · -- neither rest has the name of the first entry
        rw [same, lookup_eq_none_iff.mpr hkey]
        exact lookup_eq_none_iff.mpr (hothers ▸ hkey)
      · rwa [if_neg same, if_neg same] at hname

/-- **A ledger is its names and the values under them.** -/
theorem eq_of_get? (hnames : m.names = l.names) (hget : ∀ name, m.get? name = l.get? name) :
    m = l :=
  Ledger.ext (eq_of_lookup l.nodup hnames hget)

/-- **The order of the entries does not matter for the values.** -/
theorem get?_of_perm (h : m.entries.Perm l.entries) (name : String) : m.get? name = l.get? name := by
  cases hl : l.get? name with
  | none =>
    rw [get?_eq_none_iff] at hl ⊢
    exact fun hm => hl ((h.map Prod.fst).mem_iff.mp hm)
  | some value =>
    rw [get?_eq_some_iff] at hl ⊢
    exact h.mem_iff.mpr hl

/-! ## Entering values -/

/-- **Of two values under one name the later counts.** -/
@[simp] theorem assign_assign (l : Ledger α) (name : String) (old new : α) :
    (l.assign name old).assign name new = l.assign name new := by
  refine Ledger.ext ?_
  show assignEntry name new (assignEntry name old l.entries) = assignEntry name new l.entries
  induction l.entries with
  | nil => simp [assignEntry]
  | cons entry rest ih =>
    by_cases same : entry.1 = name
    · simp [assignEntry, same]
    · simp [assignEntry, same, ih]

/-- **A value entered where it is already changes nothing.** -/
theorem assign_get? (h : l.get? name = some value) : l.assign name value = l := by
  change l.entries.lookup name = some value at h
  refine Ledger.ext ?_
  show assignEntry name value l.entries = l.entries
  generalize l.entries = entries at h ⊢
  induction entries with
  | nil => cases h
  | cons entry rest ih =>
    obtain ⟨key, old⟩ := entry
    rw [lookup_cons] at h
    rw [assignEntry]
    by_cases same : name = key
    · rw [if_pos same] at h
      cases h
      rw [if_pos same.symm, same]
    · rw [if_neg same] at h
      rw [if_neg (Ne.symm same), ih h]

/-- A new name comes last. -/
theorem entries_assign_of_not_mem (h : name ∉ l.names) :
    (l.assign name value).entries = l.entries ++ [(name, value)] := by
  change name ∉ l.entries.map Prod.fst at h
  show assignEntry name value l.entries = l.entries ++ [(name, value)]
  generalize l.entries = entries at h ⊢
  induction entries with
  | nil => rfl
  | cons entry rest ih =>
    obtain ⟨hentry, hrest⟩ := not_or.mp (mt List.mem_cons.mpr h)
    rw [assignEntry, if_neg (Ne.symm hentry), ih hrest]
    rfl

/-- **A ledger that differs in one value only**: the names and their order are the same, and so is
every value but the one under the name. -/
structure ChangedAt (l : Ledger α) (name : String) (value : α) (m : Ledger α) : Prop where
  names_eq : m.names = l.names
  here : m.get? name = some value
  elsewhere : ∀ other, other ≠ name → m.get? other = l.get? other

/-- There is one such ledger for a name that has a value, and entering the value gives it. -/
theorem changedAt_iff (hname : name ∈ l.names) :
    l.ChangedAt name value m ↔ m = l.assign name value := by
  have hnames : (l.assign name value).names = l.names := by
    rw [names_assign, if_pos hname]
  constructor
  · intro h
    refine eq_of_get? (h.names_eq.trans hnames.symm) fun other => ?_
    rw [get?_assign]
    split
    · rename_i same
      rw [same]
      exact h.here
    · rename_i differ
      exact h.elsewhere other differ
  · rintro rfl
    refine ⟨hnames, ?_, fun other differ => ?_⟩
    · rw [get?_assign, if_pos rfl]
    · rw [get?_assign, if_neg differ]

/-! ## Ledgers as records -/

/-- **A ledger as the record of entries**, of which `log k name value` says that step `k` entered the
value under the name. -/
structure RecordOf (log : Nat → String → α → Prop) (l : Ledger α) : Prop where
  /-- The names are those that something was entered under. -/
  mem_names_iff : ∀ name, name ∈ l.names ↔ ∃ k value, log k name value
  /-- Of two names the earlier had an entry when the later had none yet. -/
  in_order : l.names.Pairwise fun earlier later =>
    ∃ k value, log k earlier value ∧ ∀ j ≤ k, ∀ value', ¬ log j later value'
  /-- The value under a name is what was entered last. -/
  latest : ∀ name value, l.get? name = some value
    ↔ ∃ k, log k name value ∧ ∀ j > k, ∀ value', ¬ log j name value'

/-- Nothing is the record of nothing. -/
theorem RecordOf.empty {log : Nat → String → α → Prop} (h : ∀ k name value, ¬ log k name value) :
    (Ledger.empty : Ledger α).RecordOf log where
  mem_names_iff name :=
    ⟨fun hname => (nomatch hname), fun ⟨k, value, hlog⟩ => (h k name value hlog).elim⟩
  in_order := .nil
  latest name value :=
    ⟨fun hget => (nomatch hget), fun ⟨k, hlog, _⟩ => (h k name value hlog).elim⟩

/-- The record depends on what was entered only. -/
theorem RecordOf.congr {log other : Nat → String → α → Prop} (h : l.RecordOf log)
    (hsame : ∀ k name value, other k name value ↔ log k name value) : l.RecordOf other := by
  have heq : other = log := by
    funext k name value
    exact propext (hsame k name value)
  exact heq ▸ h

/-- **An entry keeps the record**, if the step it is made in comes after all others. -/
theorem RecordOf.assign {log : Nat → String → α → Prop} {n : Nat} (h : l.RecordOf log)
    (hbefore : ∀ k name value, log k name value → k < n) (name : String) (value : α) :
    (l.assign name value).RecordOf fun k other v =>
      log k other v ∨ (k = n ∧ other = name ∧ v = value) where
  mem_names_iff other := by
    have hmem : other ∈ (l.assign name value).names ↔ other ∈ l.names ∨ other = name := by
      rw [names_assign]
      split
      · rename_i hknown
        exact ⟨.inl, fun hor => hor.elim id fun same => same ▸ hknown⟩
      · rw [List.mem_append, List.mem_singleton]
    rw [hmem, h.mem_names_iff]
    constructor
    · rintro (⟨k, v, hlog⟩ | rfl)
      · exact ⟨k, v, .inl hlog⟩
      · exact ⟨n, value, .inr ⟨rfl, rfl, rfl⟩⟩
    · rintro ⟨k, v, hlog | ⟨-, rfl, -⟩⟩
      · exact .inl ⟨k, v, hlog⟩
      · exact .inr rfl
  in_order := by
    -- what was earlier stays so, since the new entry comes after both
    have hkept : ∀ {k first second v}, log k first v → (∀ j ≤ k, ∀ v', ¬ log j second v') →
        ∃ k v, (log k first v ∨ (k = n ∧ first = name ∧ v = value))
          ∧ ∀ j ≤ k, ∀ v', ¬ (log j second v' ∨ (j = n ∧ second = name ∧ v' = value)) := by
      intro k first second v hlog hnot
      refine ⟨k, v, .inl hlog, fun j hj v' => not_or.mpr ⟨hnot j hj v', ?_⟩⟩
      rintro ⟨rfl, -⟩
      exact absurd (hbefore k first v hlog) (Nat.not_lt.mpr hj)
    have hold := h.in_order.imp fun ⟨k, v, hlog, hnot⟩ => hkept hlog hnot
    rw [names_assign]
    split
    · exact hold
    · rename_i hnew
      refine List.pairwise_append.mpr ⟨hold, List.pairwise_singleton _ name, ?_⟩
      intro other hother b hb
      rw [List.mem_singleton.mp hb]
      obtain ⟨k, v, hlog⟩ := (h.mem_names_iff other).mp hother
      exact hkept hlog fun j _ v' hlog' => hnew ((h.mem_names_iff name).mpr ⟨j, v', hlog'⟩)
  latest other v := by
    rw [get?_assign]
    by_cases same : other = name
    · subst same
      rw [if_pos rfl]
      constructor
      · rintro ⟨⟩
        refine ⟨n, .inr ⟨rfl, rfl, rfl⟩, fun j hj v' => not_or.mpr ⟨fun hlog => ?_, ?_⟩⟩
        · exact absurd (hbefore j other v' hlog) (Nat.not_lt.mpr (Nat.le_of_lt hj))
        · rintro ⟨rfl, -⟩
          exact Nat.lt_irrefl j hj
      · rintro ⟨k, hlog | ⟨-, -, rfl⟩, hlast⟩
        · exact absurd (.inr ⟨rfl, rfl, rfl⟩) (hlast n (hbefore k other v hlog) value)
        · rfl
    · rw [if_neg same, h.latest]
      simp only [same, false_and, and_false, or_false]

end WorstCase.Ledger
