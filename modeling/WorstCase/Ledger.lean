/-!
# Ledgers

Named values **in the order in which the names were first entered**. Entering a value under a name that
is already there replaces the value and keeps its place, so no name stands in a ledger twice. The entries
carry the proof of that with them (`Ledger.nodup`): a list with two entries of one name is not a ledger.

A ledger is read through `get?` and `names`, and `get?_assign` and `names_assign` say what an entry does
to either.
-/

namespace WorstCase

/-- **Named values in order of first entry.** -/
@[ext] structure Ledger (α : Type) where
  /-- The names with their values. -/
  entries : List (String × α)
  /-- No name has two entries. -/
  nodup : (entries.map Prod.fst).Nodup
  deriving DecidableEq, Repr

namespace Ledger

variable {α : Type}

/-- The ledger without entries. -/
def empty : Ledger α := ⟨[], .nil⟩

/-- The names, in order of first entry. -/
def names (l : Ledger α) : List String := l.entries.map Prod.fst

/-- The value under a name. -/
def get? (l : Ledger α) (name : String) : Option α := l.entries.lookup name

/-- Whether there is a value under a name. -/
def contains (l : Ledger α) (name : String) : Bool := (l.get? name).isSome

/-- Entries with a value replaced, or added at the end if the name is new. -/
def assignEntry (name : String) (value : α) : List (String × α) → List (String × α)
  | [] => [(name, value)]
  | entry :: rest =>
    if entry.1 = name then (name, value) :: rest else entry :: assignEntry name value rest

/-- A new name comes last; a known one stays where it is. -/
theorem map_fst_assignEntry (name : String) (value : α) (entries : List (String × α)) :
    (assignEntry name value entries).map Prod.fst
      = if name ∈ entries.map Prod.fst then entries.map Prod.fst
        else entries.map Prod.fst ++ [name] := by
  induction entries with
  | nil => simp [assignEntry]
  | cons entry rest ih =>
    by_cases same : entry.1 = name
    · simp [assignEntry, same]
    · have differ : ¬name = entry.1 := fun h => same h.symm
      by_cases known : name ∈ rest.map Prod.fst <;> simp_all [assignEntry]

/-- The names stay distinct. -/
theorem nodup_assignEntry {name : String} {value : α} {entries : List (String × α)}
    (hnodup : (entries.map Prod.fst).Nodup) :
    ((assignEntry name value entries).map Prod.fst).Nodup := by
  rw [map_fst_assignEntry]
  split
  · exact hnodup
  · rename_i hnew
    refine List.nodup_append.mpr ⟨hnodup, List.pairwise_singleton _ name, fun a ha b hb same => ?_⟩
    rw [same, List.mem_singleton.mp hb] at ha
    exact hnew ha

/-- **The ledger with a value entered under a name.** -/
def assign (l : Ledger α) (name : String) (value : α) : Ledger α :=
  ⟨assignEntry name value l.entries, nodup_assignEntry l.nodup⟩

theorem lookup_cons (name other : String) (value : α) (rest : List (String × α)) :
    List.lookup other ((name, value) :: rest)
      = if other = name then some value else rest.lookup other := by
  by_cases same : other = name
  · simp [same]
  · rw [List.lookup_cons, beq_false_of_ne same, if_neg same]

theorem lookup_assignEntry (name other : String) (value : α) (entries : List (String × α)) :
    (assignEntry name value entries).lookup other
      = if other = name then some value else entries.lookup other := by
  induction entries with
  | nil => rw [assignEntry, lookup_cons]
  | cons entry rest ih =>
    obtain ⟨key, old⟩ := entry
    by_cases same : key = name
    · rw [assignEntry, if_pos same, lookup_cons, lookup_cons, same]
      by_cases here : other = name
      · rw [if_pos here, if_pos here]
      · rw [if_neg here, if_neg here, if_neg here]
    · rw [assignEntry, if_neg same, lookup_cons, lookup_cons, ih]
      by_cases here : other = key
      · rw [if_pos here, if_pos here, if_neg (here ▸ same)]
      · rw [if_neg here, if_neg here]

/-- An entry is found under its name, and changes nothing under others. -/
@[simp] theorem get?_assign (l : Ledger α) (name other : String) (value : α) :
    (l.assign name value).get? other = if other = name then some value else l.get? other :=
  lookup_assignEntry name other value l.entries

/-- A new name comes last; a known one stays where it is. -/
@[simp] theorem names_assign (l : Ledger α) (name : String) (value : α) :
    (l.assign name value).names = if name ∈ l.names then l.names else l.names ++ [name] :=
  map_fst_assignEntry name value l.entries

/-- The names of a ledger are distinct. -/
theorem nodup_names (l : Ledger α) : l.names.Nodup := l.nodup

end Ledger

end WorstCase
