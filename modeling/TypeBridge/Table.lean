/-!
# Tables

A table gives values to names. Its entries keep the order in which their names were first entered, and
a later value for a name takes the place of the earlier one.

* `get?_insert`, `get?_update`: what is found after one entry is made, or all those of another table.
* `names_insert`, `nodup_names_update`: a new name is the last one, and no name is repeated.
* `get?_of_mem`, `mem_of_get?`, `mem_insert`: the entries of a table.
-/
namespace TypeBridge

/-- The entries of a table, no two of them for one name. -/
abbrev Table (α : Type) := List (String × α)

namespace Table

variable {α : Type}

/-- The value of a name. -/
def get? (table : Table α) (name : String) : Option α := table.lookup name

/-- The table with a new value for a name. -/
def insert (name : String) (value : α) : Table α → Table α
  | [] => [(name, value)]
  | (known, old) :: rest =>
    if known = name then (name, value) :: rest else (known, old) :: insert name value rest

theorem get?_insert (table : Table α) (name other : String) (value : α) :
    get? (insert name value table) other = if other = name then some value else get? table other := by
  induction table with
  | nil =>
    by_cases h : other = name
    · subst h; simp [insert, get?]
    · simp [insert, get?, h, beq_false_of_ne h, List.lookup_cons]
  | cons entry rest ih =>
    obtain ⟨known, old⟩ := entry
    simp only [insert]
    by_cases hk : known = name
    · subst hk
      by_cases h : other = known
      · subst h; simp [get?]
      · simp [get?, List.lookup_cons, h, beq_false_of_ne h]
    · rw [if_neg hk]
      by_cases h : other = known
      · subst h; simp [get?, hk]
      · simpa [get?, List.lookup_cons, beq_false_of_ne h] using ih

/-- The table with all entries of another one made after its own. -/
def update (table entries : Table α) : Table α :=
  entries.foldl (fun t entry => t.insert entry.1 entry.2) table

/-- The names that have a value, in order. -/
def names (table : Table α) : List String := table.map (·.1)

theorem names_cons (entry : String × α) (table : Table α) : names (entry :: table) = entry.1 :: names table :=
  rfl

theorem names_insert (table : Table α) (name : String) (value : α) :
    names (insert name value table) = if name ∈ table.names then table.names else table.names ++ [name] := by
  induction table with
  | nil => rfl
  | cons entry rest ih =>
    obtain ⟨known, old⟩ := entry
    rw [insert, names_cons]
    by_cases hk : known = name
    · rw [if_pos hk, names_cons, hk, if_pos List.mem_cons_self]
    · have hne : ¬ name = known := fun h => hk h.symm
      rw [if_neg hk, names_cons, ih]
      by_cases hname : name ∈ names rest
      · rw [if_pos hname, if_pos (List.mem_cons_of_mem _ hname)]
      · rw [if_neg hname, if_neg (by simp [hne, hname])]
        rfl

theorem nodup_names_insert {table : Table α} (h : table.names.Nodup) (name : String) (value : α) :
    (names (insert name value table)).Nodup := by
  rw [names_insert]
  split
  · exact h
  · rename_i hname
    refine List.nodup_append.2 ⟨h, by simp, fun other hother last hlast heq => hname ?_⟩
    rwa [← List.mem_singleton.1 hlast, ← heq]

theorem get?_eq_none {table : Table α} {name : String} (h : name ∉ table.names) : table.get? name = none := by
  rw [get?, List.lookup_eq_none_iff]
  intro entry hmem
  have hne : name ≠ entry.1 := fun heq => h (heq ▸ List.mem_map_of_mem hmem)
  simpa using hne

theorem mem_of_get? {table : Table α} {name : String} {value : α} (h : table.get? name = some value) :
    (name, value) ∈ table := by
  obtain ⟨before, after, rfl, -⟩ := List.lookup_eq_some_iff.1 h
  exact List.mem_append_right before List.mem_cons_self

/-- The first entry for a name is the only one when no two entries are for one name. -/
theorem get?_of_mem {table : Table α} (h : table.names.Nodup) {name : String} {value : α}
    (hmem : (name, value) ∈ table) : table.get? name = some value := by
  obtain ⟨before, after, rfl⟩ := List.append_of_mem hmem
  rw [names, List.map_append, List.map_cons, List.nodup_append] at h
  refine List.lookup_eq_some_iff.2 ⟨before, after, rfl, fun entry hentry => ?_⟩
  have hne := h.2.2 entry.1 (List.mem_map_of_mem hentry) name List.mem_cons_self
  simpa using hne.symm

theorem mem_insert {table : Table α} {name : String} {value : α} {entry : String × α}
    (h : entry ∈ table.insert name value) : entry = (name, value) ∨ entry ∈ table := by
  induction table with
  | nil => exact .inl (List.mem_singleton.1 h)
  | cons known table ih =>
    rw [insert] at h
    split at h
    · exact (List.mem_cons.1 h).imp_right (List.mem_cons_of_mem known)
    · rcases List.mem_cons.1 h with rfl | h
      · exact .inr List.mem_cons_self
      · exact (ih h).imp_right (List.mem_cons_of_mem known)

theorem nodup_names_update {table : Table α} (h : table.names.Nodup) (entries : Table α) :
    (names (update table entries)).Nodup := by
  unfold update
  induction entries generalizing table with
  | nil => exact h
  | cons entry entries ih => exact ih (nodup_names_insert h entry.1 entry.2)

theorem get?_update_of_not_mem {entries : Table α} {name : String} (h : name ∉ entries.names)
    (table : Table α) : get? (update table entries) name = table.get? name := by
  unfold update
  induction entries generalizing table with
  | nil => rfl
  | cons entry entries ih =>
    rw [names_cons, List.mem_cons, not_or] at h
    rw [List.foldl_cons, ih h.2, get?_insert, if_neg h.1]

/-- The last value for a name counts. -/
theorem get?_update_last (table before : Table α) {after : Table α} {name : String} {value : α}
    (h : name ∉ after.names) : get? (update table (before ++ (name, value) :: after)) name = some value := by
  have hsplit : update table (before ++ (name, value) :: after) =
      update (insert name value (update table before)) after := by
    simp only [update, List.foldl_append, List.foldl_cons]
  rw [hsplit, get?_update_of_not_mem h, get?_insert, if_pos rfl]

theorem get?_update {entries : Table α} (h : entries.names.Nodup) (table : Table α) (name : String) :
    get? (update table entries) name = (entries.get? name).or (table.get? name) := by
  by_cases hname : name ∈ entries.names
  · cases hget : entries.get? name with
    | none =>
      obtain ⟨entry, hentry, rfl⟩ := List.mem_map.1 hname
      have := List.lookup_eq_none_iff.1 hget entry hentry
      simp at this
    | some value =>
      obtain ⟨before, after, rfl, -⟩ := List.lookup_eq_some_iff.1 hget
      have hafter : name ∉ names after := by
        rw [names, List.map_append, List.nodup_append] at h
        exact (List.nodup_cons.1 h.2.1).1
      rw [get?_update_last table before hafter]
      rfl
  · rw [get?_update_of_not_mem hname, get?_eq_none hname, Option.none_or]

end Table

end TypeBridge
