/-
# Tables

Values by name.  A table keeps the order in which names first came, and has each name once when
it is made by its own operations.

`find?` gives the first value of a name, so a table reads as a function even where a name stands
in it twice, and the lemmas here say what each operation does to that function: setting, taking
out and mapping touch the names that they are about and no others.  That is all that most proofs
about positions, bodies and stores need; the few that speak of the order of names use
`names_set_of_mem`.
-/
namespace PathAtlas

/-- Values by name. -/
abbrev Table (β : Type) : Type := List (String × β)

namespace Table

variable {β : Type}

def find? : Table β → String → Option β
  | [], _ => none
  | (k, v) :: rest, key => if k = key then some v else find? rest key

/-- Sets the value of a name, at its place when it has one and else at the end. -/
def set (key : String) (value : β) : Table β → Table β
  | [] => [(key, value)]
  | (k, v) :: rest => if k = key then (k, value) :: rest else (k, v) :: set key value rest

def erase (key : String) : Table β → Table β
  | [] => []
  | (k, v) :: rest => if k = key then erase key rest else (k, v) :: erase key rest

/-- Sets the value of a name, or takes the name out when there is none. -/
def put (key : String) (value : Option β) (table : Table β) : Table β :=
  match value with
  | some value => set key value table
  | none => erase key table

def names (table : Table β) : List String := table.map Prod.fst

theorem find?_set_self (key : String) (value : β) (table : Table β) :
    find? (set key value table) key = some value := by
  induction table with
  | nil => simp [set, find?]
  | cons entry rest ih =>
    by_cases h : entry.1 = key
    · simp [set, find?, h]
    · simp [set, find?, h, ih]

/-- To set a name leaves the values of others. -/
theorem find?_set_of_ne {key other : String} (h : other ≠ key) (value : β) (table : Table β) :
    find? (set key value table) other = find? table other := by
  induction table with
  | nil => simp [set, find?, Ne.symm h]
  | cons entry rest ih =>
    by_cases hi : entry.1 = key
    · simp [set, find?, hi, Ne.symm h]
    · by_cases ho : entry.1 = other
      · simp [set, find?, ho, h]
      · simp [set, find?, hi, ho, ih]

theorem find?_erase_self (key : String) (table : Table β) : find? (erase key table) key = none := by
  induction table with
  | nil => rfl
  | cons entry rest ih =>
    by_cases h : entry.1 = key
    · simp [erase, h, ih]
    · simp [erase, find?, h, ih]

/-- To take a name out leaves the values of others. -/
theorem find?_erase_of_ne {key other : String} (h : other ≠ key) (table : Table β) :
    find? (erase key table) other = find? table other := by
  induction table with
  | nil => rfl
  | cons entry rest ih =>
    by_cases hi : entry.1 = key
    · simp [erase, find?, hi, Ne.symm h, ih]
    · by_cases ho : entry.1 = other
      · simp [erase, find?, ho, h]
      · simp [erase, find?, hi, ho, ih]

theorem find?_put_self (key : String) (value : Option β) (table : Table β) :
    find? (put key value table) key = value := by
  cases value with
  | some value => exact find?_set_self key value table
  | none => exact find?_erase_self key table

theorem find?_put_of_ne {key other : String} (h : other ≠ key) (value : Option β)
    (table : Table β) : find? (put key value table) other = find? table other := by
  cases value with
  | some value => exact find?_set_of_ne h value table
  | none => exact find?_erase_of_ne h table

/-- A name that is there keeps its place. -/
theorem names_set_of_mem {key : String} {table : Table β} (h : key ∈ table.names) (value : β) :
    (set key value table).names = table.names := by
  induction table with
  | nil => simp [names] at h
  | cons entry rest ih =>
    by_cases hk : entry.1 = key
    · simp [set, names, hk]
    · have hrest : key ∈ names rest := (List.mem_cons.mp h).resolve_left (Ne.symm hk)
      simp only [set, hk, if_false]
      exact congrArg (entry.1 :: ·) (ih hrest)

/-- An entry is the one that was set, or was there before. -/
theorem mem_of_mem_set {key : String} {value : β} {table : Table β} {entry : String × β}
    (h : entry ∈ set key value table) : entry = (key, value) ∨ entry ∈ table := by
  induction table with
  | nil => exact .inl (List.mem_singleton.mp h)
  | cons head rest ih =>
    rw [set] at h
    split at h
    · rename_i hk
      rcases List.mem_cons.mp h with rfl | h
      · exact .inl (Prod.ext hk rfl)
      · exact .inr (List.mem_cons_of_mem head h)
    · rcases List.mem_cons.mp h with rfl | h
      · exact .inr List.mem_cons_self
      · exact (ih h).imp id (List.mem_cons_of_mem head)

/-- A value that is found is an entry. -/
theorem mem_of_find? {key : String} {value : β} {table : Table β}
    (h : find? table key = some value) :
    (key, value) ∈ table := by
  induction table with
  | nil => cases h
  | cons entry rest ih =>
    rw [find?] at h
    split at h
    · rename_i hk
      exact List.mem_cons.mpr (.inl (Prod.ext hk.symm (Option.some.inj h).symm))
    · exact List.mem_cons_of_mem entry (ih h)

/-- A table made of the values that some names have. -/
theorem find?_filterMap (value? : String → Option β) (keys : List String) (key : String) :
    find? (keys.filterMap fun k => (value? k).map fun v => (k, v)) key
      = if key ∈ keys then value? key else none := by
  induction keys with
  | nil => rfl
  | cons k keys ih =>
    by_cases hk : k = key
    · subst hk
      cases hvalue : value? k with
      | none => simp [hvalue, ih]
      | some v => simp [hvalue, find?]
    · simp only [List.mem_cons, Ne.symm hk, false_or]
      rw [← ih]
      cases hvalue : value? k with
      | none => simp [hvalue]
      | some v => simp [hvalue, find?, hk]

/-- A table with other values for its names. -/
theorem find?_map_values {γ : Type} (f : String → β → γ) (table : Table β) (key : String) :
    find? (table.map fun (k, v) => (k, f k v)) key = (find? table key).map (f key) := by
  induction table with
  | nil => rfl
  | cons entry rest ih =>
    by_cases hk : entry.1 = key
    · simp [find?, hk]
    · simp [find?, hk, ih]

/-- A table made of a list. -/
theorem find?_map {γ : Type} (name : γ → String) (value : γ → β) (xs : List γ) (key : String) :
    find? (xs.map fun x => (name x, value x)) key = (xs.find? (name · == key)).map value := by
  induction xs with
  | nil => rfl
  | cons x xs ih =>
    by_cases hk : name x = key
    · simp [find?, hk]
    · simp [find?, hk, ih]

theorem find?_append (table rest : Table β) (key : String) :
    find? (table ++ rest) key = (find? table key).or (find? rest key) := by
  induction table with
  | nil => rfl
  | cons entry table ih =>
    by_cases hk : entry.1 = key
    · simp [find?, hk]
    · simp [find?, hk, ih]

/-- A table of which only some names are kept. -/
theorem find?_filter (keep : String → Bool) (table : Table β) (key : String) :
    find? (table.filter fun (k, _) => keep k) key
      = if keep key then find? table key else none := by
  induction table with
  | nil => simp [find?]
  | cons entry table ih =>
    by_cases hk : entry.1 = key
    · by_cases hkeep : keep key <;> simp [find?, hk, hkeep, ih]
    · by_cases hkeep : keep entry.1 <;> simp [find?, hk, hkeep, ih]

/-- Every name has a value. -/
theorem exists_find? {key : String} {table : Table β} (h : key ∈ table.names) :
    ∃ value, find? table key = some value := by
  induction table with
  | nil => cases h
  | cons entry rest ih =>
    rw [find?]
    split
    · exact ⟨entry.2, rfl⟩
    · rename_i hk
      exact ih ((List.mem_cons.mp h).resolve_left (Ne.symm hk))

end Table

end PathAtlas
