/-!
# Maps as sorted lists of entries

A finite map is a list of keys with values, in increasing order of the keys. Inserting replaces
the value of a key that is present and otherwise keeps the order.
-/

namespace EditorFormat

/-- The entries of a finite map. The operations below keep the keys in increasing order. -/
abbrev Entries (κ α : Type) := List (κ × α)

namespace Entries

variable {κ α : Type} [LT κ] [DecidableLT κ] [DecidableEq κ]

/-- The value of a key. -/
def find? : Entries κ α → κ → Option α
  | [], _ => none
  | (key, value) :: rest, sought => if key = sought then some value else find? rest sought

/-- Whether the key is present. -/
def hasKey (entries : Entries κ α) (key : κ) : Bool :=
  (find? entries key).isSome

/-- Set the value of a key. -/
def put : Entries κ α → κ → α → Entries κ α
  | [], key, value => [(key, value)]
  | (first, old) :: rest, key, value =>
    if key = first then (key, value) :: rest
    else if key < first then (key, value) :: (first, old) :: rest
    else (first, old) :: put rest key value

/-- Drop a key. -/
def remove (entries : Entries κ α) (key : κ) : Entries κ α :=
  entries.filter fun entry => entry.1 ≠ key

/-- The map of a list of entries in any order. Of two entries with one key the later one stays. -/
def ofPairs (pairs : List (κ × α)) : Entries κ α :=
  pairs.foldl (fun entries pair => put entries pair.1 pair.2) []

/-- The keys in increasing order. -/
def keys (entries : Entries κ α) : List κ :=
  entries.map Prod.fst

/-- The entries are in increasing order of their keys, so no key occurs twice. -/
def Sorted (entries : Entries κ α) : Prop :=
  entries.Pairwise fun first second => first.1 < second.1

/-- A key that was set has the value it was set to. -/
@[simp] theorem find?_put_self (entries : Entries κ α) (key : κ) (value : α) :
    (entries.put key value).find? key = some value := by
  induction entries with
  | nil => simp [put, find?]
  | cons entry rest ih =>
    rcases entry with ⟨first, old⟩
    unfold put
    split
    · simp [find?]
    · split
      · simp [find?]
      · rename_i hne _
        simp [find?, Ne.symm hne, ih]

/-- Setting one key leaves the others alone. -/
@[simp] theorem find?_put_of_ne (entries : Entries κ α) {key other : κ} (value : α)
    (h : other ≠ key) : (entries.put key value).find? other = entries.find? other := by
  induction entries with
  | nil => simp [put, find?, Ne.symm h]
  | cons entry rest ih =>
    rcases entry with ⟨first, old⟩
    unfold put
    split
    · rename_i heq
      subst heq
      simp [find?, Ne.symm h]
    · split
      · simp [find?, Ne.symm h]
      · simp [find?, ih]

omit [LT κ] [DecidableLT κ] in
/-- A dropped key has no value. -/
@[simp] theorem find?_remove_self (entries : Entries κ α) (key : κ) :
    (entries.remove key).find? key = none := by
  induction entries with
  | nil => rfl
  | cons entry rest ih =>
    rcases entry with ⟨first, old⟩
    by_cases h : first = key
    · simpa [remove, h] using ih
    · simpa [remove, h, find?] using ih

omit [LT κ] [DecidableLT κ] in
/-- Dropping one key leaves the others alone. -/
@[simp] theorem find?_remove_of_ne (entries : Entries κ α) {key other : κ} (h : other ≠ key) :
    (entries.remove key).find? other = entries.find? other := by
  induction entries with
  | nil => rfl
  | cons entry rest ih =>
    rcases entry with ⟨first, old⟩
    by_cases hfirst : first = key
    · subst hfirst
      simpa [remove, find?, Ne.symm h] using ih
    · have hkept : remove ((first, old) :: rest) key = (first, old) :: remove rest key := by
        simp [remove, hfirst]
      rw [hkept, find?, find?, ih]

omit [LT κ] [DecidableLT κ] in
/-- A key is listed exactly when it has a value. -/
theorem mem_keys_iff_find? {entries : Entries κ α} {key : κ} :
    key ∈ entries.keys ↔ ∃ value, entries.find? key = some value := by
  induction entries with
  | nil => simp [keys, find?]
  | cons entry rest ih =>
    rcases entry with ⟨first, old⟩
    rw [keys] at ih
    by_cases hfirst : first = key
    · simp [keys, find?, hfirst]
    · simpa [keys, find?, hfirst, Ne.symm hfirst] using ih

omit [LT κ] [DecidableLT κ] in
/-- A key that is not listed has no value. -/
theorem find?_eq_none_iff {entries : Entries κ α} {key : κ} :
    entries.find? key = none ↔ key ∉ entries.keys := by
  rw [mem_keys_iff_find?, Option.eq_none_iff_forall_ne_some, not_exists]

omit [LT κ] [DecidableLT κ] in
/-- Dropping a key drops it from the list of keys. -/
theorem keys_remove (entries : Entries κ α) (key : κ) :
    (entries.remove key).keys = entries.keys.filter fun other => other ≠ key := by
  rw [keys, keys, List.filter_map, remove]
  rfl

omit [LT κ] [DecidableLT κ] in
/-- When no key occurs twice, every listed value is found by its key. -/
theorem find?_of_mem {entries : Entries κ α} (hnodup : entries.keys.Nodup) {key : κ} {value : α}
    (h : (key, value) ∈ entries) : entries.find? key = some value := by
  induction entries with
  | nil => exact absurd h List.not_mem_nil
  | cons entry rest ih =>
    rcases entry with ⟨first, old⟩
    obtain ⟨hfirst, hrest⟩ := List.nodup_cons.1 hnodup
    rcases List.mem_cons.1 h with heq | hmem
    · cases heq
      simp [find?]
    · have hkey : key ∈ rest.map Prod.fst := List.mem_map_of_mem hmem
      have hne : first ≠ key := fun heq => hfirst (heq ▸ hkey)
      rw [find?, if_neg hne]
      exact ih hrest hmem

omit [LT κ] [DecidableLT κ] in
/-- What is found by a key is listed with it. -/
theorem mem_of_find? {entries : Entries κ α} {key : κ} {value : α}
    (h : entries.find? key = some value) : (key, value) ∈ entries := by
  induction entries with
  | nil => exact absurd h nofun
  | cons entry rest ih =>
    rcases entry with ⟨first, old⟩
    by_cases hfirst : first = key
    · rw [find?, if_pos hfirst, Option.some.injEq] at h
      rw [hfirst, h]
      exact List.mem_cons_self
    · rw [find?, if_neg hfirst] at h
      exact List.mem_cons_of_mem _ (ih h)

omit [LT κ] [DecidableLT κ] in
/-- There is nothing to drop for a key that is not listed. -/
theorem remove_eq_self {entries : Entries κ α} {key : κ} (h : key ∉ entries.keys) :
    entries.remove key = entries := by
  refine List.filter_eq_self.2 fun entry hentry => decide_eq_true fun hkey => h ?_
  exact hkey ▸ List.mem_map_of_mem hentry

/-- A new key is added to the keys that are there. -/
theorem keys_put_perm {entries : Entries κ α} {key : κ} (value : α) (h : key ∉ entries.keys) :
    (entries.put key value).keys.Perm (key :: entries.keys) := by
  induction entries with
  | nil => exact .refl _
  | cons entry rest ih =>
    rcases entry with ⟨first, old⟩
    obtain ⟨hfirst, hrest⟩ := not_or.1 (mt List.mem_cons.2 h)
    unfold put
    rw [if_neg hfirst]
    split
    · exact .refl _
    · exact ((ih hrest).cons first).trans (.swap key first _)

/-- Of two values set for one key the later one stays. -/
@[simp] theorem put_put (entries : Entries κ α) (key : κ) (first second : α) :
    (entries.put key first).put key second = entries.put key second := by
  induction entries with
  | nil => simp [put]
  | cons entry rest ih =>
    rcases entry with ⟨other, old⟩
    by_cases hkey : key = other
    · simp [put, hkey]
    · by_cases hlt : key < other
      · simp [put, hkey, hlt]
      · simp [put, hkey, hlt, ih]

end Entries

end EditorFormat
