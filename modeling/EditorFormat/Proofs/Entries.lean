import EditorFormat.Entries

/-!
# Sorted entries

Inserting keeps entries in increasing order of their keys (`sorted_put`), and sorted entries are
determined by what is found in them (`Sorted.ext`). Of pairs in any order that are inserted one
after the other, the last one with a key is found (`find?_foldl_put`).
-/

namespace EditorFormat.Entries

variable {κ α : Type}

/-! ## What is found -/

section Finding

variable [DecidableEq κ]

@[simp] theorem find?_nil (key : κ) : find? ([] : Entries κ α) key = none :=
  rfl

/-- The first entry of a key is found. -/
@[simp] theorem find?_append (first second : Entries κ α) (key : κ) :
    find? (first ++ second) key = (find? first key).or (find? second key) := by
  induction first with
  | nil => rfl
  | cons entry rest ih =>
    obtain ⟨other, value⟩ := entry
    by_cases h : other = key <;> simp [find?, h, ih]

/-- Keeping the entries with some of the keys keeps what is found at these keys. -/
theorem find?_filter (entries : Entries κ α) (keep : κ → Bool) (key : κ) :
    find? (entries.filter fun entry => keep entry.1) key =
      if keep key then entries.find? key else none := by
  induction entries with
  | nil => simp
  | cons entry rest ih =>
    obtain ⟨other, value⟩ := entry
    by_cases hother : other = key
    · subst hother
      by_cases hkeep : keep other <;> simp [find?, hkeep, ih]
    · by_cases hkeep : keep other <;> simp [find?, hkeep, hother, ih]

/-- What is absent is absent in any order. -/
theorem find?_reverse_eq_none_iff {entries : Entries κ α} {key : κ} :
    find? entries.reverse key = none ↔ entries.find? key = none := by
  rw [find?_eq_none_iff, find?_eq_none_iff, keys, keys, List.map_reverse, List.mem_reverse]

/-- When no key occurs twice, finding is membership. -/
theorem find?_eq_some_iff {entries : Entries κ α} (hnodup : entries.keys.Nodup) {key : κ}
    {value : α} : entries.find? key = some value ↔ (key, value) ∈ entries :=
  ⟨mem_of_find?, find?_of_mem hnodup⟩

/-- When no key occurs twice, the order of the entries does not matter. -/
theorem find?_of_perm {entries others : Entries κ α} (hperm : entries.Perm others)
    (hnodup : entries.keys.Nodup) (key : κ) : entries.find? key = others.find? key := by
  have hothers : others.keys.Nodup := (hperm.map Prod.fst).nodup_iff.1 hnodup
  refine Option.ext fun value => ?_
  rw [find?_eq_some_iff hnodup, find?_eq_some_iff hothers, hperm.mem_iff]

/-- When no key occurs twice, the same is found from the back. -/
theorem find?_reverse {entries : Entries κ α} (hnodup : entries.keys.Nodup) (key : κ) :
    find? entries.reverse key = entries.find? key :=
  (find?_of_perm (List.reverse_perm entries).symm hnodup key).symm

/-- Nothing is found at a name that no item has. -/
theorem find?_filterMap_of_notMem {ι : Type} {items : List ι} {name : ι → κ} (value : ι → Option α)
    {key : κ} (h : ∀ item ∈ items, name item ≠ key) :
    find? (items.filterMap fun item => (value item).map fun found => (name item, found)) key =
      none := by
  rw [find?_eq_none_iff, keys]
  intro hkey
  obtain ⟨entry, hentry, rfl⟩ := List.mem_map.1 hkey
  obtain ⟨item, hitem, hfound⟩ := List.mem_filterMap.1 hentry
  obtain ⟨found, -, rfl⟩ := Option.map_eq_some_iff.1 hfound
  exact h item hitem rfl

/-- When the values that some items have are listed by the names of the items, the value of an item
is found by its name. -/
theorem find?_filterMap_of_mem {ι : Type} {items : List ι} {name : ι → κ}
    (hname : ∀ item other, name item = name other → item = other) (value : ι → Option α)
    {item : ι} (h : item ∈ items) :
    find? (items.filterMap fun item => (value item).map fun found => (name item, found))
      (name item) = value item := by
  induction items with
  | nil => exact absurd h List.not_mem_nil
  | cons first rest ih =>
    by_cases hfirst : first = item
    · subst hfirst
      cases hvalue : value first with
      | some found => simp [hvalue, find?]
      | none =>
        by_cases hrest : first ∈ rest
        · simpa [hvalue] using ih hrest
        · have hother : ∀ other ∈ rest, name other ≠ name first := fun other hmem heq =>
            hrest (hname _ _ heq ▸ hmem)
          simpa [hvalue] using find?_filterMap_of_notMem value hother
    · have hrest := ih ((List.mem_cons.1 h).resolve_left (Ne.symm hfirst))
      have hne : name first ≠ name item := fun heq => hfirst (hname _ _ heq)
      cases hvalue : value first <;> simpa [hvalue, find?, hne] using hrest

variable [LT κ] [DecidableLT κ]

/-- Setting a key changes what is found at that key. -/
theorem find?_put (entries : Entries κ α) (key other : κ) (value : α) :
    (entries.put key value).find? other = if other = key then some value else entries.find? other := by
  by_cases h : other = key
  · subst h
    simp
  · simp [h]

/-- Of pairs that are inserted one after the other the last one with a key is found. -/
theorem find?_foldl_put (pairs : List (κ × α)) (entries : Entries κ α) (key : κ) :
    (pairs.foldl (fun entries pair => put entries pair.1 pair.2) entries).find? key =
      (find? pairs.reverse key).or (entries.find? key) := by
  induction pairs generalizing entries with
  | nil => rfl
  | cons pair rest ih =>
    obtain ⟨other, value⟩ := pair
    rw [List.foldl_cons, ih, List.reverse_cons, find?_append, Option.or_assoc, find?_put]
    by_cases h : key = other
    · simp [find?, h]
    · simp [find?, h, Ne.symm h]

/-- Of pairs in any order the last one with a key is found. -/
theorem find?_ofPairs (pairs : List (κ × α)) (key : κ) :
    (ofPairs pairs).find? key = find? pairs.reverse key := by
  rw [ofPairs, find?_foldl_put, find?_nil, Option.or_none]

/-- An entry after an insertion is the new one or was there before. -/
theorem mem_put {entries : Entries κ α} {key : κ} {value : α} {entry : κ × α}
    (h : entry ∈ entries.put key value) : entry = (key, value) ∨ entry ∈ entries := by
  induction entries with
  | nil => exact .inl (List.mem_singleton.1 h)
  | cons first rest ih =>
    obtain ⟨other, old⟩ := first
    unfold put at h
    split at h
    · exact (List.mem_cons.1 h).imp_right (List.mem_cons_of_mem _)
    · split at h
      · exact List.mem_cons.1 h
      · rcases List.mem_cons.1 h with hfirst | hrest
        · exact .inr (hfirst ▸ List.mem_cons_self)
        · exact (ih hrest).imp_right (List.mem_cons_of_mem _)

/-- An entry after some insertions was inserted or was there before. -/
theorem mem_foldl_put {pairs : List (κ × α)} {entries : Entries κ α} {entry : κ × α}
    (h : entry ∈ pairs.foldl (fun entries pair => put entries pair.1 pair.2) entries) :
    entry ∈ pairs ∨ entry ∈ entries := by
  induction pairs generalizing entries with
  | nil => exact .inr h
  | cons pair rest ih =>
    rcases ih h with hrest | hput
    · exact .inl (List.mem_cons_of_mem _ hrest)
    · rcases mem_put hput with heq | hmem
      · exact .inl (heq ▸ List.mem_cons_self)
      · exact .inr hmem

end Finding

/-! ## Order -/

section Order

variable [LT κ]

@[simp] theorem sorted_nil : Sorted ([] : Entries κ α) :=
  List.Pairwise.nil

/-- A part of sorted entries is sorted. -/
theorem Sorted.filter {entries : Entries κ α} (h : entries.Sorted) (keep : κ × α → Bool) :
    Sorted (entries.filter keep) :=
  List.Pairwise.filter keep h

/-- Sorted entries stay sorted when a key is dropped. -/
theorem Sorted.remove [DecidableEq κ] {entries : Entries κ α} (h : entries.Sorted) (key : κ) :
    (entries.remove key).Sorted :=
  h.filter _

variable [LE κ] [Std.LawfulOrderLT κ]

/-- No key of sorted entries occurs twice. -/
theorem Sorted.nodup_keys {entries : Entries κ α} (h : entries.Sorted) : entries.keys.Nodup := by
  refine List.pairwise_map.2 (List.Pairwise.imp ?_ h)
  intro first second hlt heq
  rw [heq] at hlt
  exact Std.lt_irrefl hlt

variable [DecidableEq κ]

/-- The first key of sorted entries is found nowhere else. -/
theorem Sorted.find?_tail {key : κ} {value : α} {rest : Entries κ α}
    (h : Sorted ((key, value) :: rest)) : rest.find? key = none := by
  rw [find?_eq_none_iff]
  exact (List.nodup_cons.1 h.nodup_keys).1

variable [Std.IsLinearOrder κ]

/-- Sorted entries in which the same is found are the same. -/
theorem Sorted.ext {first second : Entries κ α} (hfirst : first.Sorted) (hsecond : second.Sorted)
    (h : ∀ key, first.find? key = second.find? key) : first = second := by
  induction first generalizing second with
  | nil =>
    cases second with
    | nil => rfl
    | cons entry rest => exact absurd (h entry.1) (by simp [find?])
  | cons entry rest ih =>
    obtain ⟨key, value⟩ := entry
    cases second with
    | nil => exact absurd (h key) (by simp [find?])
    | cons other later =>
      obtain ⟨otherKey, otherValue⟩ := other
      -- Two different first keys would each be in the tail behind the other one.
      have hkey : key = otherKey := by
        refine Decidable.byContradiction fun hne => ?_
        have hleft := h otherKey
        have hright := h key
        simp only [find?, hne, Ne.symm hne, if_true, if_false] at hleft hright
        have hless := (List.pairwise_cons.1 hfirst).1 _ (mem_of_find? hleft)
        have hmore := (List.pairwise_cons.1 hsecond).1 _ (mem_of_find? hright.symm)
        exact Std.lt_irrefl (Std.lt_trans hless hmore)
      subst hkey
      have hvalue : value = otherValue := by simpa [find?] using h key
      subst hvalue
      have hrest : rest = later := by
        refine ih (List.pairwise_cons.1 hfirst).2 (List.pairwise_cons.1 hsecond).2 fun sought => ?_
        by_cases hsought : key = sought
        · rw [← hsought, hfirst.find?_tail, hsecond.find?_tail]
        · simpa [find?, hsought] using h sought
      rw [hrest]

/-- The entries with some of the keys are those that are found by these keys. -/
theorem Sorted.filter_eq {entries : Entries κ α} (h : entries.Sorted) {names : List κ}
    (hnames : names.Pairwise (· < ·)) {keep : κ → Bool} (hkeep : ∀ key, keep key ↔ key ∈ names) :
    entries.filter (fun entry => keep entry.1) =
      names.filterMap fun name => (entries.find? name).map fun found => (name, found) := by
  refine (h.filter _).ext ?_ fun key => ?_
  · refine List.Pairwise.filterMap _ ?_ hnames
    intro first second hlt entry hentry later hlater
    obtain ⟨_, -, rfl⟩ := Option.map_eq_some_iff.1 hentry
    obtain ⟨_, -, rfl⟩ := Option.map_eq_some_iff.1 hlater
    exact hlt
  · rw [find?_filter]
    by_cases hkey : key ∈ names
    · rw [if_pos ((hkeep key).2 hkey),
        find?_filterMap_of_mem (fun _ _ => id) (fun name => entries.find? name) hkey]
    · rw [if_neg (mt (hkeep key).1 hkey),
        find?_filterMap_of_notMem (fun name => entries.find? name) fun name hname heq =>
          hkey ((show name = key from heq) ▸ hname)]

variable [DecidableLT κ]

/-- Inserting keeps entries sorted. -/
theorem sorted_put {entries : Entries κ α} (h : entries.Sorted) (key : κ) (value : α) :
    (entries.put key value).Sorted := by
  induction entries with
  | nil => exact List.pairwise_singleton ..
  | cons first rest ih =>
    obtain ⟨other, old⟩ := first
    obtain ⟨hfirst, hrest⟩ := List.pairwise_cons.1 h
    unfold put
    split
    · rename_i heq
      exact List.pairwise_cons.2 ⟨fun entry hentry => heq ▸ hfirst entry hentry, hrest⟩
    · split
      · rename_i hlt
        refine List.pairwise_cons.2 ⟨fun entry hentry => ?_, h⟩
        rcases List.mem_cons.1 hentry with heq | hmem
        · exact heq ▸ hlt
        · exact Std.lt_trans hlt (hfirst entry hmem)
      · rename_i hne hnlt
        refine List.pairwise_cons.2 ⟨fun entry hentry => ?_, ih hrest⟩
        rcases mem_put hentry with heq | hmem
        · rw [heq]
          exact Std.lt_of_le_of_ne (Std.not_lt.1 hnlt) (Ne.symm hne)
        · exact hfirst entry hmem

/-- Entries stay sorted under any insertions. -/
theorem sorted_foldl_put (pairs : List (κ × α)) {entries : Entries κ α} (h : entries.Sorted) :
    Sorted (pairs.foldl (fun entries pair => put entries pair.1 pair.2) entries) := by
  induction pairs generalizing entries with
  | nil => exact h
  | cons pair rest ih => exact ih (sorted_put h pair.1 pair.2)

/-- Pairs in any order make up sorted entries. -/
theorem sorted_ofPairs (pairs : List (κ × α)) : (ofPairs pairs).Sorted :=
  sorted_foldl_put pairs sorted_nil

/-- Setting a key to the value that it has changes nothing. -/
theorem put_eq_self {entries : Entries κ α} (h : entries.Sorted) {key : κ} {value : α}
    (hvalue : entries.find? key = some value) : entries.put key value = entries := by
  refine (sorted_put h key value).ext h fun other => ?_
  rw [find?_put]
  split
  · rename_i hother
    rw [hother, hvalue]
  · rfl

/-- Inserting sorted entries one after the other gives them back. -/
theorem Sorted.ofPairs_eq {entries : Entries κ α} (h : entries.Sorted) : ofPairs entries = entries :=
  (sorted_ofPairs entries).ext h fun key => by rw [find?_ofPairs, find?_reverse h.nodup_keys]

end Order

end EditorFormat.Entries
