import EditorFormat.Proofs.Entries
import EditorFormat.Proofs.Json.Steps

/-!
# Reading back what was written

A value that is not nested too deep, whose integers have 64 bits and whose objects are in order is
read back from its written form, provided that its floats are (`reads_pretty`). All values that are
read are of this kind but for their floats (`bounded_of_reads`).
-/

namespace EditorFormat.Json

/-- A value with fewer than `depth` containers inside each other. Its integers have 64 bits, its
objects are in order, and its floats are as required. -/
def Value.Bounded (float : Float → Prop) : Nat → Value → Prop
  | 0, _ => False
  | _ + 1, .null => True
  | _ + 1, .bool _ => True
  | _ + 1, .int n => IsInteger n
  | _ + 1, .float x => float x
  | _ + 1, .string _ => True
  | depth + 1, .array items => depth ≠ 0 ∧ ∀ item ∈ items, Bounded float depth item
  | depth + 1, .object members =>
    depth ≠ 0 ∧ Entries.Sorted members ∧ ∀ member ∈ members, Bounded float depth member.2

namespace Reader

/-! ## Blanks -/

section Blanks

variable {depth : Nat} {text rest : List Char} {found : Value}

/-- There are no blanks behind blanks. -/
theorem dropWhile_blanks_idem (text : List Char) :
    (text.dropWhile isBlank).dropWhile isBlank = text.dropWhile isBlank := by
  induction text with
  | nil => rfl
  | cons c later ih => cases hc : isBlank c <;> simp [hc, ih]

/-- The start of a line is blank. -/
theorem dropWhile_newline (indent : Nat) (text : List Char) :
    (Printer.newline indent ++ text).dropWhile isBlank = text.dropWhile isBlank := by
  have hspaces : ∀ count,
      (List.replicate count ' ' ++ text).dropWhile isBlank = text.dropWhile isBlank := by
    intro count
    induction count with
    | zero => rfl
    | succ count ih => exact ih
  exact hspaces (2 * indent)

/-- A value begins with a token that ends no array. -/
theorem head_of_reads_value (h : Reads (value depth) text found rest) :
    ∃ c later, text.dropWhile isBlank = c :: later ∧ c ≠ ']' := by
  cases depth with
  | zero => exact absurd h not_reads_throw
  | succ depth =>
    rw [value] at h
    obtain ⟨c, _, hpeek, hrest⟩ := reads_bind.1 h
    obtain ⟨later, htoken, rfl⟩ := reads_peekToken.1 hpeek
    refine ⟨c, later, htoken, ?_⟩
    rintro rfl
    exact absurd hrest not_reads_throw

/-- A value is read behind blanks. -/
theorem reads_value_dropWhile :
    Reads (value depth) (text.dropWhile isBlank) found rest ↔ Reads (value depth) text found rest := by
  cases depth with
  | zero => exact ⟨fun h => absurd h not_reads_throw, fun h => absurd h not_reads_throw⟩
  | succ depth =>
    rw [value, reads_bind, reads_bind]
    simp only [reads_peekToken, dropWhile_blanks_idem]

/-- Where the blanks in front of a value are skipped, its first token is left. -/
theorem reads_value_token (h : Reads (value depth) text found rest) :
    ∃ c later, text.dropWhile isBlank = c :: later ∧ c ≠ ']' ∧
      Reads (value depth) (c :: later) found rest := by
  obtain ⟨c, later, htoken, hc⟩ := head_of_reads_value h
  exact ⟨c, later, htoken, hc, htoken ▸ reads_value_dropWhile.2 h⟩

end Blanks

/-! ## Containers -/

section Containers

variable {depth fuel indent : Nat} {text rest : List Char}

/-- An array is read by its items. -/
theorem reads_value_array (hdepth : depth ≠ 0) {items : List Value}
    (h : Reads (Reader.items (value depth) (text.length + 1) true) text items rest) :
    Reads (value (depth + 1)) ('[' :: text) (.array items) rest := by
  rw [value]
  refine reads_bind.2 ⟨'[', _, reads_peekToken.2 ⟨text, rfl, rfl⟩, ?_⟩
  simp only [if_neg hdepth]
  exact reads_advance_bind.2 (reads_get_bind.2 (reads_map.2 ⟨items, h, rfl⟩))

/-- Read the value of a member behind its key. -/
def member (depth : Nat) (members : Object) (key : String) : Reader Object := do
  colon
  return members.put key (← value depth)

/-- An object is read by its members. -/
theorem reads_value_object (hdepth : depth ≠ 0) {members : Object}
    (h : Reads (foldMembers (member depth) (text.length + 1) true []) text members rest) :
    Reads (value (depth + 1)) ('\x7b' :: text) (.object members) rest := by
  rw [value]
  refine reads_bind.2 ⟨'\x7b', _, reads_peekToken.2 ⟨text, rfl, rfl⟩, ?_⟩
  simp only [if_neg hdepth]
  exact reads_advance_bind.2 (reads_get_bind.2 (reads_map.2 ⟨members, h, rfl⟩))

/-- A value is put under its key. -/
theorem reads_member {found : Value} (h : Reads (value depth) text found rest) (members : Object)
    (key : String) :
    Reads (member depth members key) (':' :: ' ' :: text) (members.put key found) rest := by
  have hskipped := reads_value_dropWhile.2 h
  have hvalue : Reads (value depth) (' ' :: text) found rest :=
    reads_value_dropWhile.1 (show Reads _ ((' ' :: text).dropWhile isBlank) _ _ from hskipped)
  exact (reads_colon _).bind_iff.2 (reads_map.2 ⟨found, hvalue, rfl⟩)

/-- No number goes on behind an item. -/
theorem terminated_prettyItems (inner outer : Nat) (items : List Value) (text : List Char) :
    Terminated (Printer.prettyItems inner items ++ (Printer.newline outer ++ text)) := by
  cases items <;> (rintro c ⟨⟩; decide)

/-- No number goes on behind a member. -/
theorem terminated_prettyMembers (indent : Nat) (members : List (String × Value))
    (text : List Char) : Terminated (Printer.prettyMembers indent false members ++ text) := by
  cases members <;> (rintro c ⟨⟩; decide)

/-- Items are read back when each of them is. -/
theorem reads_prettyItems {items : List Value}
    (hitems : ∀ item ∈ items, ∀ rest, Terminated rest →
      Reads (value depth) (Printer.pretty indent item ++ rest) item rest)
    (hfuel : items.length < fuel) (outer : Nat) (rest : List Char) :
    Reads (Reader.items (value depth) fuel false)
      (Printer.prettyItems indent items ++ (Printer.newline outer ++ ']' :: rest)) items rest := by
  induction items generalizing fuel with
  | nil =>
    obtain ⟨fuel, rfl⟩ := Nat.exists_eq_succ_of_ne_zero (Nat.ne_zero_of_lt hfuel)
    exact reads_items_nil (dropWhile_newline outer _)
  | cons first later ih =>
    obtain ⟨fuel, rfl⟩ := Nat.exists_eq_succ_of_ne_zero (Nat.ne_zero_of_lt hfuel)
    have hlater := ih (fun item hitem => hitems item (List.mem_cons_of_mem _ hitem))
      (Nat.lt_of_succ_lt_succ hfuel)
    have hfirst := hitems first List.mem_cons_self _
      (terminated_prettyItems indent outer later (']' :: rest))
    obtain ⟨c, behind, htoken, hc, hvalue⟩ := reads_value_token hfirst
    have htext : Printer.prettyItems indent (first :: later) ++
        (Printer.newline outer ++ ']' :: rest) =
          ',' :: (Printer.newline indent ++ (Printer.pretty indent first ++
            (Printer.prettyItems indent later ++ (Printer.newline outer ++ ']' :: rest)))) := by
      simp [Printer.prettyItems]
    rw [htext]
    exact reads_items_next rfl ((dropWhile_newline indent _).trans htoken) hc hvalue hlater

/-- Members are read back when each of their values is. -/
theorem reads_prettyMembers {members : List (String × Value)}
    (hmembers : ∀ member ∈ members, ∀ rest, Terminated rest →
      Reads (value depth) (Printer.pretty (indent + 1) member.2 ++ rest) member.2 rest)
    (hfuel : members.length < fuel) (isFirst : Bool) (start : Object) (rest : List Char) :
    Reads (foldMembers (member depth) fuel isFirst start)
      (Printer.prettyMembers indent isFirst members ++ rest)
      (members.foldl (fun members member => Entries.put members member.1 member.2) start) rest := by
  induction members generalizing fuel isFirst start with
  | nil =>
    obtain ⟨fuel, rfl⟩ := Nat.exists_eq_succ_of_ne_zero (Nat.ne_zero_of_lt hfuel)
    refine reads_foldMembers_nil ?_
    cases isFirst with
    | true => rfl
    | false => exact (congrArg _ (List.append_assoc ..)).trans (dropWhile_newline indent _)
  | cons first later ih =>
    obtain ⟨fuel, rfl⟩ := Nat.exists_eq_succ_of_ne_zero (Nat.ne_zero_of_lt hfuel)
    obtain ⟨name, found⟩ := first
    have hlater := ih (fun member hmember => hmembers member (List.mem_cons_of_mem _ hmember))
      (Nat.lt_of_succ_lt_succ hfuel) false (start.put name found)
    have hfirst := hmembers _ List.mem_cons_self _
      (terminated_prettyMembers indent later rest)
    have hname := reads_stringTail name (':' :: ' ' :: (Printer.pretty (indent + 1) found ++
      (Printer.prettyMembers indent false later ++ rest)))
    have htext : Printer.prettyMembers indent isFirst ((name, found) :: later) ++ rest =
        (if isFirst then [] else [',']) ++ (Printer.newline (indent + 1) ++
          '"' :: (name.toList.flatMap Printer.char ++ '"' :: ':' :: ' ' ::
            (Printer.pretty (indent + 1) found ++
              (Printer.prettyMembers indent false later ++ rest)))) := by
      simp [Printer.prettyMembers, Printer.string]
    have hquote := dropWhile_newline (indent + 1) ('"' :: (name.toList.flatMap Printer.char ++
      '"' :: ':' :: ' ' :: (Printer.pretty (indent + 1) found ++
        (Printer.prettyMembers indent false later ++ rest))))
    rw [htext]
    cases isFirst with
    | true => exact reads_foldMembers_first hquote hname (reads_member hfirst _ _) hlater
    | false => exact reads_foldMembers_next rfl hquote hname (reads_member hfirst _ _) hlater

/-- Every item is written as one character at least. -/
theorem length_le_prettyItems (indent : Nat) (items : List Value) :
    items.length ≤ (Printer.prettyItems indent items).length := by
  induction items with
  | nil => exact Nat.le_refl 0
  | cons first later ih =>
    simp only [Printer.prettyItems, List.length_append, List.length_cons]
    omega

/-- Every member is written as one character at least. -/
theorem length_le_prettyMembers (indent : Nat) (isFirst : Bool) (members : List (String × Value)) :
    members.length ≤ (Printer.prettyMembers indent isFirst members).length := by
  induction members generalizing isFirst with
  | nil => exact Nat.zero_le _
  | cons first later ih =>
    have hlater := ih false
    simp only [Printer.prettyMembers, Printer.string, List.length_append, List.length_cons]
    omega

end Containers

/-! ## Values -/

section Values

variable {depth : Nat} {text rest : List Char}

/-- A number is read where it begins. -/
theorem reads_value_number {found : Value} (h : Reads number text found rest) (depth : Nat) :
    Reads (value (depth + 1)) text found rest := by
  obtain ⟨c, later, rfl, hc⟩ := head_of_reads_number h
  have hblank := isBlank_of_number_head hc
  rw [value]
  refine reads_bind.2 ⟨c, _, reads_peekToken.2 ⟨later, List.dropWhile_cons_of_neg (by simp [hblank]),
    rfl⟩, ?_⟩
  split
  -- None of the other tokens is a minus or a digit.
  all_goals first
    | exact absurd hc (by decide)
    | rw [if_pos hc]; exact h

/-- A word is read as its value. -/
theorem reads_value_word (depth : Nat) (rest : List Char) :
    Reads (value (depth + 1)) ("null".toList ++ rest) .null rest ∧
      Reads (value (depth + 1)) ("true".toList ++ rest) (.bool true) rest ∧
      Reads (value (depth + 1)) ("false".toList ++ rest) (.bool false) rest := by
  rw [value]
  refine ⟨reads_bind.2 ⟨'n', _, reads_peekToken.2 ⟨_, rfl, rfl⟩, ?_⟩,
    reads_bind.2 ⟨'t', _, reads_peekToken.2 ⟨_, rfl, rfl⟩, ?_⟩,
    reads_bind.2 ⟨'f', _, reads_peekToken.2 ⟨_, rfl, rfl⟩, ?_⟩⟩
  all_goals exact reads_bind.2 ⟨(), rest, reads_word.2 rfl, reads_pure.2 ⟨rfl, rfl⟩⟩

/-- A string is read back from its written form. -/
theorem reads_value_string (depth : Nat) (text : String) (rest : List Char) :
    Reads (value (depth + 1)) (Printer.string text ++ rest) (.string text) rest := by
  rw [value, string_append]
  refine reads_bind.2 ⟨'"', _, reads_peekToken.2 ⟨_, rfl, rfl⟩, ?_⟩
  exact reads_advance_bind.2 (reads_map.2 ⟨text, reads_stringTail text rest, rfl⟩)

/-- An array is read back from its written form if its items are. -/
theorem reads_prettyArray {items : List Value} {indent : Nat} (hdepth : depth ≠ 0)
    (hread : ∀ item ∈ items, ∀ rest, Terminated rest →
      Reads (value depth) (Printer.pretty (indent + 1) item ++ rest) item rest)
    (rest : List Char) :
    Reads (value (depth + 1)) (Printer.pretty indent (.array items) ++ rest) (.array items) rest := by
  cases items with
  | nil => exact reads_value_array hdepth (reads_items_nil rfl)
  | cons first later =>
    obtain ⟨c, behind, htoken, hc, hfirst⟩ := reads_value_token
      (hread first List.mem_cons_self _
        (terminated_prettyItems (indent + 1) indent later (']' :: rest)))
    have htext : Printer.pretty indent (.array (first :: later)) ++ rest =
        '[' :: (Printer.newline (indent + 1) ++ (Printer.pretty (indent + 1) first ++
          (Printer.prettyItems (indent + 1) later ++
            (Printer.newline indent ++ ']' :: rest)))) := by
      simp [Printer.pretty]
    rw [htext]
    refine reads_value_array hdepth (reads_items_first
      ((dropWhile_newline (indent + 1) _).trans htoken) hc hfirst (reads_prettyItems
        (fun item hitem => hread item (List.mem_cons_of_mem _ hitem)) ?_ indent rest))
    have hlength := length_le_prettyItems (indent + 1) later
    simp only [List.length_append, List.length_cons]
    omega

/-- An object with members in any order is read back from its written form if its values are. -/
theorem reads_prettyObject {members : List (String × Value)} {indent : Nat} (hdepth : depth ≠ 0)
    (hread : ∀ member ∈ members, ∀ rest, Terminated rest →
      Reads (value depth) (Printer.pretty (indent + 1) member.2 ++ rest) member.2 rest)
    (rest : List Char) :
    Reads (value (depth + 1)) (Printer.pretty indent (.object members) ++ rest)
      (.ofMembers members) rest := by
  have hlength := length_le_prettyMembers indent true members
  have hfuel : members.length < (Printer.prettyMembers indent true members ++ rest).length + 1 := by
    rw [List.length_append]
    omega
  exact reads_value_object hdepth (reads_prettyMembers hread hfuel true [] rest)

/-- Values are read back from their written form. -/
theorem reads_pretty {found : Value} (h : found.Bounded ReadsBack depth) (indent : Nat)
    (hrest : Terminated rest) :
    Reads (value depth) (Printer.pretty indent found ++ rest) found rest := by
  induction depth generalizing found indent rest with
  | zero => exact absurd h id
  | succ depth ih =>
    cases found with
    | null => exact (reads_value_word depth rest).1
    | bool value =>
      cases value with
      | true => exact (reads_value_word depth rest).2.1
      | false => exact (reads_value_word depth rest).2.2
    | int n => exact reads_value_number (local_number _ _ _ (reads_int h) rest hrest) depth
    | float x => exact reads_value_number (local_number _ _ _ h rest hrest) depth
    | string text => exact reads_value_string depth text rest
    | array items =>
      obtain ⟨hdepth, hitems⟩ := h
      exact reads_prettyArray hdepth
        (fun item hitem rest hrest => ih (hitems item hitem) (indent + 1) hrest) rest
    | object members =>
      obtain ⟨hdepth, hsorted, hmembers⟩ := h
      have hobject := reads_prettyObject hdepth
        (fun member hmember rest hrest => ih (hmembers member hmember) (indent + 1) hrest) rest
      rwa [Value.ofMembers, Entries.Sorted.ofPairs_eq hsorted] at hobject

/-- The written form of an object with members in any order is read back. -/
theorem read_prettyObject {members : List (String × Value)}
    (h : ∀ member ∈ members, member.2.Bounded ReadsBack (depthLimit - 1)) :
    Value.read (prettyObject members) = .ok (.ofMembers members) := by
  have hobject := reads_prettyObject (by decide)
    (fun member hmember rest hrest => reads_pretty (h member hmember) 1 hrest) []
  refine run_eq_ok_iff.2 ⟨[], ?_, rfl⟩
  rw [List.append_nil] at hobject
  rwa [prettyObject, String.toList_ofList]

/-! ## What is read -/

/-- There is no item, or the first one is read before the others. -/
theorem reads_items_cases {α : Type} {item : Reader α} {fuel : Nat} {isFirst : Bool}
    {values : List α} (h : Reads (items item (fuel + 1) isFirst) text values rest) :
    values = [] ∨ ∃ first later before middle, values = first :: later ∧
      Reads item before first middle ∧ Reads (items item fuel false) middle later rest := by
  rw [items] at h
  obtain ⟨c, behind, -, h⟩ := reads_bind.1 h
  have hrest {text : List Char} (h : Reads (do
      let first ← item
      let later ← items item fuel false
      pure (first :: later)) text values rest) :
      ∃ first later before middle, values = first :: later ∧
        Reads item before first middle ∧ Reads (items item fuel false) middle later rest := by
    obtain ⟨first, middle, hfirst, h⟩ := reads_bind.1 h
    obtain ⟨later, hlater, hvalues⟩ := reads_map.1 h
    exact ⟨first, later, text, middle, hvalues, hfirst, hlater⟩
  split at h
  · obtain ⟨_, _, -, h⟩ := reads_bind.1 h
    exact .inl (reads_pure.1 h).1
  · refine .inr ?_
    cases isFirst with
    | true => exact hrest h
    | false =>
      by_cases hc : c = ','
      · simp only [Bool.not_false, if_true, if_pos hc] at h
        obtain ⟨next, middle, -, h⟩ := reads_bind.1 (reads_advance_bind.1 h)
        by_cases hnext : next = ']'
        · simp only [if_pos hnext] at h
          exact absurd h not_reads_throw_bind
        · simp only [if_neg hnext] at h
          exact hrest h
      · simp only [Bool.not_false, if_true, if_neg hc] at h
        exact absurd h not_reads_throw_bind

/-- The items of an array were each read. -/
theorem reads_of_mem_items {α : Type} {item : Reader α} {fuel : Nat} {isFirst : Bool}
    {values : List α} (h : Reads (items item fuel isFirst) text values rest) {value : α}
    (hvalue : value ∈ values) : ∃ before after, Reads item before value after := by
  induction fuel generalizing text isFirst values with
  | zero => exact absurd h not_reads_throw
  | succ fuel ih =>
    rcases reads_items_cases h with rfl | ⟨first, later, before, middle, rfl, hfirst, hlater⟩
    · exact absurd hvalue List.not_mem_nil
    · rcases List.mem_cons.1 hvalue with rfl | hmem
      · exact ⟨before, middle, hfirst⟩
      · exact ih hlater hmem

/-- There is no member, or one step is made before the others. -/
theorem reads_foldMembers_cases {κ σ : Type} {key : Reader κ} {step : σ → κ → Reader σ} {fuel : Nat}
    {isFirst : Bool} {state last : σ}
    (h : Reads (foldMembersBy key step (fuel + 1) isFirst state) text last rest) :
    last = state ∨ ∃ name next before middle, Reads (step state name) before next middle ∧
      Reads (foldMembersBy key step fuel false next) middle last rest := by
  rw [foldMembersBy] at h
  obtain ⟨c, behind, -, h⟩ := reads_bind.1 h
  have hrest {text : List Char} (h : Reads (do
      if (← peekToken) = '"' then
        advance
        foldMembersBy key step fuel false (← step state (← key))
      else throw .malformed) text last rest) :
      ∃ name next before middle, Reads (step state name) before next middle ∧
        Reads (foldMembersBy key step fuel false next) middle last rest := by
    obtain ⟨c, middle, -, h⟩ := reads_bind.1 h
    by_cases hc : c = '"'
    · rw [if_pos hc] at h
      obtain ⟨name, before, -, h⟩ := reads_bind.1 (reads_advance_bind.1 h)
      obtain ⟨next, middle, hstep, hlater⟩ := reads_bind.1 h
      exact ⟨name, next, before, middle, hstep, hlater⟩
    · rw [if_neg hc] at h
      exact absurd h not_reads_throw
  split at h
  · obtain ⟨_, _, -, h⟩ := reads_bind.1 h
    exact .inl (reads_pure.1 h).1
  · refine .inr ?_
    cases isFirst with
    | true => exact hrest h
    | false =>
      by_cases hc : c = ','
      · simp only [Bool.not_false, if_true, if_pos hc] at h
        exact hrest (reads_advance_bind.1 h)
      · simp only [Bool.not_false, if_true, if_neg hc] at h
        exact absurd h not_reads_throw_bind

/-- What every step keeps holds when all members are read. -/
theorem foldMembers_keeps {κ σ : Type} {key : Reader κ} {step : σ → κ → Reader σ}
    (keeps : σ → Prop)
    (hstep : ∀ state name before next after, keeps state → Reads (step state name) before next after →
      keeps next)
    {fuel : Nat} {isFirst : Bool} {state last : σ} (hstart : keeps state)
    (h : Reads (foldMembersBy key step fuel isFirst state) text last rest) : keeps last := by
  induction fuel generalizing text isFirst state with
  | zero => exact absurd h not_reads_throw
  | succ fuel ih =>
    rcases reads_foldMembers_cases h with rfl | ⟨name, next, before, middle, hnext, hlater⟩
    · exact hstart
    · exact ih (hstep _ _ _ _ _ hstart hnext) hlater

/-- A member that is read keeps an object in order and bounded. -/
theorem bounded_of_reads_member
    (ih : ∀ {text rest : List Char} {found : Value}, Reads (value depth) text found rest →
      found.Bounded (fun _ => True) depth)
    {members next : Object} {name : String} (h : Reads (member depth members name) text next rest)
    (hmembers : members.Sorted ∧ ∀ member ∈ members, member.2.Bounded (fun _ => True) depth) :
    next.Sorted ∧ ∀ member ∈ next, member.2.Bounded (fun _ => True) depth := by
  obtain ⟨_, middle, -, h⟩ := reads_bind.1 h
  obtain ⟨found, hfound, rfl⟩ := reads_map.1 h
  refine ⟨Entries.sorted_put hmembers.1 name found, fun member hmember => ?_⟩
  rcases Entries.mem_put hmember with rfl | hmem
  · exact ih hfound
  · exact hmembers.2 member hmem

/-- Values that are read are not nested too deep, their integers have 64 bits and their objects are
in order. -/
theorem bounded_of_reads {found : Value} (h : Reads (value depth) text found rest) :
    found.Bounded (fun _ => True) depth := by
  induction depth generalizing text found rest with
  | zero => exact absurd h not_reads_throw
  | succ depth ih =>
    rw [value] at h
    obtain ⟨c, behind, -, h⟩ := reads_bind.1 h
    split at h
    -- The words, and a string.
    iterate 3
      · obtain ⟨_, _, -, h⟩ := reads_bind.1 h
        obtain ⟨rfl, -⟩ := reads_pure.1 h
        exact trivial
    · obtain ⟨text, -, rfl⟩ := reads_map.1 (reads_advance_bind.1 h)
      exact trivial
    · by_cases hdepth : depth = 0
      · simp only [if_pos hdepth] at h
        exact absurd h not_reads_throw_bind
      · simp only [if_neg hdepth] at h
        obtain ⟨items, hitems, rfl⟩ := reads_map.1 (reads_get_bind.1 (reads_advance_bind.1 h))
        refine ⟨hdepth, fun item hitem => ?_⟩
        obtain ⟨before, after, hread⟩ := reads_of_mem_items hitems hitem
        exact ih hread
    · by_cases hdepth : depth = 0
      · simp only [if_pos hdepth] at h
        exact absurd h not_reads_throw_bind
      · simp only [if_neg hdepth] at h
        obtain ⟨members, hmembers, rfl⟩ := reads_map.1 (reads_get_bind.1 (reads_advance_bind.1 h))
        exact ⟨hdepth, foldMembers_keeps _
          (fun _ _ _ _ _ hkept hnext => bounded_of_reads_member ih hnext hkept)
          ⟨Entries.sorted_nil, nofun⟩ hmembers⟩
    · by_cases hc : c = '-' ∨ c.isDigit
      · rw [if_pos hc] at h
        cases isNumber_of_reads h with
        | int hn => exact hn
        | float x => exact trivial
      · rw [if_neg hc] at h
        exact absurd h not_reads_throw

end Values

end Reader

namespace Value

/-- A float occurs in a value. -/
inductive HasFloat (x : Float) : Value → Prop where
  | here : HasFloat x (.float x)
  | item {items : List Value} {item : Value} (hitem : item ∈ items) (h : HasFloat x item) :
      HasFloat x (.array items)
  | member {members : List (String × Value)} {member : String × Value}
      (hmember : member ∈ members) (h : HasFloat x member.2) : HasFloat x (.object members)

/-- What is required of floats may be required of those that occur. -/
theorem Bounded.of_floats {some all : Float → Prop} {depth : Nat} {value : Value}
    (h : value.Bounded some depth) (hall : ∀ x, value.HasFloat x → all x) :
    value.Bounded all depth := by
  induction depth generalizing value with
  | zero => exact absurd h id
  | succ depth ih =>
    cases value with
    | float x => exact hall x .here
    | array items =>
      obtain ⟨hdepth, hitems⟩ := h
      exact ⟨hdepth, fun item hitem =>
        ih (hitems item hitem) fun x hx => hall x (.item hitem hx)⟩
    | object members =>
      obtain ⟨hdepth, hsorted, hmembers⟩ := h
      exact ⟨hdepth, hsorted, fun member hmember =>
        ih (hmembers member hmember) fun x hx => hall x (.member hmember hx)⟩
    | _ => exact h

/-- The members of an object in a text are in order and not nested too deep. -/
theorem bounded_of_read {text : String} {members : Object} (h : read text = .ok (.object members)) :
    members.Sorted ∧
      ∀ member ∈ members, member.2.Bounded (fun _ => True) (Reader.depthLimit - 1) := by
  obtain ⟨rest, hread, -⟩ := Reader.run_eq_ok_iff.1 h
  exact (Reader.bounded_of_reads hread).2

end Value

end EditorFormat.Json
