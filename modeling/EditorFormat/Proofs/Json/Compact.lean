import EditorFormat.Proofs.Json.Grammar

/-!
# Reading compact texts

The compact text of a value without floats is read back (`reads_compact`). The members of an object
may be read by any step; what the step makes of one member says what is read of all of them, and
whether they are read at all (`reads_foldMembers_compact`).
-/

namespace EditorFormat.Json.Reader

open Printer (compact)

/-! ## Members -/

/-- Where a member begins, its key is read, then a step is made, then the other members are read. -/
theorem reads_foldMembersBy_cons {κ σ : Type} {key : Reader κ} {step : σ → κ → Reader σ}
    {fuel : Nat} {isFirst : Bool} {state last : σ} {text after : List Char} :
    Reads (foldMembersBy key step (fuel + 1) isFirst state)
        ((if isFirst then [] else [',']) ++ '"' :: text) last after ↔
      ∃ name middle, Reads key text name middle ∧
        ∃ next behind, Reads (step state name) middle next behind ∧
          Reads (foldMembersBy key step fuel false next) behind last after := by
  have hquote := reads_peekToken_cons (c := '"') rfl text
  have hmember : Reads (do
      if (← peekToken) = '"' then
        advance
        foldMembersBy key step fuel false (← step state (← key))
      else throw .malformed) ('"' :: text) last after ↔
        ∃ name middle, Reads key text name middle ∧
          ∃ next behind, Reads (step state name) middle next behind ∧
            Reads (foldMembersBy key step fuel false next) behind last after := by
    rw [hquote.bind_iff, if_pos rfl, reads_advance_bind, List.tail_cons, reads_bind]
    simp only [reads_bind]
  cases isFirst with
  | true => exact hquote.bind_iff.trans hmember
  | false => exact (reads_peekToken_cons rfl _).bind_iff.trans hmember

section Members

variable {σ : Type} {step : σ → String → Reader σ} {take : σ → String × Value → Option σ}
  {fuel : Nat}

/-- The members that begin an object, or that follow a member. -/
def compactRest (isFirst : Bool) (members : List (String × Value)) : List Char :=
  if isFirst then commaSeparated (members.map compactMember)
  else (members.map compactMember).flatMap fun element => ',' :: element

/-- The first member of an object, or one that follows a comma. -/
theorem compactRest_cons (isFirst : Bool) (member : String × Value)
    (later : List (String × Value)) (rest : List Char) :
    compactRest isFirst (member :: later) ++ '\x7d' :: rest =
      (if isFirst then [] else [',']) ++ '"' :: (member.1.toList.flatMap Printer.char ++
        '"' :: ':' :: (compact member.2 ++ (compactRest false later ++ '\x7d' :: rest))) := by
  cases isFirst <;> simp [compactRest, commaSeparated, compactMember, Printer.string]

/-- No number goes on behind a member. -/
theorem terminated_compactRest (members : List (String × Value)) (rest : List Char) :
    Terminated (compactRest false members ++ '\x7d' :: rest) := by
  cases members <;> (rintro c ⟨⟩; decide)

/-- Members are read by a step exactly as the step takes one after the other. -/
theorem reads_foldMembers_compact {members : List (String × Value)}
    (hstep : ∀ state, ∀ member ∈ members, ∀ rest, Terminated rest → ∀ next after,
      Reads (step state member.1) (':' :: (compact member.2 ++ rest)) next after ↔
        take state member = some next ∧ after = rest)
    (hfuel : members.length < fuel) (isFirst : Bool) (state : σ) (rest : List Char) (last : σ)
    (after : List Char) :
    Reads (foldMembers step fuel isFirst state)
        (compactRest isFirst members ++ '\x7d' :: rest) last after ↔
      members.foldlM take state = some last ∧ after = rest := by
  induction members generalizing fuel isFirst state with
  | nil =>
    obtain ⟨fuel, rfl⟩ := Nat.exists_eq_succ_of_ne_zero (Nat.ne_zero_of_lt hfuel)
    have hread : Reads (foldMembers step (fuel + 1) isFirst state)
        (compactRest isFirst [] ++ '\x7d' :: rest) state rest := by
      refine reads_foldMembers_nil ?_
      cases isFirst <;> rfl
    constructor
    · intro h
      obtain ⟨rfl, rfl⟩ := hread.unique h
      exact ⟨rfl, rfl⟩
    · rintro ⟨hlast, rfl⟩
      exact Option.some.inj hlast ▸ hread
  | cons member later ih =>
    obtain ⟨fuel, rfl⟩ := Nat.exists_eq_succ_of_ne_zero (Nat.ne_zero_of_lt hfuel)
    have hlater := ih (fun state other hother => hstep state other (List.mem_cons_of_mem _ hother))
      (Nat.lt_of_succ_lt_succ hfuel) false
    have hfirst := fun next behind => hstep state member List.mem_cons_self _
      (terminated_compactRest later rest) next behind
    have hkey := reads_stringTail member.1
      (':' :: (compact member.2 ++ (compactRest false later ++ '\x7d' :: rest)))
    rw [compactRest_cons, List.foldlM_cons, Option.bind_eq_bind, Option.bind_eq_some_iff]
    refine reads_foldMembersBy_cons.trans ?_
    -- the key can be read in one way only, and the step reads just what it takes
    constructor
    · rintro ⟨name, middle, hname, next, behind, hnext, hlast⟩
      obtain ⟨rfl, rfl⟩ := hkey.unique hname
      obtain ⟨htake, rfl⟩ := (hfirst next behind).1 hnext
      obtain ⟨hfold, hafter⟩ := (hlater next).1 hlast
      exact ⟨⟨next, htake, hfold⟩, hafter⟩
    · rintro ⟨⟨next, htake, hfold⟩, hafter⟩
      exact ⟨member.1, _, hkey, next, _, (hfirst next _).2 ⟨htake, rfl⟩,
        (hlater next).2 ⟨hfold, hafter⟩⟩

end Members

/-! ## Values -/

section Values

variable {depth fuel : Nat} {rest : List Char}

/-- An integer is read back. -/
theorem reads_compact_int {n : Int} (h : (Value.int n).Bounded (fun _ => False) depth)
    (hrest : Terminated rest) : Reads number (compact (.int n) ++ rest) (.int n) rest := by
  cases depth with
  | zero => exact absurd h id
  | succ depth => exact local_number _ _ _ (reads_int h) rest hrest

/-- No number goes on behind an item. -/
theorem terminated_compactItems (items : List Value) (rest : List Char) :
    Terminated (Printer.compactItems items ++ ']' :: rest) := by
  cases items <;> (rintro c ⟨⟩; decide)

/-- Items are read back when each of them is. -/
theorem reads_compactItems {items : List Value}
    (hitems : ∀ item ∈ items, ∀ rest, Terminated rest →
      Reads (value depth) (compact item ++ rest) item rest)
    (hfuel : items.length < fuel) (rest : List Char) :
    Reads (Reader.items (value depth) fuel false)
      (Printer.compactItems items ++ ']' :: rest) items rest := by
  induction items generalizing fuel with
  | nil =>
    obtain ⟨fuel, rfl⟩ := Nat.exists_eq_succ_of_ne_zero (Nat.ne_zero_of_lt hfuel)
    exact reads_items_nil rfl
  | cons first later ih =>
    obtain ⟨fuel, rfl⟩ := Nat.exists_eq_succ_of_ne_zero (Nat.ne_zero_of_lt hfuel)
    have hlater := ih (fun item hitem => hitems item (List.mem_cons_of_mem _ hitem))
      (Nat.lt_of_succ_lt_succ hfuel)
    have hfirst := hitems first List.mem_cons_self _ (terminated_compactItems later rest)
    obtain ⟨c, behind, htoken, hc, hvalue⟩ := reads_value_token hfirst
    rw [Printer.compactItems, List.cons_append, List.cons_append, List.append_assoc]
    exact reads_items_next rfl htoken hc hvalue hlater

/-- Every item is written as one character at least. -/
theorem length_le_compactItems (items : List Value) :
    items.length ≤ (Printer.compactItems items).length := by
  induction items with
  | nil => exact Nat.le_refl 0
  | cons first later ih =>
    simp only [Printer.compactItems, List.length_append, List.length_cons]
    omega

/-- An array is read back from its written form if its items are. -/
theorem reads_compactArray {items : List Value} (hdepth : depth ≠ 0)
    (hitems : ∀ item ∈ items, ∀ rest, Terminated rest →
      Reads (value depth) (compact item ++ rest) item rest) (rest : List Char) :
    Reads (value (depth + 1)) (compact (.array items) ++ rest) (.array items) rest := by
  cases items with
  | nil => exact reads_value_array hdepth (reads_items_nil rfl)
  | cons first later =>
    obtain ⟨c, behind, htoken, hc, hfirst⟩ := reads_value_token
      (hitems first List.mem_cons_self _ (terminated_compactItems later rest))
    have htext : compact (.array (first :: later)) ++ rest =
        '[' :: (compact first ++ (Printer.compactItems later ++ ']' :: rest)) := by
      simp [compact]
    rw [htext]
    refine reads_value_array hdepth (reads_items_first htoken hc hfirst (reads_compactItems
      (fun item hitem => hitems item (List.mem_cons_of_mem _ hitem)) ?_ rest))
    have hlength := length_le_compactItems later
    simp only [List.length_append, List.length_cons]
    omega

/-- There is enough text for the members of an object. -/
theorem length_lt_compactRest (members : List (String × Value)) (rest : List Char) :
    members.length < (compactRest true members ++ '\x7d' :: rest).length + 1 := by
  have hlength := length_le_length_commaSeparated (members.map compactMember)
  simp only [compactRest, if_true, List.length_map, List.length_append, List.length_cons]
    at hlength ⊢
  omega

/-- The compact text of an object goes on with its members behind the brace. -/
theorem compact_object_append (members : List (String × Value)) (rest : List Char) :
    compact (.object members) ++ rest =
      '\x7b' :: (compactRest true members ++ '\x7d' :: rest) := by
  rw [compact_object, compactRest, if_pos rfl, List.cons_append, List.append_assoc,
    List.singleton_append]

/-- An object in order is read back from its written form if its values are. -/
theorem reads_compactObject {members : Object} (hdepth : depth ≠ 0) (hsorted : members.Sorted)
    (hmembers : ∀ member ∈ members, ∀ rest, Terminated rest →
      Reads (value depth) (compact member.2 ++ rest) member.2 rest) (rest : List Char) :
    Reads (value (depth + 1)) (compact (.object members) ++ rest) (.object members) rest := by
  have hstep (state : Object) (member : String × Value) (hmember : member ∈ members)
      (rest : List Char) (hrest : Terminated rest) (next : Object) (after : List Char) :
      Reads (Reader.member depth state member.1) (':' :: (compact member.2 ++ rest)) next after ↔
        some (state.put member.1 member.2) = some next ∧ after = rest := by
    refine (reads_colon _).bind_iff.trans ?_
    refine (hmembers member hmember rest hrest).bind_iff.trans ?_
    rw [reads_pure, Option.some_inj, eq_comm]
  rw [compact_object_append]
  refine reads_value_object hdepth ((reads_foldMembers_compact hstep
    (length_lt_compactRest members rest) true [] rest members rest).2 ⟨?_, rfl⟩)
  exact List.foldlM_pure.trans (congrArg some hsorted.ofPairs_eq)

/-- Values without floats are read back from their compact text. -/
theorem reads_compact {found : Value} (h : found.Bounded (fun _ => False) depth)
    (hrest : Terminated rest) : Reads (value depth) (compact found ++ rest) found rest := by
  induction depth generalizing found rest with
  | zero => exact absurd h id
  | succ depth ih =>
    cases found with
    | null => exact (reads_value_word depth rest).1
    | bool value =>
      cases value with
      | true => exact (reads_value_word depth rest).2.1
      | false => exact (reads_value_word depth rest).2.2
    | int n => exact reads_value_number (reads_compact_int h hrest) depth
    | float x => exact absurd h id
    | string text => exact reads_value_string depth text rest
    | array items =>
      exact reads_compactArray h.1 (fun item hitem rest hrest => ih (h.2 item hitem) hrest) rest
    | object members =>
      exact reads_compactObject h.1 h.2.1
        (fun member hmember rest hrest => ih (h.2.2 member hmember) hrest) rest

end Values

end EditorFormat.Json.Reader
