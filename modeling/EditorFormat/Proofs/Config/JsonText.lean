import EditorFormat.Config.JsonText
import EditorFormat.Proofs.Json.Compact
import EditorFormat.Proofs.Options.Members

/-!
# Options in compact texts

Options are read off a text while it is read, and from a value after all of it was read. Both agree
on the compact text of an object without floats (`ofJson_compact`): what is not an option's value is
found not to be one at the first token that differs, and the members are taken in the same order.
-/

namespace EditorFormat.Config

open Json (Value Object IsInteger)
open Json.Reader
open Json.Printer (compact)

variable {depth : Nat} {value : Value} {rest after : List Char}

/-! ## The first token -/

/-- The characters that a written value may begin with. -/
def opens : Value → Char → Bool
  | .null, c => c = 'n'
  | .bool _, c => c = 't' ∨ c = 'f'
  | .int _, c => c = '-' ∨ c.isDigit
  | .float _, _ => false
  | .string _, c => c = '"'
  | .array _, c => c = '['
  | .object _, c => c = '\x7b'

/-- A value without floats is seen by its first character. -/
theorem exists_opens (h : value.Bounded (fun _ => False) depth) (rest : List Char) :
    ∃ c, opens value c = true ∧
      Reads peekToken (compact value ++ rest) c (compact value ++ rest) := by
  cases depth with
  | zero => exact absurd h id
  | succ depth =>
    cases value with
    | null => exact ⟨'n', rfl, reads_peekToken_cons rfl _⟩
    | bool flag =>
      cases flag with
      | true => exact ⟨'t', rfl, reads_peekToken_cons rfl _⟩
      | false => exact ⟨'f', rfl, reads_peekToken_cons rfl _⟩
    | int n =>
      obtain ⟨c, later, htext, hc⟩ := head_of_reads_number (reads_int h)
      refine ⟨c, by simp [opens, hc], ?_⟩
      show Reads peekToken (Json.Printer.int n ++ rest) c (Json.Printer.int n ++ rest)
      rw [htext]
      exact reads_peekToken_cons (isBlank_of_number_head hc) _
    | float x => exact absurd h id
    | string text => exact ⟨'"', rfl, reads_peekToken_cons rfl _⟩
    | array items =>
      rw [Json.compact_array]
      exact ⟨'[', rfl, reads_peekToken_cons rfl _⟩
    | object members =>
      rw [Json.compact_object]
      exact ⟨'\x7b', rfl, reads_peekToken_cons rfl _⟩

/-- Only null begins as its word does. -/
theorem eq_null_of_opens {c : Char} (h : opens value c = true) (hc : c = 'n') : value = .null := by
  subst hc
  cases value with
  | null => rfl
  | _ => exact absurd h (by simp [opens])

/-- Only an integer begins with a minus or a digit. -/
theorem exists_int_of_opens {c : Char} (h : opens value c = true) (hc : c = '-' ∨ c.isDigit) :
    ∃ n, value = .int n := by
  cases value with
  | int n => exact ⟨n, rfl⟩
  | float x => exact absurd h nofun
  | bool flag =>
    rcases of_decide_eq_true h with rfl | rfl
    · exact absurd hc (by decide)
    · exact absurd hc (by decide)
  | _ =>
    obtain rfl := of_decide_eq_true h
    exact absurd hc (by decide)

/-! ## Values of options -/

/-- Nothing is read where a value is not of the wanted type. -/
theorem not_reads_mismatch {α : Type} {expected : Json.Expected} {found : α} {text : List Char} :
    ¬ Reads (mismatch expected) text found after := by
  intro h
  obtain ⟨c, _, -, h⟩ := reads_bind.1 h
  split at h
  · obtain ⟨_, _, -, h⟩ := reads_bind.1 h
    exact not_reads_throw h
  · obtain ⟨_, _, -, h⟩ := reads_bind.1 h
    exact not_reads_throw h
  · obtain ⟨_, _, -, h⟩ := reads_bind.1 h
    exact not_reads_throw h
  · obtain ⟨_, _, -, h⟩ := reads_bind.1 (reads_advance_bind.1 h)
    exact not_reads_throw h
  · exact not_reads_throw h
  · exact not_reads_throw h
  · split at h
    · obtain ⟨_, _, -, h⟩ := reads_bind.1 h
      exact not_reads_throw h
    · exact not_reads_throw h

/-- A decision is read off no text. -/
theorem reads_decided {α : Type} {result : Except Json.DecodeError α} {found : α}
    {text : List Char} :
    Reads (decided result) text found after ↔ result = .ok found ∧ after = text := by
  cases result with
  | ok value => exact reads_pure.trans (and_congr_left' (by rw [Except.ok.injEq, eq_comm]))
  | error cause => exact ⟨nofun, nofun⟩

/-- A flag is read exactly where it is one. -/
theorem reads_flag (h : value.Bounded (fun _ => False) depth) (rest : List Char) (found : Bool) :
    Reads (optionValue .flag) (compact value ++ rest) found after ↔
      value.decodeBool = .ok found ∧ after = rest := by
  cases value with
  | bool flag =>
    cases flag with
    | true =>
      refine (reads_peekToken_cons (by decide) _).bind_iff.trans ?_
      refine (reads_word_append ['t', 'r', 'u', 'e'] rest).bind_iff.trans ?_
      simp [Value.decodeBool, eq_comm]
    | false =>
      refine (reads_peekToken_cons (by decide) _).bind_iff.trans ?_
      refine (reads_word_append ['f', 'a', 'l', 's', 'e'] rest).bind_iff.trans ?_
      simp [Value.decodeBool, eq_comm]
  | _ =>
    -- nothing else begins like the word of a flag
    obtain ⟨c, hopens, hpeek⟩ := exists_opens h rest
    refine hpeek.bind_iff.trans ⟨fun hread => ?_, nofun⟩
    split at hread
    · simp [opens] at hopens
    · simp [opens] at hopens
    · exact absurd hread not_reads_mismatch

/-- A number is read exactly where it is one of the wanted type. -/
theorem reads_wholeNumber (h : value.Bounded (fun _ => False) depth) {type : OptionType}
    (hscalar : ∀ {value found}, type.decode value = .ok found → ∃ n, value = .int n)
    (hrest : Terminated rest) (expected : Json.Expected) (found : type.Value) :
    Reads (wholeNumber type expected) (compact value ++ rest) found after ↔
      type.decode value = .ok found ∧ after = rest := by
  obtain ⟨c, hopens, hpeek⟩ := exists_opens h rest
  refine hpeek.bind_iff.trans ?_
  by_cases hc : c = '-' ∨ c.isDigit
  · rw [if_pos hc]
    obtain ⟨n, rfl⟩ := exists_int_of_opens hopens hc
    exact (reads_compact_int h hrest).bind_iff.trans reads_decided
  · rw [if_neg hc]
    refine ⟨fun hread => absurd hread not_reads_mismatch, fun hdecode => ?_⟩
    obtain ⟨n, rfl⟩ := hscalar hdecode.1
    exact absurd (by simpa [opens] using hopens) hc

/-- Behind the colon of a choice that is given as an object there is null, and the object ends. -/
theorem reads_choiceEnd (h : value.Bounded (fun _ => False) depth) (others : Object)
    (rest : List Char) {α : Type} (chosen found : α) :
    Reads (do
        if (← peekToken) ≠ 'n' then mismatch .nothing
        else
          word ['n', 'u', 'l', 'l']
          if (← peekToken) = '\x7d' then advance; pure chosen else throw .malformed)
        (compact value ++ (compactRest false others ++ '\x7d' :: rest)) found after ↔
      (value = .null ∧ others = []) ∧ found = chosen ∧ after = rest := by
  obtain ⟨c, hopens, hpeek⟩ := exists_opens h (compactRest false others ++ '\x7d' :: rest)
  refine hpeek.bind_iff.trans ?_
  by_cases hc : c = 'n'
  · obtain rfl := eq_null_of_opens hopens hc
    rw [if_neg (not_not_intro hc)]
    refine (reads_word_append ['n', 'u', 'l', 'l'] _).bind_iff.trans ?_
    cases others with
    | nil =>
      refine (reads_peekToken_cons (by decide) rest).bind_iff.trans ?_
      rw [if_pos rfl]
      exact reads_advance_bind.trans (reads_pure.trans (by simp))
    | cons other later =>
      refine (reads_peekToken_cons (by decide) _).bind_iff.trans ?_
      rw [if_neg (by decide)]
      exact ⟨nofun, fun hread => absurd hread.1.2 nofun⟩
  · rw [if_pos hc]
    refine ⟨fun hread => absurd hread not_reads_mismatch, ?_⟩
    rintro ⟨⟨rfl, -⟩, -⟩
    exact absurd (of_decide_eq_true hopens) hc

/-- A choice that is given as an object is read exactly where it is one. -/
theorem reads_choiceObject {members : Object}
    (h : ∀ member ∈ members, member.2.Bounded (fun _ => False) depth) (names : List String)
    (rest : List Char) (found : { name : String // name ∈ names }) :
    Reads (choice names) (compact (.object members) ++ rest) found after ↔
      OptionType.decodeChoice names (.object members) = .ok found ∧ after = rest := by
  rw [compact_object_append]
  refine (reads_peekToken_cons (by decide) _).bind_iff.trans (reads_advance_bind.trans ?_)
  rw [List.tail_cons]
  cases members with
  | nil =>
    refine (reads_peekToken_cons (by decide) rest).bind_iff.trans ?_
    rw [if_pos (by decide)]
    exact ⟨fun hread => absurd hread not_reads_mismatch, nofun⟩
  | cons member others =>
    obtain ⟨name, value⟩ := member
    rw [compactRest_cons, OptionType.decodeChoice_object]
    refine (reads_peekToken_cons (by decide) _).bind_iff.trans ?_
    rw [if_neg (by decide)]
    refine reads_advance_bind.trans ((reads_stringTail name _).bind_iff.trans ?_)
    cases OptionType.choose names name with
    | error cause => exact ⟨fun hread => absurd hread not_reads_throw_bind, nofun⟩
    | ok chosen =>
      refine (reads_decided.2 ⟨rfl, rfl⟩).bind_iff.trans ((reads_colon _).bind_iff.trans ?_)
      refine (reads_choiceEnd (h _ List.mem_cons_self) others rest chosen found).trans ?_
      constructor
      · rintro ⟨hvalue, rfl, hafter⟩
        exact ⟨⟨rfl, hvalue⟩, hafter⟩
      · rintro ⟨⟨hchosen, hvalue⟩, hafter⟩
        exact ⟨hvalue, (Except.ok.inj hchosen).symm, hafter⟩

/-- A choice is read exactly where it is one. -/
theorem reads_choice (h : value.Bounded (fun _ => False) depth) (names : List String)
    (rest : List Char) (found : { name : String // name ∈ names }) :
    Reads (choice names) (compact value ++ rest) found after ↔
      OptionType.decodeChoice names value = .ok found ∧ after = rest := by
  cases depth with
  | zero => exact absurd h id
  | succ depth =>
    obtain ⟨c, hopens, hpeek⟩ := exists_opens h rest
    cases value with
    | string text =>
      show Reads (choice names) (Json.Printer.string text ++ rest) found after ↔ _
      rw [string_append]
      refine (reads_peekToken_cons (by decide) _).bind_iff.trans (reads_advance_bind.trans ?_)
      exact (reads_stringTail text rest).bind_iff.trans reads_decided
    | object members => exact reads_choiceObject h.2.2 names rest found
    | _ =>
      -- nothing else begins like a name or an object
      refine hpeek.bind_iff.trans ⟨fun hread => ?_, fun hdecode => ?_⟩
      · split at hread
        · simp [opens] at hopens
        · simp [opens] at hopens
        · exact absurd hread not_reads_throw
      · cases hdecode.1

/-- A value of an option is read exactly where it is one. -/
theorem reads_optionValue (h : value.Bounded (fun _ => False) depth) (hrest : Terminated rest)
    (type : OptionType) (found : type.Value) :
    Reads (optionValue type) (compact value ++ rest) found after ↔
      type.decode value = .ok found ∧ after = rest := by
  cases type with
  | flag => exact reads_flag h rest found
  | width =>
    refine reads_wholeNumber h (fun hdecode => ?_) hrest .word32 found
    obtain ⟨n, hnat, -⟩ := Json.bind_eq_ok.1 hdecode
    exact ⟨_, (Value.decodeNat_eq_ok hnat).1⟩
  | offset =>
    refine reads_wholeNumber h (fun hdecode => ?_) hrest .size found
    obtain ⟨n, hnat, -⟩ := Json.bind_eq_ok.1 hdecode
    exact ⟨_, (Value.decodeNat_eq_ok hnat).1⟩
  | choice names => exact reads_choice h names rest found

/-- A value that may be null is read exactly where it is one. -/
theorem reads_optional (h : value.Bounded (fun _ => False) depth) (hrest : Terminated rest)
    (type : OptionType) (found : Option type.Value) :
    Reads (optional type) (compact value ++ rest) found after ↔
      value.decodeOptional type.decode = .ok found ∧ after = rest := by
  obtain ⟨c, hopens, hpeek⟩ := exists_opens h rest
  refine hpeek.bind_iff.trans ?_
  by_cases hc : c = 'n'
  · obtain rfl := eq_null_of_opens hopens hc
    rw [if_pos hc]
    refine (reads_word_append ['n', 'u', 'l', 'l'] rest).bind_iff.trans ?_
    simp [Value.decodeOptional, eq_comm]
  · rw [if_neg hc]
    have hsome : value.decodeOptional type.decode = some <$> type.decode value := by
      cases value with
      | null => exact absurd (of_decide_eq_true hopens) hc
      | _ => rfl
    rw [hsome, reads_map, ← bind_pure_comp, Json.bind_pure_eq_ok]
    simp only [reads_optionValue h hrest]
    constructor
    · rintro ⟨chosen, ⟨hdecode, hafter⟩, rfl⟩
      exact ⟨⟨chosen, hdecode, rfl⟩, hafter⟩
    · rintro ⟨⟨chosen, hdecode, rfl⟩, hafter⟩
      exact ⟨chosen, ⟨hdecode, hafter⟩, rfl⟩

/-! ## Members -/

/-- Take a member of an object: a known option that was not taken before, or an unknown key. -/
def take (state : List OptionKey × FormatOptions) (member : String × Value) :
    Option (List OptionKey × FormatOptions) :=
  match OptionKey.ofName? member.1 with
  | some key =>
    if state.1.contains key then none
    else (member.2.decodeOptional key.type.decode).toOption.map fun found =>
      (key :: state.1, state.2.set key found)
  | none => some (state.1, { state.2 with extra := state.2.extra.put member.1 member.2 })

/-- A member is read exactly where it is taken. -/
theorem reads_member_compact {entry : String × Value}
    (h : entry.2.Bounded (fun _ => False) (depthLimit - 1)) (hrest : Terminated rest)
    (state next : List OptionKey × FormatOptions) :
    Reads (member state entry.1) (':' :: (compact entry.2 ++ rest)) next after ↔
      take state entry = some next ∧ after = rest := by
  obtain ⟨seen, options⟩ := state
  obtain ⟨name, value⟩ := entry
  unfold member take
  dsimp only
  cases OptionKey.ofName? name with
  | none =>
    refine (reads_colon _).bind_iff.trans ((reads_compact h hrest).bind_iff.trans ?_)
    rw [reads_pure, Option.some_inj, eq_comm]
  | some key =>
    dsimp only
    by_cases hseen : seen.contains key = true
    · rw [if_pos hseen, if_pos hseen]
      exact ⟨fun hread => absurd hread not_reads_throw_bind, nofun⟩
    · rw [if_neg hseen, if_neg hseen]
      refine (reads_colon _).bind_iff.trans ?_
      cases hdecode : value.decodeOptional key.type.decode with
      | error cause =>
        refine ⟨fun hread => ?_, nofun⟩
        obtain ⟨found, behind, hfound, -⟩ := reads_bind.1 hread
        have hdecoded := ((reads_optional h hrest _ found).1 hfound).1
        rw [hdecode] at hdecoded
        cases hdecoded
      | ok found =>
        refine ((reads_optional h hrest _ found).2 ⟨hdecode, rfl⟩).bind_iff.trans ?_
        rw [reads_pure, Except.toOption, Option.map_some, Option.some_inj, eq_comm]

/-- Members none of which has the key of another one are taken as they are read from a value. -/
theorem foldlM_take {members : List (String × Value)} (hnodup : (Entries.keys members).Nodup)
    {seen : List OptionKey} (hseen : ∀ key ∈ seen, key.name ∉ Entries.keys members)
    {start options : FormatOptions} :
    (∃ left, members.foldlM take (seen, start) = some (left, options)) ↔
      members.foldlM (FormatOptions.readMember
        (fun type => Value.decodeOptional type.decode) Except.ok) start = .ok options := by
  induction members generalizing seen start with
  | nil =>
    constructor
    · rintro ⟨left, heq⟩
      exact congrArg Except.ok (Prod.mk.inj (Option.some.inj heq)).2
    · exact fun heq => ⟨seen, congrArg (fun found => some (seen, found)) (Except.ok.inj heq)⟩
  | cons member rest ih =>
    obtain ⟨name, value⟩ := member
    obtain ⟨hfirst, hrest⟩ := List.nodup_cons.1 hnodup
    have hlater (key : OptionKey) (hkey : key ∈ seen) : key.name ∉ Entries.keys rest :=
      fun hmem => hseen key hkey (List.mem_cons_of_mem _ hmem)
    rw [List.foldlM_cons, List.foldlM_cons, take]
    cases hname : OptionKey.ofName? name with
    | none =>
      rw [FormatOptions.readMember_unknown start value hname]
      exact ih hrest hlater
    | some key =>
      obtain rfl := OptionKey.name_of_ofName? hname
      have hnew : seen.contains key = false := by
        simpa using fun hmem => hseen key hmem List.mem_cons_self
      rw [FormatOptions.readMember_known]
      simp only [hnew]
      cases value.decodeOptional key.type.decode with
      | error cause => exact ⟨fun ⟨_, heq⟩ => absurd heq nofun, nofun⟩
      | ok found =>
        -- the key that was just taken does not come again
        refine ih hrest fun other hother => ?_
        rcases List.mem_cons.1 hother with rfl | hmem
        · exact hfirst
        · exact hlater other hmem

/-- Options are read off the compact text of an object without floats exactly where they are read
from the object. -/
theorem ofJson_compact {members : Object}
    (h : (Value.object members).Bounded (fun _ => False) depthLimit) (options : FormatOptions) :
    ofJson (Value.object members).compact = .ok options ↔
      FormatOptions.decode (.object members) = .ok options := by
  obtain ⟨-, hsorted, hmembers⟩ := h
  have hfold (last : List OptionKey × FormatOptions) (after : List Char) :=
    reads_foldMembers_compact
      (fun state entry hentry rest hrest next _ =>
        reads_member_compact (hmembers entry hentry) hrest state next)
      (length_lt_compactRest members []) true ([], .empty) [] last after
  have htaken : (∃ left, members.foldlM take ([], .empty) = some (left, options)) ↔
      FormatOptions.decode (.object members) = .ok options :=
    foldlM_take hsorted.nodup_keys fun _ hkey => absurd hkey List.not_mem_nil
  have htext : (Value.object members).compact.toList =
      '\x7b' :: (compactRest true members ++ ['\x7d']) := by
    rw [Value.compact, String.toList_ofList, ← compact_object_append, List.append_nil]
  rw [ofJson, run_eq_ok_iff, htext]
  refine Iff.trans ?_ htaken
  constructor
  · rintro ⟨rest, hread, -⟩
    have hmembers := (reads_peekToken_cons (by decide) _).bind_iff.1 hread
    rw [if_pos rfl] at hmembers
    obtain ⟨⟨left, found⟩, behind, hlast, hpure⟩ := reads_bind.1
      (reads_get_bind.1 (reads_advance_bind.1 hmembers))
    obtain ⟨rfl, -⟩ := reads_pure.1 hpure
    exact ⟨left, ((hfold _ _).1 hlast).1⟩
  · rintro ⟨left, hlast⟩
    refine ⟨[], (reads_peekToken_cons (by decide) _).bind_iff.2 ?_, rfl⟩
    rw [if_pos rfl]
    refine reads_advance_bind.2 (reads_get_bind.2 (reads_bind.2 ⟨(left, options), [], ?_, ?_⟩))
    · exact (hfold _ _).2 ⟨hlast, rfl⟩
    · exact reads_pure.2 ⟨rfl, rfl⟩

end EditorFormat.Config
