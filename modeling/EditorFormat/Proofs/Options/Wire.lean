import EditorFormat.Options.CursorOptions
import EditorFormat.Proofs.Options.Members

/-!
# Options on the wire

A record is written beside its options in one object, and read back from it as long as no unknown
option has the key of one of its fields (`decodeBeside_object`). The options of a request have the
fields `parser`, `cursorOffset` and `filepath`. The first and the last are taken out of the unknown
options when the request is made, but a `cursorOffset` among the unknown options stays there and is
written over the place of the cursor: `wire_of_request` says what a formatter is sent.
-/

namespace EditorFormat

open Json (Value Object Shape DecodeError)

namespace Json.Value

/-- The member of an object at a key. -/
def member? (value : Value) (key : String) : Option Value :=
  value.members?.bind fun members => members.find? key

/-- Of written members the last one with a key is found. -/
theorem member?_ofMembers (members : List (String × Value)) (key : String) :
    (ofMembers members).member? key = Entries.find? members.reverse key :=
  Entries.find?_ofPairs members key

end Json.Value

/-! ## Records beside their options -/

namespace FormatOptions

variable {δ : Type} {shape : Shape δ} {own : List (String × Value)} {options : FormatOptions}

/-- What is found of fields and options that are written into one object. -/
theorem find?_beside (hoptions : options.Tidy) (own : List (String × Value)) (key : String) :
    (Entries.ofPairs (own ++ options.members)).find? key =
      (Entries.find? options.members key).or (Entries.find? own.reverse key) := by
  rw [Entries.find?_ofPairs, List.reverse_append, Entries.find?_append,
    Entries.find?_reverse hoptions.nodup_members]

/-- Fields and options that are written into one object are read apart when every key of the
fields is one of the record, and no key of the options is. -/
theorem decodeBeside_object (hoptions : options.Tidy)
    (hown : ∀ member ∈ own, member.1 ∈ shape.names)
    (hapart : ∀ key ∈ shape.names, Entries.find? options.members key = none)
    (blank : δ) :
    decodeBeside shape blank (.object (Entries.ofPairs (own ++ options.members))) =
      (shape.read blank (.object (Entries.ofPairs own))).map fun record => (record, options) := by
  have hsorted := Entries.sorted_ofPairs (own ++ options.members)
  have habsent {key : String} (h : key ∉ shape.names) :
      Entries.find? own.reverse key = none := by
    refine Entries.find?_eq_none_iff.2 fun hkey => h ?_
    obtain ⟨member, hmember, rfl⟩ := List.mem_map.1 hkey
    exact hown member (List.mem_reverse.1 hmember)
  have hfields : (Entries.ofPairs (own ++ options.members)).filter
      (fun member => (shape.field? member.1).isSome) = Entries.ofPairs own := by
    refine (hsorted.filter _).ext (Entries.sorted_ofPairs own) fun key => ?_
    rw [Entries.find?_filter _ fun key => (shape.field? key).isSome, Entries.find?_ofPairs own]
    by_cases hkey : key ∈ shape.names
    · rw [if_pos (Shape.isSome_field?_iff.2 hkey), find?_beside hoptions, hapart key hkey,
        Option.none_or]
    · rw [if_neg (mt Shape.isSome_field?_iff.1 hkey), habsent hkey]
  have hrest : ofMembers ((Entries.ofPairs (own ++ options.members)).filter
      fun member => (shape.field? member.1).isNone) = .ok options := by
    refine hoptions.ofMembers_eq (hsorted.filter _) fun key => ?_
    rw [Entries.find?_filter _ fun key => (shape.field? key).isNone]
    by_cases hkey : key ∈ shape.names
    · rw [if_neg (mt Shape.isNone_field?_iff.1 (not_not_intro hkey)), hapart key hkey]
    · rw [if_pos (Shape.isNone_field?_iff.2 hkey), find?_beside hoptions, habsent hkey,
        Option.or_none]
  rw [decodeBeside, ← Shape.read_filter, hfields, hrest]
  cases shape.read blank (.object (Entries.ofPairs own)) <;> rfl

/-- A record is read from an object, and the options beside it from the members that are no
fields. -/
theorem exists_of_decodeBeside {blank record : δ} {value : Value}
    (h : decodeBeside shape blank value = .ok (record, options)) :
    ∃ members : List (String × Value), shape.read blank (.object members) = .ok record ∧
      ofMembers (members.filter fun member => (shape.field? member.1).isNone) = .ok options := by
  cases value with
  | object members =>
    obtain ⟨first, hrecord, h⟩ := Json.bind_eq_ok.1 h
    obtain ⟨rest, hrest, h⟩ := Json.bind_eq_ok.1 h
    obtain ⟨rfl, rfl⟩ := Prod.mk.inj (Except.ok.inj h)
    exact ⟨members, hrecord, hrest⟩
  | _ => exact absurd h nofun

/-- Options that are read beside a record are tidy. -/
theorem tidy_of_decodeBeside {blank record : δ} {value : Value}
    (h : decodeBeside shape blank value = .ok (record, options)) : options.Tidy := by
  obtain ⟨members, -, hrest⟩ := exists_of_decodeBeside h
  exact tidy_of_ofMembers hrest

/-- No key of a record is an unknown option of what is read beside it. -/
theorem extra_of_decodeBeside {blank record : δ} {value : Value}
    (h : decodeBeside shape blank value = .ok (record, options)) {key : String}
    (hkey : key ∈ shape.names) : options.extra.find? key = none := by
  obtain ⟨members, -, hrest⟩ := exists_of_decodeBeside h
  rw [extra_of_ofMembers hrest, Entries.find?_ofPairs, Entries.find?_eq_none_iff]
  intro hmem
  obtain ⟨member, hmember, rfl⟩ := List.mem_map.1 hmem
  have hnone := (List.mem_filter.1 (List.mem_filter.1 (List.mem_reverse.1 hmember)).1).2
  exact Shape.isNone_field?_iff.1 hnone hkey

end FormatOptions

/-! ## Options of a request -/

namespace CursorOptions

/-- The members of the fields. -/
def own (options : CursorOptions) : List (String × Value) :=
  [("parser", .string options.parser)]
    ++ (options.cursorOffset.map fun offset => ("cursorOffset", .ofNat offset)).toList
    ++ [("filepath", .string options.filepath)]

/-- The fields are written before the options. -/
theorem encode_eq (options : CursorOptions) :
    options.encode = .object (Entries.ofPairs (options.own ++ options.options.members)) :=
  rfl

/-- What is found of a written request: an option before a field of the same key. -/
theorem member?_encode (options : CursorOptions) (key : String) :
    options.encode.member? key =
      (Entries.find? options.options.members.reverse key).or
        (Entries.find? options.own.reverse key) := by
  rw [encode, Value.member?_ofMembers, ← Entries.find?_append, ← List.reverse_append]
  rfl

/-- The fields have the keys of the record. -/
theorem mem_names_of_own {options : CursorOptions} :
    ∀ member ∈ options.own, member.1 ∈ shape.names := by
  obtain ⟨parser, cursorOffset, filepath, options⟩ := options
  cases cursorOffset <;> simp [own, shape, Shape.names]

/-- The fields are read back, when the place of the cursor fits a word. -/
theorem read_own {options : CursorOptions}
    (h : ∀ offset ∈ options.cursorOffset, offset < UInt64.size) :
    shape.read {} (.object (Entries.ofPairs options.own)) =
      .ok ⟨options.parser, options.cursorOffset, options.filepath⟩ := by
  obtain ⟨parser, cursorOffset, filepath, options⟩ := options
  have hcursor : (Entries.ofPairs (own ⟨parser, cursorOffset, filepath, options⟩)).find?
      "cursorOffset" = cursorOffset.map Value.ofNat := by
    rw [Entries.find?_ofPairs]
    cases cursorOffset <;> rfl
  have hfilepath : (Entries.ofPairs (own ⟨parser, cursorOffset, filepath, options⟩)).find?
      "filepath" = some (.string filepath) := by
    rw [Entries.find?_ofPairs]
    cases cursorOffset <;> rfl
  have hparser : (Entries.ofPairs (own ⟨parser, cursorOffset, filepath, options⟩)).find?
      "parser" = some (.string parser) := by
    rw [Entries.find?_ofPairs]
    cases cursorOffset <;> rfl
  rw [Shape.read_object (Entries.sorted_ofPairs _)
    (show ["cursorOffset", "filepath", "parser"].Pairwise (· < ·) by decide) (by decide)
    (by simp [shape, hfilepath, hparser])]
  refine Shape.foldlM_take_cons (Shape.take_optional rfl hcursor (fun offset hoffset => ?_) rfl) ?_
  · exact Value.decodeOptional_ofNat (h offset hoffset) .size
  · exact Shape.foldlM_take_cons (Shape.take_written rfl hfilepath rfl)
      (Shape.foldlM_take_cons (Shape.take_written rfl hparser rfl) rfl)

/-- A written request is read back exactly when no option has the key of one of its fields. -/
theorem decode_encode_iff {options : CursorOptions} (hoptions : options.options.Tidy)
    (hoffset : ∀ offset ∈ options.cursorOffset, offset < UInt64.size) :
    decode options.encode = .ok options ↔
      ∀ key ∈ shape.names, options.options.extra.find? key = none := by
  constructor
  · intro h key hkey
    obtain ⟨⟨draft, rest⟩, hbeside, hmade⟩ := Json.bind_pure_eq_ok.1 h
    have hrest : rest = options.options := congrArg CursorOptions.options hmade
    exact hrest ▸ FormatOptions.extra_of_decodeBeside hbeside hkey
  · intro h
    have hunknown : ∀ key ∈ shape.names, OptionKey.ofName? key = none := by decide
    have hapart (key : String) (hkey : key ∈ shape.names) :
        Entries.find? options.options.members key = none := by
      rw [FormatOptions.find?_members_unknown _ (hunknown key hkey), h key hkey]
    rw [decode, encode_eq, FormatOptions.decodeBeside_object hoptions mem_names_of_own hapart,
      read_own hoffset]
    rfl

/-! ## Requests made from options -/

/-- Options stay tidy when known keys are set. -/
theorem tidy_set {options : FormatOptions} (h : options.Tidy) (key : OptionKey)
    (value : Option key.Value) : (options.set key value).Tidy :=
  ⟨h.sorted, h.unknown⟩

/-- The unknown options of a request are those that were given, without the two that it takes out. -/
theorem find?_ofOptions (parser filepath : String) (options : FormatOptions) (key : String) :
    (ofOptions parser filepath options).options.extra.find? key =
      if key = "parser" ∨ key = "filepath" then none else options.extra.find? key := by
  by_cases hparser : key = "parser"
  · subst hparser
    exact (Entries.find?_remove_of_ne _ (by decide)).trans (Entries.find?_remove_self ..)
  · by_cases hfilepath : key = "filepath"
    · subst hfilepath
      exact Entries.find?_remove_self ..
    · rw [if_neg (not_or_intro hparser hfilepath), ofOptions,
        Entries.find?_remove_of_ne _ hfilepath, Entries.find?_remove_of_ne _ hparser]

/-- A request has tidy options when it was given tidy ones. -/
theorem tidy_ofOptions {options : FormatOptions} (h : options.Tidy) (parser filepath : String) :
    (ofOptions parser filepath options).options.Tidy where
  sorted := (h.sorted.remove _).remove _
  unknown key hkey := by
    obtain ⟨value, hvalue⟩ := Entries.mem_keys_iff_find?.1 hkey
    rw [find?_ofOptions] at hvalue
    split at hvalue
    · cases hvalue
    · exact h.unknown key (Entries.mem_keys_iff_find?.2 ⟨value, hvalue⟩)

/-- Under a key a written request has what the options carry there as a text, and otherwise what
was inferred. -/
structure Prefers (options : FormatOptions) (wire : Value) (key inferred : String) : Prop where
  configured : ∀ text, options.extra.find? key = some (.string text) →
    wire.member? key = some (.string text)
  inferred : (∀ text, options.extra.find? key ≠ some (.string text)) →
    wire.member? key = some (.string inferred)

/-- A text in the options goes before what was inferred. -/
theorem prefers_of_configured {options : FormatOptions} {wire : Value} {key inferred : String}
    (h : wire.member? key = some (.string (configured options key inferred))) :
    Prefers options wire key inferred where
  configured text htext := by rw [h, configured, htext]
  inferred htext := by
    rw [h, configured]
    split
    · rename_i text hfound
      exact absurd hfound (htext text)
    · rfl

/-- The options of a request for a file, with or without a place of the cursor. -/
def forFile (parser filepath : String) (cursor : Option Nat) (options : FormatOptions) :
    CursorOptions :=
  { ofOptions parser filepath options with cursorOffset := cursor }

section ForFile

variable {options : FormatOptions} (hoptions : options.Tidy) (parser filepath : String)
  (cursor : Option Nat)

include hoptions

/-- A known option is written as it is set. -/
theorem member?_forFile_name (key : OptionKey) :
    (forFile parser filepath cursor options).encode.member? key.name =
      (options.get key).map key.type.encode := by
  have hown : Entries.find? (forFile parser filepath cursor options).own.reverse key.name =
      none := by
    refine Entries.find?_reverse_eq_none_iff.2 (Entries.find?_eq_none_iff.2 fun hkey => ?_)
    obtain ⟨member, hmember, hname⟩ := List.mem_map.1 hkey
    have hfield := hname ▸ mem_names_of_own member hmember
    exact absurd hfield (by cases key <;> decide)
  rw [member?_encode, hown, Option.or_none]
  have htidy := tidy_ofOptions hoptions parser filepath
  exact (Entries.find?_reverse htidy.nodup_members _).trans (htidy.find?_members_name key)

/-- Under any other key a written request has what the options carry, unless it takes that out, and
otherwise its field. -/
theorem member?_forFile_unknown {key : String} (hkey : OptionKey.ofName? key = none) :
    (forFile parser filepath cursor options).encode.member? key =
      (if key = "parser" ∨ key = "filepath" then none else options.extra.find? key).or
        (Entries.find? (forFile parser filepath cursor options).own.reverse key) := by
  have htidy := tidy_ofOptions hoptions parser filepath
  have hmembers := (Entries.find?_reverse htidy.nodup_members key).trans
    (FormatOptions.find?_members_unknown _ hkey)
  rw [find?_ofOptions] at hmembers
  rw [member?_encode]
  exact congrArg (Option.or · _) hmembers

/-- The cursor of the options is written over the place of the cursor. -/
theorem member?_forFile_cursor :
    (forFile parser filepath cursor options).encode.member? "cursorOffset" =
      (options.extra.find? "cursorOffset").or (cursor.map Value.ofNat) := by
  rw [member?_forFile_unknown hoptions _ _ _ (by decide), if_neg (by decide)]
  cases cursor <;> rfl

/-- Parser and path are those of the options where these carry them as texts. -/
theorem prefers_forFile :
    Prefers options (forFile parser filepath cursor options).encode "parser" parser ∧
      Prefers options (forFile parser filepath cursor options).encode "filepath" filepath := by
  constructor
  · refine prefers_of_configured ?_
    rw [member?_forFile_unknown hoptions _ _ _ (by decide), if_pos (.inl rfl)]
    cases cursor <;> rfl
  · refine prefers_of_configured ?_
    rw [member?_forFile_unknown hoptions _ _ _ (by decide), if_pos (.inr rfl)]
    cases cursor <;> rfl

/-- A written request is read back exactly when the options carry no cursor. -/
theorem decode_forFile_iff (hcursor : ∀ offset ∈ cursor, offset < UInt64.size) :
    decode (forFile parser filepath cursor options).encode =
        .ok (forFile parser filepath cursor options) ↔
      options.extra.find? "cursorOffset" = none := by
  have htidy : (forFile parser filepath cursor options).options.Tidy :=
    tidy_ofOptions hoptions parser filepath
  refine (decode_encode_iff htidy hcursor).trans ?_
  have hnames : shape.names = ["parser", "cursorOffset", "filepath"] := rfl
  simp only [hnames, List.mem_cons, List.not_mem_nil, or_false, forall_eq_or_imp, forall_eq]
  simp [forFile, find?_ofOptions]

end ForFile

/-- Requests for a document and for a selection that are made from options read from an object.
The place of the cursor is what is sent only if the options carry no `cursorOffset`; otherwise
theirs is sent, also for a selection, and the request that is read back is another one. Parser and
path are those of the options where these carry them as texts, and a selection is sent with all of
its text as the range. -/
theorem wire_of_request {members : List (String × Value)} {options : FormatOptions}
    (h : FormatOptions.decode (.object members) = .ok options) (parser filepath : String)
    {offset : Nat} (hoffset : offset < UInt64.size) :
    let document := (ofOptions parser filepath options).withCursorOffset offset
    let selection := ofOptions parser filepath options.forSelection
    document.encode.member? "cursorOffset" =
        some ((options.extra.find? "cursorOffset").getD (.ofNat offset)) ∧
      selection.encode.member? "cursorOffset" = options.extra.find? "cursorOffset" ∧
      selection.encode.member? "rangeStart" = some (.ofNat 0) ∧
      selection.encode.member? "rangeEnd" = none ∧
      ∀ request ∈ [document, selection],
        Prefers options request.encode "parser" parser ∧
        Prefers options request.encode "filepath" filepath ∧
        (decode request.encode = .ok request ↔ options.extra.find? "cursorOffset" = none) := by
  intro document selection
  have htidy := FormatOptions.tidy_of_ofMembers h
  have hselection : options.forSelection.Tidy := tidy_set (tidy_set htidy _ _) _ _
  refine ⟨?_, ?_, ?_, ?_, ?_⟩
  · refine (member?_forFile_cursor htidy parser filepath (some offset)).trans ?_
    cases options.extra.find? "cursorOffset" <;> rfl
  · exact (member?_forFile_cursor hselection parser filepath none).trans Option.or_none
  · exact member?_forFile_name hselection parser filepath none .rangeStart
  · exact member?_forFile_name hselection parser filepath none .rangeEnd
  · intro request hrequest
    obtain rfl | rfl : request = document ∨ request = selection := by simpa using hrequest
    · obtain ⟨hparser, hfilepath⟩ := prefers_forFile htidy parser filepath (some offset)
      refine ⟨hparser, hfilepath, decode_forFile_iff htidy parser filepath _ ?_⟩
      rintro _ ⟨⟩
      exact hoffset
    · obtain ⟨hparser, hfilepath⟩ := prefers_forFile hselection parser filepath none
      exact ⟨⟨hparser.configured, hparser.inferred⟩, ⟨hfilepath.configured, hfilepath.inferred⟩,
        decode_forFile_iff hselection parser filepath none nofun⟩

/-- Options that name a parser and nothing else. -/
def flow : FormatOptions :=
  ⟨fun _ => none, [("parser", .string "flow")]⟩

/-- Options without a cursor: the place of the cursor is sent, for the parser of the options and
the inferred path, and the request is read back. -/
theorem wire_of_request_flow :
    FormatOptions.decode (.object [("parser", .string "flow")]) = .ok flow ∧ 4 < UInt64.size ∧
      let document := (ofOptions "babel" "script.js" flow).withCursorOffset 4
      document.encode.member? "cursorOffset" = some (.ofNat 4) ∧
        document.encode.member? "parser" = some (.string "flow") ∧
        document.encode.member? "filepath" = some (.string "script.js") ∧
        decode document.encode = .ok document := by
  have hread : FormatOptions.decode (.object [("parser", .string "flow")]) = .ok flow := rfl
  obtain ⟨hcursor, -, -, -, hrequests⟩ :=
    wire_of_request hread "babel" "script.js" (show 4 < UInt64.size by decide)
  obtain ⟨hparser, hfilepath, hdecode⟩ := hrequests _ List.mem_cons_self
  exact ⟨hread, by decide, hcursor, hparser.configured "flow" rfl, hfilepath.inferred nofun,
    hdecode.2 rfl⟩

/-- Options that carry a cursor, as a project may configure by mistake. -/
def carrying : FormatOptions :=
  ⟨fun _ => none, [("cursorOffset", .int 99)]⟩

/-- The cursor that the options carry is sent and not the one of the document, and it is sent for
a selection too. The request is not read back. -/
theorem configured_cursor_is_sent :
    FormatOptions.decode (.object [("cursorOffset", .int 99)]) = .ok carrying ∧
      let document := (ofOptions "babel" "script.js" carrying).withCursorOffset 4
      let selection := ofOptions "babel" "script.js" carrying.forSelection
      document.encode.member? "cursorOffset" ≠ some (.ofNat 4) ∧
        selection.encode.member? "cursorOffset" ≠ none ∧
        decode document.encode ≠ .ok document := by
  have hread : FormatOptions.decode (.object [("cursorOffset", .int 99)]) = .ok carrying := rfl
  have htidy := FormatOptions.tidy_of_ofMembers hread
  have hselection : carrying.forSelection.Tidy := tidy_set (tidy_set htidy _ _) _ _
  refine ⟨hread, ?_, ?_, ?_⟩
  · have hsent := member?_forFile_cursor htidy "babel" "script.js" (some 4)
    intro h
    have heq : (99 : Int) = 4 := Value.int.inj (Option.some.inj (hsent.symm.trans h))
    exact absurd heq (by decide)
  · have hsent := member?_forFile_cursor hselection "babel" "script.js" none
    intro h
    exact absurd (hsent.symm.trans h) nofun
  · intro h
    have habsent := (decode_forFile_iff htidy "babel" "script.js" (some 4) (by decide)).1 h
    exact absurd habsent nofun

end CursorOptions

end EditorFormat
