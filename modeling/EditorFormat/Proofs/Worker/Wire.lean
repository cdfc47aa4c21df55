import EditorFormat.Proofs.Settings.Wire
import EditorFormat.Proofs.Worker.Answers

/-!
# Records on the wire

Every record that goes over the wire is read back from its written form: options, requests to a
formatter, settings, and the messages of a worker (`records_round_trip`). What is asked of a record
is that its numbers fit a word and that its unknown options are in order and none has the key of a
field, and everything that was read is such.
-/

namespace EditorFormat

open Json (Value Object Shape DecodeError bind_eq_ok bind_pure_eq_ok)

/-- Written records are read back, and all that is read are records of this kind. -/
structure RoundTrips {α : Type} (encode : α → Value) (decode : Value → Except DecodeError α)
    (Fits : α → Prop) : Prop where
  decode_encode : ∀ record, Fits record → decode (encode record) = .ok record
  fits_of_decode : ∀ value record, decode value = .ok record → Fits record

/-! ## Positions and spans -/

/-- Row and column fit a word. -/
structure Position.Fits (position : Position) : Prop where
  row : position.row < UInt64.size
  column : position.column < UInt64.size

/-- A written position is read back. -/
theorem Position.roundTrips : RoundTrips encode decode Fits where
  decode_encode position h := by
    let members : List (String × Value) :=
      [("row", .ofNat position.row), ("column", .ofNat position.column)]
    have hrow : (Entries.ofPairs members).find? "row" = some (.ofNat position.row) :=
      Entries.find?_ofPairs ..
    have hcolumn : (Entries.ofPairs members).find? "column" = some (.ofNat position.column) :=
      Entries.find?_ofPairs ..
    have hread : shape.read {} (.object (Entries.ofPairs members)) =
        .ok ⟨position.row, position.column⟩ := by
      rw [Shape.read_object (Entries.sorted_ofPairs _)
        (show ["column", "row"].Pairwise (· < ·) by decide) (List.Perm.swap ..)
        (by simp [shape, hrow, hcolumn])]
      refine Shape.foldlM_take_cons
        (Shape.take_written rfl hcolumn (Value.decodeNat_ofNat h.column _)) ?_
      exact Shape.foldlM_take_cons (Shape.take_written rfl hrow (Value.decodeNat_ofNat h.row _)) rfl
    exact bind_eq_ok.2 ⟨_, hread, rfl⟩
  fits_of_decode value position h := by
    obtain ⟨draft, hread, rfl⟩ := bind_pure_eq_ok.1 h
    have hdraft : draft.row < UInt64.size ∧ draft.column < UInt64.size := by
      refine Shape.read_keeps
        (P := fun draft => draft.row < UInt64.size ∧ draft.column < UInt64.size)
        (by decide) ?_ hread
      simp only [shape, List.forall_mem_cons]
      refine ⟨?_, ?_, List.forall_mem_nil _⟩
      · intro draft value next hdraft hstore
        obtain ⟨row, hrow, rfl⟩ := bind_pure_eq_ok.1 hstore
        exact ⟨Value.lt_of_decodeNat hrow, hdraft.2⟩
      · intro draft value next hdraft hstore
        obtain ⟨column, hcolumn, rfl⟩ := bind_pure_eq_ok.1 hstore
        exact ⟨hdraft.1, Value.lt_of_decodeNat hcolumn⟩
    exact ⟨hdraft.1, hdraft.2⟩

/-- Both ends fit words. -/
structure Span.Fits (span : Span) : Prop where
  start : span.start.Fits
  stop : span.stop.Fits

/-- A written span is read back. -/
theorem Span.roundTrips : RoundTrips encode decode Fits where
  decode_encode span h := by
    let members : List (String × Value) := [("start", span.start.encode), ("end", span.stop.encode)]
    have hstart : (Entries.ofPairs members).find? "start" = some span.start.encode :=
      Entries.find?_ofPairs ..
    have hstop : (Entries.ofPairs members).find? "end" = some span.stop.encode :=
      Entries.find?_ofPairs ..
    show shape.read default (.object (Entries.ofPairs members)) = .ok span
    rw [Shape.read_object (Entries.sorted_ofPairs _)
      (show ["end", "start"].Pairwise (· < ·) by decide) (List.Perm.swap ..)
      (by simp [shape, hstart, hstop])]
    refine Shape.foldlM_take_cons
      (Shape.take_written rfl hstop (Position.roundTrips.decode_encode _ h.stop)) ?_
    exact Shape.foldlM_take_cons
      (Shape.take_written rfl hstart (Position.roundTrips.decode_encode _ h.start)) rfl
  fits_of_decode value span h := by
    refine Shape.read_keeps (P := Fits) ⟨⟨by decide, by decide⟩, ⟨by decide, by decide⟩⟩ ?_ h
    simp only [shape, List.forall_mem_cons]
    refine ⟨?_, ?_, List.forall_mem_nil _⟩
    · intro draft value next hdraft hstore
      obtain ⟨start, hread, rfl⟩ := bind_pure_eq_ok.1 hstore
      exact ⟨Position.roundTrips.fits_of_decode _ _ hread, hdraft.stop⟩
    · intro draft value next hdraft hstore
      obtain ⟨stop, hread, rfl⟩ := bind_pure_eq_ok.1 hstore
      exact ⟨hdraft.start, Position.roundTrips.fits_of_decode _ _ hread⟩

/-! ## Results and errors -/

/-- The place of the cursor fits a word. -/
def FormatResult.Fits (result : FormatResult) : Prop :=
  ∀ offset ∈ result.cursorOffset?, offset < UInt64.size

/-- A result that is read from members has a cursor that fits a word. -/
theorem FormatResult.fits_of_ofMembers? {members : List (String × Value)} {result : FormatResult}
    (h : ofMembers? members = some result) : result.Fits := by
  rw [ofMembers?] at h
  split at h
  · cases h
  · split at h
    · rename_i text offset _ _
      split at h
      case isTrue hrange =>
        obtain rfl := Option.some.inj h
        rintro _ ⟨⟩
        omega
      case isFalse => cases h
    · cases h

/-- A written result is read back, with or without a cursor. -/
theorem FormatResult.roundTrips : RoundTrips encode decode Fits where
  decode_encode result h := by
    cases result with
    | plain text => rfl
    | withCursor text offset =>
      -- the members are written in the order of their keys
      have hkeys : "cursorOffset" ≠ "formatted" ∧ "cursorOffset" < "formatted" := by decide
      have hobject : Value.ofMembers
            [("formatted", .string text), ("cursorOffset", .ofNat offset)] =
          .object [("cursorOffset", .ofNat offset), ("formatted", .string text)] := by
        simp only [Value.ofMembers, Entries.ofPairs, List.foldl_cons, List.foldl_nil, Entries.put,
          if_neg hkeys.1, if_pos hkeys.2]
      have hrange : (0 : Int) ≤ offset ∧ (offset : Int) < UInt64.size :=
        ⟨Int.natCast_nonneg _, Int.ofNat_lt.2 (h offset rfl)⟩
      let members : List (String × Value) :=
        [("cursorOffset", .ofNat offset), ("formatted", .string text)]
      have honce : (repeats members "formatted" || repeats members "cursorOffset") = false := rfl
      have htext : members.lookup "formatted" = some (.string text) := rfl
      have hoffset : members.lookup "cursorOffset" = some (.int offset) := rfl
      have hread : ofMembers? members = some (.withCursor text offset) := by
        simp only [ofMembers?, honce, htext, hoffset, if_pos hrange]
        rfl
      rw [encode, hobject, decode, hread]
      rfl
  fits_of_decode value result h := by
    cases value with
    | string text =>
      obtain rfl := Except.ok.inj h
      rintro offset ⟨⟩
    | object members =>
      rw [decode] at h
      cases hread : ofMembers? members with
      | none => rw [hread] at h; cases h
      | some found =>
        rw [hread] at h
        exact Except.ok.inj h ▸ fits_of_ofMembers? hread
    | _ => cases h

/-- A written error is read back. -/
theorem ErrorInfo.decode_encode (error : ErrorInfo) : decode error.encode = .ok error := by
  obtain ⟨message, name⟩ := error
  let members : List (String × Value) := [("message", .string message)]
    ++ (name.map fun name => ("name", Value.string name)).toList
  have hmessage : (Entries.ofPairs members).find? "message" = some (.string message) := by
    rw [Entries.find?_ofPairs]
    cases name <;> rfl
  have hname : (Entries.ofPairs members).find? "name" = name.map Value.string := by
    rw [Entries.find?_ofPairs]
    cases name <;> rfl
  have hread : shape.read {} (.object (Entries.ofPairs members)) = .ok ⟨some message, name⟩ := by
    rw [Shape.read_object (Entries.sorted_ofPairs _)
      (show ["message", "name"].Pairwise (· < ·) by decide) (.refl _) (by simp [shape, hmessage])]
    refine Shape.foldlM_take_cons (Shape.take_written rfl hmessage rfl) ?_
    exact Shape.foldlM_take_cons (Shape.take_optional rfl hname (fun _ _ => rfl) rfl) rfl
  exact bind_eq_ok.2 ⟨_, hread, rfl⟩

/-! ## Options and settings -/

/-- Written options are read back. -/
theorem FormatOptions.roundTrips : RoundTrips encode decode Tidy where
  decode_encode options h :=
    h.ofMembers_eq (Entries.sorted_ofPairs _) fun key =>
      (Entries.find?_ofPairs ..).trans (Entries.find?_reverse h.nodup_members key)
  fits_of_decode value options h := by
    cases value with
    | object members => exact tidy_of_ofMembers h
    | _ => cases h

/-- The options are tidy and apart from the fields, and the place of the cursor fits a word. -/
structure CursorOptions.Fits (request : CursorOptions) : Prop where
  options : request.options.Tidy
  apart : ∀ key ∈ shape.names, request.options.extra.find? key = none
  cursorOffset : ∀ offset ∈ request.cursorOffset, offset < UInt64.size

/-- A written request to a formatter is read back. -/
theorem CursorOptions.roundTrips : RoundTrips encode decode Fits where
  decode_encode _ h := (decode_encode_iff h.options h.cursorOffset).2 h.apart
  fits_of_decode value request h := by
    obtain ⟨⟨draft, rest⟩, hbeside, rfl⟩ := bind_pure_eq_ok.1 h
    obtain ⟨members, hread, -⟩ := FormatOptions.exists_of_decodeBeside hbeside
    have hoffset : ∀ offset ∈ draft.cursorOffset, offset < UInt64.size := by
      refine Shape.read_keeps
        (P := fun draft : Draft => ∀ offset ∈ draft.cursorOffset, offset < UInt64.size)
        (by rintro offset ⟨⟩) ?_ hread
      simp only [shape, List.forall_mem_cons]
      refine ⟨?_, ?_, ?_, List.forall_mem_nil _⟩
      · intro draft value next hdraft hstore
        obtain ⟨parser, -, rfl⟩ := bind_pure_eq_ok.1 hstore
        exact hdraft
      · intro draft value next hdraft hstore
        obtain ⟨found, hfound, rfl⟩ := bind_pure_eq_ok.1 hstore
        rintro offset rfl
        exact Value.lt_of_decodeNat (Value.decodeOptional_eq_ok hfound)
      · intro draft value next hdraft hstore
        obtain ⟨filepath, -, rfl⟩ := bind_pure_eq_ok.1 hstore
        exact hdraft
    exact ⟨FormatOptions.tidy_of_decodeBeside hbeside,
      fun _ => FormatOptions.extra_of_decodeBeside hbeside, hoffset⟩

/-- Written settings are read back. -/
theorem Settings.roundTrips : RoundTrips encode decode Tidy where
  decode_encode _ h := h.decode_object
  fits_of_decode _ _ h := tidy_of_decode h

/-! ## Messages -/

/-- What is found of the parts of a message that are left out at their default. -/
theorem find?_envelopeMembers (isSelection : Bool) (selectionRange : Option Span) (key : String) :
    Entries.find? (envelopeMembers isSelection selectionRange).reverse key =
      if key = "isSelection" then if isSelection then some (.bool true) else none
      else if key = "selectionRange" then selectionRange.map Span.encode
      else none := by
  by_cases hselection : key = "isSelection"
  · subst hselection
    cases isSelection <;> cases selectionRange <;> rfl
  · by_cases hrange : key = "selectionRange"
    · subst hrange
      cases isSelection <;> cases selectionRange <;> rfl
    · rw [if_neg hselection, if_neg hrange]
      cases isSelection <;> cases selectionRange <;>
        simp [envelopeMembers, Entries.find?, Ne.symm hselection, Ne.symm hrange]

/-- What is found of a message: such a part, or one of the others. -/
theorem find?_message (own : List (String × Value)) (isSelection : Bool)
    (selectionRange : Option Span) (key : String) :
    (Entries.ofPairs (own ++ envelopeMembers isSelection selectionRange)).find? key =
      (if key = "isSelection" then if isSelection then some (.bool true) else none
      else if key = "selectionRange" then selectionRange.map Span.encode
      else none).or (Entries.find? own.reverse key) := by
  rw [Entries.find?_ofPairs, List.reverse_append, Entries.find?_append, find?_envelopeMembers]

/-- A written span is read where null is allowed. -/
theorem decodeOptional_span {span : Span} (h : span.Fits) :
    span.encode.decodeOptional Span.decode = .ok (some span) :=
  Value.decodeOptional_object (Span.roundTrips.decode_encode span h)

/-- A written result is read where null is allowed. -/
theorem decodeOptional_result {result : FormatResult} (h : result.Fits) :
    result.encode.decodeOptional FormatResult.decode = .ok (some result) := by
  have hread := FormatResult.roundTrips.decode_encode result h
  cases result with
  | plain text => rfl
  | withCursor text offset => exact Value.decodeOptional_object hread

/-- The number fits a word, and so does the selection. -/
structure Envelope.Fits (envelope : Envelope) : Prop where
  id : envelope.id < UInt64.size
  selectionRange : ∀ span ∈ envelope.selectionRange, span.Fits

/-- The parts of a request fit. -/
structure WorkerRequest.Fits (message : WorkerRequest) : Prop where
  envelope : message.envelope.Fits
  cursorOptions : message.cursorOptions.Fits

namespace WorkerRequest

/-- The members that are always written. -/
def own (message : WorkerRequest) : List (String × Value) :=
  [("id", .ofNat message.id), ("fileId", .string message.fileId), ("code", .string message.code),
    ("cursorOptions", message.cursorOptions.encode)]

/-- The written members as a map. -/
def object (message : WorkerRequest) : Object :=
  Entries.ofPairs (message.own ++ envelopeMembers message.isSelection message.selectionRange)

/-- The fields are read back in the order of their keys. -/
theorem read_object {message : WorkerRequest} (h : message.Fits) :
    shape.read default (.object message.object) = .ok message := by
  have hcode : message.object.find? "code" = some (.string message.code) := find?_message ..
  have hoptions : message.object.find? "cursorOptions" = some message.cursorOptions.encode :=
    find?_message ..
  have hfile : message.object.find? "fileId" = some (.string message.fileId) := find?_message ..
  have hid : message.object.find? "id" = some (.ofNat message.id) := find?_message ..
  have hselection : message.object.find? "isSelection" =
      if message.isSelection then some (.bool true) else none :=
    (find?_message ..).trans Option.or_none
  have hrange : message.object.find? "selectionRange" = message.selectionRange.map Span.encode :=
    (find?_message ..).trans Option.or_none
  have hnames : ["code", "cursorOptions", "fileId", "id", "isSelection", "selectionRange"].Pairwise
      (· < ·) := by decide
  have hsorted : message.object.Sorted := Entries.sorted_ofPairs _
  rw [Shape.read_object hsorted hnames (by decide) (by simp [shape, hcode, hoptions, hfile, hid])]
  refine Shape.foldlM_take_cons (Shape.take_written rfl hcode rfl) ?_
  refine Shape.foldlM_take_cons (Shape.take_written rfl hoptions
    (CursorOptions.roundTrips.decode_encode _ h.cursorOptions)) ?_
  refine Shape.foldlM_take_cons (Shape.take_written rfl hfile rfl) ?_
  refine Shape.foldlM_take_cons
    (Shape.take_written rfl hid (Value.decodeNat_ofNat h.envelope.id _)) ?_
  refine Shape.foldlM_take_cons (Shape.take_flag rfl hselection rfl) ?_
  refine Shape.foldlM_take_cons (Shape.take_optional rfl hrange (fun span hspan => ?_) rfl) rfl
  exact decodeOptional_span (h.envelope.selectionRange span hspan)

/-- A written request to the worker is read back. -/
theorem roundTrips : RoundTrips encode decode Fits where
  decode_encode _ h := read_object h
  fits_of_decode value message h := by
    refine Shape.read_keeps (P := Fits) ?_ ?_ h
    · exact ⟨⟨by decide, by rintro span ⟨⟩⟩, ⟨⟨Entries.sorted_nil, List.forall_mem_nil _⟩, fun _ _ => rfl,
        by rintro offset ⟨⟩⟩⟩
    simp only [shape, List.forall_mem_cons]
    refine ⟨?_, ?_, ?_, ?_, ?_, ?_, List.forall_mem_nil _⟩ <;> intro draft value next hdraft hstore
    · obtain ⟨id, hid, rfl⟩ := bind_pure_eq_ok.1 hstore
      exact ⟨⟨Value.lt_of_decodeNat hid, hdraft.envelope.selectionRange⟩, hdraft.cursorOptions⟩
    · obtain ⟨fileId, -, rfl⟩ := bind_pure_eq_ok.1 hstore
      exact ⟨⟨hdraft.envelope.id, hdraft.envelope.selectionRange⟩, hdraft.cursorOptions⟩
    · obtain ⟨code, -, rfl⟩ := bind_pure_eq_ok.1 hstore
      exact ⟨⟨hdraft.envelope.id, hdraft.envelope.selectionRange⟩, hdraft.cursorOptions⟩
    · obtain ⟨request, hrequest, rfl⟩ := bind_pure_eq_ok.1 hstore
      exact ⟨⟨hdraft.envelope.id, hdraft.envelope.selectionRange⟩,
        CursorOptions.roundTrips.fits_of_decode _ _ hrequest⟩
    · obtain ⟨isSelection, -, rfl⟩ := bind_pure_eq_ok.1 hstore
      exact ⟨⟨hdraft.envelope.id, hdraft.envelope.selectionRange⟩, hdraft.cursorOptions⟩
    · obtain ⟨range, hrange, rfl⟩ := bind_pure_eq_ok.1 hstore
      refine ⟨⟨hdraft.envelope.id, ?_⟩, hdraft.cursorOptions⟩
      rintro span rfl
      exact Span.roundTrips.fits_of_decode _ _ (Value.decodeOptional_eq_ok hrange)

end WorkerRequest

/-- The parts of a response fit. -/
structure WorkerResponse.Fits (message : WorkerResponse) : Prop where
  id : message.id < UInt64.size
  result : ∀ result ∈ message.result, result.Fits
  selectionRange : ∀ span ∈ message.selectionRange, span.Fits

namespace WorkerResponse

/-- The members besides those that every message may leave out. -/
def own (message : WorkerResponse) : List (String × Value) :=
  [("id", .ofNat message.id), ("fileId", .string message.fileId),
    ("action", .string message.action)]
  ++ (message.result.map fun result => ("res", result.encode)).toList
  ++ (message.error.map fun error => ("error", error.encode)).toList

/-- The written members as a map. -/
def object (message : WorkerResponse) : Object :=
  Entries.ofPairs (message.own ++ envelopeMembers message.isSelection message.selectionRange)

/-- What is found of the members that are always written. -/
theorem find?_own (message : WorkerResponse) :
    Entries.find? message.own.reverse "action" = some (.string message.action) ∧
    Entries.find? message.own.reverse "error" = message.error.map ErrorInfo.encode ∧
    Entries.find? message.own.reverse "fileId" = some (.string message.fileId) ∧
    Entries.find? message.own.reverse "id" = some (.ofNat message.id) ∧
    Entries.find? message.own.reverse "isSelection" = none ∧
    Entries.find? message.own.reverse "res" = message.result.map FormatResult.encode ∧
    Entries.find? message.own.reverse "selectionRange" = none := by
  obtain ⟨id, fileId, action, result, error, isSelection, selectionRange⟩ := message
  cases result <;> cases error <;> exact ⟨rfl, rfl, rfl, rfl, rfl, rfl, rfl⟩

/-- The fields are read back in the order of their keys. -/
theorem read_object {message : WorkerResponse} (h : message.Fits) :
    shape.read default (.object message.object) = .ok message := by
  obtain ⟨haction, herror, hfile, hid, hselection, hresult, hrange⟩ := message.find?_own
  have haction : message.object.find? "action" = some (.string message.action) :=
    (find?_message ..).trans haction
  have herror : message.object.find? "error" = message.error.map ErrorInfo.encode :=
    (find?_message ..).trans herror
  have hfile : message.object.find? "fileId" = some (.string message.fileId) :=
    (find?_message ..).trans hfile
  have hid : message.object.find? "id" = some (.ofNat message.id) := (find?_message ..).trans hid
  have hselection : message.object.find? "isSelection" =
      if message.isSelection then some (.bool true) else none := by
    rw [object, find?_message, hselection]
    exact Option.or_none
  have hresult : message.object.find? "res" = message.result.map FormatResult.encode :=
    (find?_message ..).trans hresult
  have hrange : message.object.find? "selectionRange" = message.selectionRange.map Span.encode := by
    rw [object, find?_message, hrange]
    exact Option.or_none
  have hnames : ["action", "error", "fileId", "id", "isSelection", "res",
      "selectionRange"].Pairwise (· < ·) := by decide
  have hsorted : message.object.Sorted := Entries.sorted_ofPairs _
  rw [Shape.read_object hsorted hnames (by decide) (by simp [shape, haction, hfile, hid])]
  refine Shape.foldlM_take_cons (Shape.take_written rfl haction rfl) ?_
  refine Shape.foldlM_take_cons (Shape.take_optional rfl herror (fun error _ =>
    Value.decodeOptional_object (ErrorInfo.decode_encode error)) rfl) ?_
  refine Shape.foldlM_take_cons (Shape.take_written rfl hfile rfl) ?_
  refine Shape.foldlM_take_cons (Shape.take_written rfl hid (Value.decodeNat_ofNat h.id _)) ?_
  refine Shape.foldlM_take_cons (Shape.take_flag rfl hselection rfl) ?_
  refine Shape.foldlM_take_cons (Shape.take_optional rfl hresult (fun result hmem =>
    decodeOptional_result (h.result result hmem)) rfl) ?_
  exact Shape.foldlM_take_cons (Shape.take_optional rfl hrange (fun span hmem =>
    decodeOptional_span (h.selectionRange span hmem)) rfl) rfl

/-- A written response is read back. -/
theorem roundTrips : RoundTrips encode decode Fits where
  decode_encode _ h := read_object h
  fits_of_decode value message h := by
    refine Shape.read_keeps (P := Fits)
      ⟨by decide, by rintro result ⟨⟩, by rintro span ⟨⟩⟩ ?_ h
    simp only [shape, List.forall_mem_cons]
    refine ⟨?_, ?_, ?_, ?_, ?_, ?_, ?_, List.forall_mem_nil _⟩ <;> intro draft value next hdraft hstore
    · obtain ⟨id, hid, rfl⟩ := bind_pure_eq_ok.1 hstore
      exact ⟨Value.lt_of_decodeNat hid, hdraft.result, hdraft.selectionRange⟩
    · obtain ⟨fileId, -, rfl⟩ := bind_pure_eq_ok.1 hstore
      exact ⟨hdraft.id, hdraft.result, hdraft.selectionRange⟩
    · obtain ⟨action, -, rfl⟩ := bind_pure_eq_ok.1 hstore
      exact ⟨hdraft.id, hdraft.result, hdraft.selectionRange⟩
    · obtain ⟨found, hfound, rfl⟩ := bind_pure_eq_ok.1 hstore
      refine ⟨hdraft.id, ?_, hdraft.selectionRange⟩
      rintro result rfl
      exact FormatResult.roundTrips.fits_of_decode _ _ (Value.decodeOptional_eq_ok hfound)
    · obtain ⟨error, -, rfl⟩ := bind_pure_eq_ok.1 hstore
      exact ⟨hdraft.id, hdraft.result, hdraft.selectionRange⟩
    · obtain ⟨isSelection, -, rfl⟩ := bind_pure_eq_ok.1 hstore
      exact ⟨hdraft.id, hdraft.result, hdraft.selectionRange⟩
    · obtain ⟨range, hrange, rfl⟩ := bind_pure_eq_ok.1 hstore
      refine ⟨hdraft.id, hdraft.result, ?_⟩
      rintro span rfl
      exact Span.roundTrips.fits_of_decode _ _ (Value.decodeOptional_eq_ok hrange)

end WorkerResponse

/-- Options, requests to a formatter, settings and the messages of a worker are read back from
their written forms, and a response that is read back brings the outcome it was made of, with the
error as it is passed on. -/
theorem records_round_trip :
    RoundTrips FormatOptions.encode FormatOptions.decode FormatOptions.Tidy ∧
    RoundTrips CursorOptions.encode CursorOptions.decode CursorOptions.Fits ∧
    RoundTrips Settings.encode Settings.decode Settings.Tidy ∧
    RoundTrips WorkerRequest.encode WorkerRequest.decode WorkerRequest.Fits ∧
    RoundTrips WorkerResponse.encode WorkerResponse.decode WorkerResponse.Fits ∧
    ∀ (envelope : Envelope) (outcome : Outcome), envelope.Fits →
      (∀ result, outcome = .ok result → result.Fits) →
      ∃ response, WorkerResponse.decode (envelope.respond outcome).encode = .ok response ∧
        response.outcome = outcome.mapError EngineError.info := by
  refine ⟨FormatOptions.roundTrips, CursorOptions.roundTrips, Settings.roundTrips,
    WorkerRequest.roundTrips, WorkerResponse.roundTrips, ?_⟩
  intro envelope outcome henvelope hresult
  -- an error has no number in it, and a result brings its own
  have hfits : (envelope.respond outcome).Fits := by
    refine ⟨henvelope.id, ?_, henvelope.selectionRange⟩
    cases outcome with
    | error error => rintro result ⟨⟩
    | ok result =>
      rintro _ ⟨⟩
      exact hresult result rfl
  exact ⟨envelope.respond outcome, WorkerResponse.roundTrips.decode_encode _ hfits,
    WorkerResponse.outcome_respond envelope outcome⟩

/-- A request with the largest numbers, a selection, and an unknown option that is nested. -/
def largestRequest : WorkerRequest where
  id := UInt64.size - 1
  fileId := "é"
  code := "x"
  cursorOptions :=
    { parser := "babel"
      cursorOffset := some (UInt64.size - 1)
      filepath := "script.js"
      options :=
        { FormatOptions.empty.set .semi (some false) with
          extra := [("plugins", .array [.object [("name", .null)], .float 0.5])] } }
  isSelection := true
  selectionRange := some ⟨⟨0, UInt64.size - 1⟩, ⟨UInt64.size - 1, 0⟩⟩

/-- The largest request is read back. -/
theorem records_round_trip_largest :
    largestRequest.Fits ∧ WorkerRequest.decode largestRequest.encode = .ok largestRequest := by
  obtain ⟨-, -, -, hrequest, -⟩ := records_round_trip
  have hspan : Span.Fits ⟨⟨0, UInt64.size - 1⟩, ⟨UInt64.size - 1, 0⟩⟩ :=
    ⟨⟨by decide, by decide⟩, ⟨by decide, by decide⟩⟩
  have htidy : largestRequest.cursorOptions.options.Tidy := by
    refine ⟨List.pairwise_singleton .., fun key hkey => ?_⟩
    obtain rfl : key = "plugins" := List.mem_singleton.1 hkey
    decide
  have hapart : ∀ key ∈ ["parser", "cursorOffset", "filepath"],
      largestRequest.cursorOptions.options.extra.find? key = none := by
    simp only [List.forall_mem_cons]
    exact ⟨rfl, rfl, rfl, List.forall_mem_nil _⟩
  have hfits : largestRequest.Fits := by
    refine ⟨⟨by decide, ?_⟩, htidy, hapart, ?_⟩
    · rintro _ ⟨⟩
      exact hspan
    · rintro _ ⟨⟩
      decide
  exact ⟨hfits, hrequest.decode_encode _ hfits⟩

end EditorFormat
