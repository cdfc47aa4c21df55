import EditorFormat.Json.Decode
import EditorFormat.Proofs.Entries

/-!
# Records in objects

An object has its members in the order of their keys, so a record is read from it one field after
the other in this order: `read_object` says that reading is a fold over the names of the fields.
What every field keeps of a draft is true of a record that was read, whether it was given as an
object or as an array (`read_keeps`).
-/

namespace EditorFormat.Json

/-- What two computations make one after the other is made by both. -/
theorem bind_eq_ok {α β ε : Type} {first : Except ε α} {next : α → Except ε β} {result : β} :
    first >>= next = .ok result ↔ ∃ value, first = .ok value ∧ next value = .ok result := by
  cases first with
  | error error => exact ⟨nofun, nofun⟩
  | ok value => exact ⟨fun h => ⟨value, rfl, h⟩, fun ⟨_, hvalue, h⟩ => Except.ok.inj hvalue ▸ h⟩

/-- What is made of a computation comes from its value. -/
theorem bind_pure_eq_ok {α β ε : Type} {first : Except ε α} {make : α → β} {result : β} :
    (first >>= fun value => pure (make value)) = .ok result ↔
      ∃ value, first = .ok value ∧ make value = result :=
  bind_eq_ok.trans ⟨fun ⟨value, h, hmake⟩ => ⟨value, h, Except.ok.inj hmake⟩,
    fun ⟨value, h, hmake⟩ => ⟨value, h, congrArg Except.ok hmake⟩⟩

/-- Rewording an error changes no result. -/
theorem mapError_eq_ok {α ε δ : Type} {result : Except ε α} {reword : ε → δ} {found : α} :
    result.mapError reword = .ok found ↔ result = .ok found := by
  cases result with
  | ok value => exact ⟨fun h => congrArg _ (Except.ok.inj h), fun h => congrArg _ (Except.ok.inj h)⟩
  | error cause => exact ⟨nofun, nofun⟩

/-! ## Numbers and values that may be null -/

namespace Value

variable {α : Type} {limit n : Nat} {expected : Expected} {value : Value}

/-- A number below the limit is read as it was written. -/
theorem decodeNat_ofNat (h : n < limit) (expected : Expected) :
    (ofNat n).decodeNat limit expected = .ok n := by
  have hrange : (0 : Int) ≤ n ∧ (n : Int) < limit := ⟨Int.natCast_nonneg _, Int.ofNat_lt.2 h⟩
  rw [ofNat, decodeNat, if_pos hrange]
  rfl

/-- A number below the limit is read where null is allowed. -/
theorem decodeOptional_ofNat (h : n < limit) (expected : Expected) :
    (ofNat n).decodeOptional (decodeNat limit expected) = .ok (some n) := by
  show some <$> (ofNat n).decodeNat limit expected = .ok (some n)
  rw [decodeNat_ofNat h]
  rfl

/-- An object that is read is read where null is allowed. -/
theorem decodeOptional_object {decode : Value → Except DecodeError α} {found : α}
    {members : List (String × Value)} (h : decode (.object members) = .ok found) :
    (object members).decodeOptional decode = .ok (some found) := by
  show some <$> decode (.object members) = .ok (some found)
  rw [h]
  rfl

/-- What is read as a number is that number, and it is below the limit. -/
theorem decodeNat_eq_ok (h : value.decodeNat limit expected = .ok n) :
    value = ofNat n ∧ n < limit := by
  cases value with
  | int found =>
    rw [decodeNat] at h
    split at h
    case isTrue hrange =>
      obtain rfl := Except.ok.inj h
      exact ⟨congrArg Value.int (Int.toNat_of_nonneg hrange.1).symm, by omega⟩
    case isFalse => exact absurd h nofun
  | _ => exact absurd h nofun

/-- A number that was read is below the limit. -/
theorem lt_of_decodeNat (h : value.decodeNat limit expected = .ok n) : n < limit :=
  (decodeNat_eq_ok h).2

/-- A value that was read where null is allowed is null or was read as such. -/
theorem decodeOptional_eq_ok {decode : Value → Except DecodeError α} {found : α}
    (h : value.decodeOptional decode = .ok (some found)) : decode value = .ok found := by
  have hsome (hread : some <$> decode value = .ok (some found)) : decode value = .ok found := by
    cases hdecode : decode value with
    | error error => rw [hdecode] at hread; exact absurd hread nofun
    | ok other =>
      rw [hdecode] at hread
      exact congrArg Except.ok (Option.some.inj (Except.ok.inj hread))
  cases value with
  | null => exact absurd h nofun
  | _ => exact hsome h

end Value

/-! ## Fields of a record -/

namespace Shape

variable {δ : Type}

/-- The keys of the fields. -/
def names (shape : Shape δ) : List String :=
  shape.fields.map Field.name

/-- A field is found exactly for the keys of the fields. -/
theorem isSome_field?_iff {shape : Shape δ} {key : String} :
    (shape.field? key).isSome ↔ key ∈ shape.names := by
  rw [field?, List.find?_isSome, names, List.mem_map]
  simp only [decide_eq_true_eq]

/-- No field is found for any other key. -/
theorem isNone_field?_iff {shape : Shape δ} {key : String} :
    (shape.field? key).isNone ↔ key ∉ shape.names := by
  rw [← isSome_field?_iff, Option.not_isSome_iff_eq_none, Option.isNone_iff_eq_none]

/-- A field that was not given before is stored, and then the others are read. -/
theorem readMembers_cons {shape : Shape δ} {field : Field δ} {seen : List String} {key : String}
    (hfield : shape.field? key = some field) (hseen : seen.contains key = false) (draft : δ)
    (value : Value) (rest : List (String × Value)) :
    shape.readMembers seen draft ((key, value) :: rest) =
      field.store draft value >>= fun next => shape.readMembers (key :: seen) next rest := by
  simp only [readMembers, hfield, hseen]
  rfl

/-- Only the fields of a record are looked at. -/
theorem readMembers_filter (shape : Shape δ) (seen : List String) (draft : δ)
    (members : List (String × Value)) :
    shape.readMembers seen draft (members.filter fun member => (shape.field? member.1).isSome) =
      shape.readMembers seen draft members := by
  induction members generalizing seen draft with
  | nil => rfl
  | cons member rest ih =>
    obtain ⟨key, value⟩ := member
    cases hfield : shape.field? key with
    | none =>
      rw [List.filter_cons_of_neg (by simp [hfield]), ih]
      simp only [readMembers, hfield]
    | some field =>
      rw [List.filter_cons_of_pos (by simp [hfield])]
      simp only [readMembers, hfield, ih]

/-- A record is read from its fields alone. -/
theorem read_filter (shape : Shape δ) (blank : δ) (members : List (String × Value)) :
    shape.read blank (.object (members.filter fun member => (shape.field? member.1).isSome)) =
      shape.read blank (.object members) := by
  simp only [read, readMembers_filter]

/-! ## Reading in the order of the keys -/

section Order

variable {shape : Shape δ} {members : Object} {draft next final : δ} {name : String}
  {names : List String}

/-- The draft after the member of a name is stored, if there is one. -/
def take (shape : Shape δ) (members : Object) (draft : δ) (name : String) :
    Except DecodeError δ :=
  match shape.field? name, members.find? name with
  | some field, some value => field.store draft value
  | _, _ => .ok draft

/-- Without a member the draft is left alone. -/
theorem take_absent (h : members.find? name = none) (draft : δ) :
    shape.take members draft name = .ok draft := by
  rw [take, h]
  cases shape.field? name <;> rfl

/-- A member is stored. -/
theorem take_eq_store {field : Field δ} {value : Value} (hfield : shape.field? name = some field)
    (h : members.find? name = some value) (draft : δ) :
    shape.take members draft name = field.store draft value := by
  rw [take, hfield, h]

/-- A member that is always written is read back. -/
theorem take_written {α : Type} {isRequired : Bool} {put : δ → α → δ}
    {decode : Value → Except DecodeError α} {found : α} {value : Value}
    (hfield : shape.field? name =
      some ⟨name, isRequired, fun draft value => return put draft (← decode value)⟩)
    (h : members.find? name = some value) (hread : decode value = .ok found) :
    shape.take members draft name = .ok (put draft found) :=
  (take_eq_store hfield h draft).trans (bind_pure_eq_ok.2 ⟨found, hread, rfl⟩)

/-- A member that is written for a value, if there is one, is read back. -/
theorem take_optional {α : Type} {put : δ → Option α → δ} {decode : Value → Except DecodeError α}
    {encode : α → Value} {found : Option α}
    (hfield : shape.field? name =
      some ⟨name, false, fun draft value => return put draft (← value.decodeOptional decode)⟩)
    (h : members.find? name = found.map encode)
    (hread : ∀ value ∈ found, (encode value).decodeOptional decode = .ok (some value))
    (hdraft : put draft none = draft) :
    shape.take members draft name = .ok (put draft found) := by
  cases found with
  | none => rw [take_absent h, hdraft]
  | some value => exact take_written hfield h (hread value rfl)

/-- A flag that is written only when it is set is read back. -/
theorem take_flag {put : δ → Bool → δ} {flag : Bool}
    (hfield : shape.field? name =
      some ⟨name, false, fun draft value => return put draft (← value.decodeBool)⟩)
    (h : members.find? name = if flag then some (.bool true) else none)
    (hdraft : put draft false = draft) :
    shape.take members draft name = .ok (put draft flag) := by
  cases flag with
  | false => rw [take_absent h, hdraft]
  | true => exact take_written hfield h rfl

/-- One name is read after another. -/
theorem foldlM_take_cons (h : shape.take members draft name = .ok next)
    (hrest : names.foldlM (shape.take members) next = .ok final) :
    (name :: names).foldlM (shape.take members) draft = .ok final := by
  rw [List.foldlM_cons, h]
  exact hrest

/-- Members that are listed by names of fields are stored in the order of these names. Those that
there are have been seen then. -/
theorem readMembers_filterMap {seen : List String} (hnodup : names.Nodup)
    (hfields : ∀ name ∈ names, (shape.field? name).isSome) (hseen : ∀ name ∈ names, name ∉ seen) :
    shape.readMembers seen draft
        (names.filterMap fun name => (members.find? name).map fun value => (name, value)) =
      (names.foldlM (shape.take members) draft).map fun next =>
        ((names.filter fun name => (members.find? name).isSome).reverse ++ seen, next) := by
  induction names generalizing seen draft with
  | nil => rfl
  | cons name names ih =>
    obtain ⟨hnotMem, hnodup⟩ := List.nodup_cons.1 hnodup
    obtain ⟨hfield, hfields⟩ := List.forall_mem_cons.1 hfields
    obtain ⟨hname, hseen⟩ := List.forall_mem_cons.1 hseen
    cases hfind : members.find? name with
    | none =>
      rw [List.filterMap_cons_none (by rw [hfind]; rfl), ih hnodup hfields hseen,
        List.foldlM_cons, take_absent hfind, List.filter_cons_of_neg (by simp [hfind])]
      rfl
    | some value =>
      obtain ⟨field, hfield⟩ := Option.isSome_iff_exists.1 hfield
      have hcontains : seen.contains name = false := by simpa using hname
      rw [List.filterMap_cons_some (by rw [hfind]; rfl), readMembers_cons hfield hcontains,
        List.foldlM_cons, take_eq_store hfield hfind, List.filter_cons_of_pos (by simp [hfind])]
      cases field.store draft value with
      | error error => rfl
      | ok next =>
        -- the name that was just seen does not come again
        have hother : ∀ other ∈ names, other ∉ name :: seen := by
          intro other hother hmem
          rcases List.mem_cons.1 hmem with rfl | hmem
          · exact hnotMem hother
          · exact hseen other hother hmem
        show shape.readMembers (name :: seen) next _ = _
        rw [ih hnodup hfields hother, List.reverse_cons, List.append_assoc]
        rfl

/-- A record whose required fields are all there is read from an object in the order of the names of
its fields. -/
theorem read_object (hsorted : members.Sorted) (hnames : names.Pairwise (· < ·))
    (hperm : names.Perm shape.names)
    (hrequired : ∀ field ∈ shape.fields, field.isRequired → (members.find? field.name).isSome)
    (blank : δ) :
    shape.read blank (.object members) = names.foldlM (shape.take members) blank := by
  have hkeep (key : String) : (shape.field? key).isSome ↔ key ∈ names := by
    rw [isSome_field?_iff, hperm.mem_iff]
  have hnodup : names.Nodup := hnames.imp fun hlt => Std.ne_of_lt hlt
  rw [← read_filter, hsorted.filter_eq hnames hkeep, read,
    readMembers_filterMap hnodup (fun name hname => (hkeep name).2 hname) fun _ _ =>
      List.not_mem_nil]
  cases names.foldlM (shape.take members) blank with
  | error error => rfl
  | ok draft =>
    -- no field is missing, as those that are required were seen
    have hnone : (shape.fields.find? fun field => field.isRequired &&
        !((names.filter fun name => (members.find? name).isSome).reverse ++ []).contains
          field.name) = none := by
      refine List.find?_eq_none.2 fun field hfield => ?_
      have hmem : field.name ∈ names := hperm.mem_iff.2 (List.mem_map_of_mem hfield)
      cases hrequires : field.isRequired with
      | false => simp
      | true => simp [hmem, hrequired field hfield hrequires]
    simp only [Except.map, bind, Except.bind, hnone]
    rfl

end Order

/-! ## What is kept while a record is read -/

section Keeps

variable {shape : Shape δ} {P : δ → Prop} {draft record : δ}

/-- What every field keeps is kept by members. -/
theorem readMembers_keeps (hstore : ∀ field ∈ shape.fields, ∀ draft value next, P draft →
      field.store draft value = .ok next → P next)
    {members : List (String × Value)} {seen left : List String} (hdraft : P draft)
    (h : shape.readMembers seen draft members = .ok (left, record)) : P record := by
  induction members generalizing seen draft with
  | nil =>
    obtain ⟨-, rfl⟩ := Prod.mk.inj (Except.ok.inj h)
    exact hdraft
  | cons member rest ih =>
    obtain ⟨key, value⟩ := member
    cases hfield : shape.field? key with
    | none =>
      simp only [readMembers, hfield] at h
      exact ih hdraft h
    | some field =>
      cases hcontains : seen.contains key with
      | true =>
        simp only [readMembers, hfield, hcontains] at h
        exact absurd h nofun
      | false =>
        rw [readMembers_cons hfield hcontains] at h
        obtain ⟨next, hnext, hrest⟩ := bind_eq_ok.1 h
        have hmem : field ∈ shape.fields := List.mem_of_find?_eq_some hfield
        exact ih (hstore field hmem draft value next hdraft hnext) hrest

/-- What every field keeps is kept by elements. -/
theorem readElements_keeps {fields : List (Field δ)}
    (hstore : ∀ field ∈ fields, ∀ draft value next, P draft →
      field.store draft value = .ok next → P next)
    {length position : Nat} {items : List Value} (hdraft : P draft)
    (h : shape.readElements length position fields draft items = .ok record) : P record := by
  induction fields generalizing position draft items with
  | nil =>
    cases items with
    | nil => exact Except.ok.inj h ▸ hdraft
    | cons value rest => exact absurd h nofun
  | cons field fields ih =>
    obtain ⟨hfirst, hothers⟩ := List.forall_mem_cons.1 hstore
    cases items with
    | nil =>
      rw [readElements] at h
      split at h
      · exact absurd h nofun
      · exact ih hothers hdraft h
    | cons value rest =>
      rw [readElements] at h
      obtain ⟨next, hnext, hrest⟩ := bind_eq_ok.1 h
      exact ih hothers (hfirst draft value next hdraft hnext) hrest

/-- What every field keeps of a draft is true of a record that was read. -/
theorem read_keeps {blank : δ} (hblank : P blank)
    (hstore : ∀ field ∈ shape.fields, ∀ draft value next, P draft →
      field.store draft value = .ok next → P next)
    {value : Value} (h : shape.read blank value = .ok record) : P record := by
  cases value with
  | object members =>
    obtain ⟨⟨seen, draft⟩, hmembers, hfound⟩ := bind_eq_ok.1 h
    have hdraft : P draft := readMembers_keeps hstore hblank hmembers
    dsimp only at hfound
    split at hfound
    · exact absurd hfound nofun
    · exact Except.ok.inj hfound ▸ hdraft
  | array items => exact readElements_keeps hstore hblank h
  | _ => exact absurd h nofun

end Keeps

end Shape

end EditorFormat.Json
