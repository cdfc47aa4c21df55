import EditorFormat.Log.ErrorLog
import Mathlib.Data.List.Basic
import Mathlib.Data.List.Induction

/-!
# What the log keeps of its history

The log is compared with the history of its operations, in which each recorded entry has a place.
An entry is kept until its file is cleared or ten later ones are kept at the same time
(`log_tells_history`). A clearing makes room, so that whether an entry survives depends on the whole
history: the induction is on the history from its end, and the invariant is that the entries are
ordered by their places.
-/

namespace EditorFormat.ErrorLog

/-- An operation on the log. -/
inductive Operation where
  | record (entry : LogEntry)
  | clear (file : FileId)

/-- The log after one more operation. -/
def Operation.apply (log : ErrorLog) : Operation → ErrorLog
  | .record entry => log.record entry
  | .clear file => log.clear file

/-- The log after a history, which begins without entries. -/
def after (history : List Operation) : ErrorLog :=
  history.foldl Operation.apply empty

/-- An entry and the place in the history at which it was recorded. -/
structure Recording where
  place : Nat
  entry : LogEntry

/-- The recordings that are kept after one more operation, which has a place of its own. -/
def keep (kept : List Recording) (next : Operation × Nat) : List Recording :=
  match next.1 with
  | .record entry => (⟨next.2, entry⟩ :: kept).take capacity
  | .clear file => kept.filter fun recording => recording.entry.fileId ≠ file

/-- The recordings that are kept of a history, newest first. -/
def recordings (history : List Operation) : List Recording :=
  history.zipIdx.foldl keep []

/-- Those of some recordings that are later than a given one. -/
def laterThan (recording : Recording) (kept : List Recording) : List Recording :=
  kept.filter fun other => recording.place < other.place

/-- Since an entry was recorded its file was never cleared, and at no moment as many later entries as
the log can hold were kept together. -/
structure Survives (history : List Operation) (recording : Recording) : Prop where
  recorded : history[recording.place]? = some (.record recording.entry)
  uncleared : ∀ place, recording.place < place →
    history[place]? ≠ some (.clear recording.entry.fileId)
  roomy : ∀ moment, recording.place < moment → moment ≤ history.length →
    (laterThan recording (recordings (history.take moment))).length < capacity

/-! ## One more operation -/

section Step

variable {history : List Operation} {operation : Operation} {recording : Recording}

/-- The last operation has the place behind all others. -/
theorem recordings_append (history : List Operation) (operation : Operation) :
    recordings (history ++ [operation]) = keep (recordings history) (operation, history.length) := by
  simp [recordings, List.zipIdx_append]

/-- The log holds the entries that are kept. -/
theorem entries_after (history : List Operation) :
    (after history).entries = (recordings history).map Recording.entry := by
  induction history using List.reverseRecOn with
  | nil => rfl
  | append_singleton history operation ih =>
    have hafter : after (history ++ [operation]) = operation.apply (after history) := by
      simp [after]
    rw [hafter, recordings_append]
    cases operation with
    | record entry => simp [Operation.apply, record, keep, ih, List.map_take]
    | clear file => simp [Operation.apply, clear, keep, ih, List.filter_map, Function.comp_def]

/-- What is kept was recorded. -/
theorem recorded_of_mem (h : recording ∈ recordings history) :
    history[recording.place]? = some (.record recording.entry) := by
  induction history using List.reverseRecOn with
  | nil => cases h
  | append_singleton history operation ih =>
    rw [recordings_append] at h
    have hold (h : recording ∈ recordings history) :
        (history ++ [operation])[recording.place]? = some (.record recording.entry) := by
      have hrecorded := ih h
      obtain ⟨hlt, -⟩ := List.getElem?_eq_some_iff.1 hrecorded
      rw [List.getElem?_append_left hlt, hrecorded]
    cases operation with
    | record entry =>
      rcases List.mem_cons.1 (List.mem_of_mem_take h) with rfl | hkept
      · simp
      · exact hold hkept
    | clear file => exact hold (List.mem_filter.1 h).1

/-- What is kept has a place in the history. -/
theorem place_lt_of_mem (h : recording ∈ recordings history) :
    recording.place < history.length :=
  (List.getElem?_eq_some_iff.1 (recorded_of_mem h)).1

/-- A recording that is made now is later than all that are kept. -/
theorem pairwise_record
    (h : (recordings history).Pairwise fun newer older => older.place < newer.place)
    (entry : LogEntry) : (⟨history.length, entry⟩ :: recordings history).Pairwise
      fun newer older => older.place < newer.place :=
  List.pairwise_cons.2 ⟨fun _ hother => place_lt_of_mem hother, h⟩

/-- Recordings are kept in the order of their places, the last one first. -/
theorem pairwise_recordings (history : List Operation) :
    (recordings history).Pairwise fun newer older => older.place < newer.place := by
  induction history using List.reverseRecOn with
  | nil => exact .nil
  | append_singleton history operation ih =>
    rw [recordings_append]
    cases operation with
    | record entry => exact (pairwise_record ih entry).sublist (List.take_sublist ..)
    | clear file => exact ih.sublist List.filter_sublist

/-- Not all of some recordings are later than one of them. -/
theorem length_laterThan_lt {kept : List Recording} (h : recording ∈ kept) :
    (laterThan recording kept).length < kept.length :=
  List.length_filter_lt_length_iff_exists.2 ⟨recording, h, by simp⟩

/-- A recording is among the first ones when there is room for it besides the later ones of
these. -/
theorem mem_take_iff {kept : List Recording}
    (hkept : kept.Pairwise fun newer older => older.place < newer.place) (h : recording ∈ kept)
    (count : Nat) :
    recording ∈ kept.take count ↔ (laterThan recording (kept.take count)).length < count := by
  constructor
  · intro hmem
    exact Nat.lt_of_lt_of_le (length_laterThan_lt hmem) (List.length_take_le ..)
  · intro hroom
    by_contra hmem
    rw [← List.take_append_drop count kept] at hkept h
    have hdrop : recording ∈ kept.drop count := (List.mem_append.1 h).resolve_left hmem
    -- all of the first ones are later
    have hall : laterThan recording (kept.take count) = kept.take count := by
      refine List.filter_eq_self.2 fun other hother => decide_eq_true ?_
      exact (List.pairwise_append.1 hkept).2.2 other hother recording hdrop
    have hlong : count ≤ kept.length := by
      have := List.length_pos_of_mem hdrop
      rw [List.length_drop] at this
      omega
    rw [hall, List.length_take_of_le hlong] at hroom
    exact Nat.lt_irrefl _ hroom

/-- No more is kept than the log can hold. -/
theorem length_recordings_le (history : List Operation) :
    (recordings history).length ≤ capacity := by
  induction history using List.reverseRecOn with
  | nil => exact Nat.zero_le _
  | append_singleton history operation ih =>
    rw [recordings_append]
    cases operation with
    | record entry => exact List.length_take_le ..
    | clear file => exact Nat.le_trans (List.length_filter_le ..) ih

/-- There is room for what is kept. -/
theorem laterThan_lt_of_mem (h : recording ∈ recordings history) :
    (laterThan recording (recordings history)).length < capacity :=
  Nat.lt_of_lt_of_le (length_laterThan_lt h) (length_recordings_le history)

/-- What is kept after one more operation was kept before or is recorded now. It is not cleared and
has room. -/
theorem mem_recordings_append_iff :
    recording ∈ recordings (history ++ [operation]) ↔
      (recording ∈ recordings history ∨
        recording.place = history.length ∧ operation = .record recording.entry) ∧
      operation ≠ .clear recording.entry.fileId ∧
      (laterThan recording (recordings (history ++ [operation]))).length < capacity := by
  refine ⟨fun h => ?_, fun ⟨hfrom, hoperation, hroom⟩ => ?_⟩
  · have hroom := laterThan_lt_of_mem h
    rw [recordings_append] at h
    cases operation with
    | record entry =>
      refine ⟨?_, nofun, hroom⟩
      rcases List.mem_cons.1 (List.mem_of_mem_take h) with rfl | hkept
      · exact .inr ⟨rfl, rfl⟩
      · exact .inl hkept
    | clear file =>
      obtain ⟨hkept, hother⟩ := List.mem_filter.1 h
      refine ⟨.inl hkept, ?_, hroom⟩
      rintro ⟨⟩
      simp at hother
  · rw [recordings_append] at hroom ⊢
    cases operation with
    | record entry =>
      have hpairwise := pairwise_record (pairwise_recordings history) entry
      refine (mem_take_iff hpairwise ?_ capacity).2 hroom
      rcases hfrom with hkept | ⟨hplace, hrecord⟩
      · exact List.mem_cons_of_mem _ hkept
      · obtain ⟨place, other⟩ := recording
        cases hplace
        cases hrecord
        exact List.mem_cons_self
    | clear file =>
      rcases hfrom with hkept | ⟨-, hrecord⟩
      · refine List.mem_filter.2 ⟨hkept, decide_eq_true fun hfile => hoperation ?_⟩
        rw [hfile]
      · cases hrecord

/-- A recording of before survives one more operation that does not clear its file and leaves room
for it. -/
theorem survives_append_iff (hplace : recording.place < history.length) :
    Survives (history ++ [operation]) recording ↔
      Survives history recording ∧ operation ≠ .clear recording.entry.fileId ∧
        (laterThan recording (recordings (history ++ [operation]))).length < capacity := by
  constructor
  · intro h
    refine ⟨⟨?_, fun place hlater hclear => ?_, fun moment hlater hle => ?_⟩, ?_, ?_⟩
    · rw [← h.recorded, List.getElem?_append_left hplace]
    · obtain ⟨hlt, -⟩ := List.getElem?_eq_some_iff.1 hclear
      exact h.uncleared place hlater (by rw [List.getElem?_append_left hlt, hclear])
    · have hroom := h.roomy moment hlater (by simp; omega)
      rwa [List.take_append_of_le_length hle] at hroom
    · rintro rfl
      exact h.uncleared history.length hplace (by simp)
    · have hroom := h.roomy (history.length + 1) (by omega) (by simp)
      rwa [List.take_of_length_le (by simp)] at hroom
  · rintro ⟨h, hoperation, hroom⟩
    refine ⟨?_, fun place hlater hclear => ?_, fun moment hlater hle => ?_⟩
    · rw [List.getElem?_append_left hplace, h.recorded]
    · rcases Nat.lt_trichotomy place history.length with hlt | rfl | hgt
      · rw [List.getElem?_append_left hlt] at hclear
        exact h.uncleared place hlater hclear
      · rw [List.getElem?_concat_length] at hclear
        exact hoperation (Option.some.inj hclear)
      · rw [List.getElem?_eq_none (by simp; omega)] at hclear
        cases hclear
    · rcases Nat.le_or_eq_of_le_succ (by simpa using hle) with hle | rfl
      · rw [List.take_append_of_le_length hle]
        exact h.roomy moment hlater hle
      · rwa [List.take_of_length_le (by simp)]

/-- The last operation survives if it recorded the entry. -/
theorem survives_last_iff {entry : LogEntry} :
    Survives (history ++ [operation]) ⟨history.length, entry⟩ ↔
      operation = .record entry ∧
        (laterThan ⟨history.length, entry⟩ (recordings (history ++ [operation]))).length <
          capacity := by
  constructor
  · intro h
    have hrecorded := h.recorded
    have hroom := h.roomy (history.length + 1) (Nat.lt_succ_self _) (by simp)
    rw [List.getElem?_concat_length] at hrecorded
    rw [List.take_of_length_le (by simp)] at hroom
    exact ⟨Option.some.inj hrecorded, hroom⟩
  · rintro ⟨rfl, hroom⟩
    refine ⟨List.getElem?_concat_length, fun place hlater hclear => ?_, fun moment hlater hle => ?_⟩
    · rw [List.getElem?_eq_none (by simpa using Nat.succ_le_of_lt hlater)] at hclear
      cases hclear
    · rwa [List.take_of_length_le (by simpa using Nat.succ_le_of_lt hlater)]

end Step

/-! ## The whole history -/

/-- What is kept is what survives. -/
theorem mem_recordings_iff {history : List Operation} {recording : Recording} :
    recording ∈ recordings history ↔ Survives history recording := by
  induction history using List.reverseRecOn with
  | nil => exact ⟨fun h => (List.not_mem_nil h).elim, fun h => absurd h.recorded (by simp)⟩
  | append_singleton history operation ih =>
    rw [mem_recordings_append_iff]
    rcases Nat.lt_trichotomy recording.place history.length with hlt | heq | hgt
    · have hold : ¬ (recording.place = history.length ∧ operation = .record recording.entry) :=
        fun h => Nat.ne_of_lt hlt h.1
      rw [survives_append_iff hlt, ih, or_iff_left hold]
    · have hnew : recording ∉ recordings history :=
        fun h => Nat.ne_of_lt (place_lt_of_mem h) heq
      obtain ⟨place, entry⟩ := recording
      cases heq
      rw [survives_last_iff, or_iff_right hnew]
      constructor
      · rintro ⟨⟨-, hrecord⟩, -, hroom⟩
        exact ⟨hrecord, hroom⟩
      · rintro ⟨rfl, hroom⟩
        exact ⟨⟨rfl, rfl⟩, nofun, hroom⟩
    · -- behind the last operation nothing was recorded
      constructor
      · rintro ⟨hkept | ⟨hplace, -⟩, -⟩
        · exact absurd (place_lt_of_mem hkept) (Nat.lt_asymm hgt)
        · exact absurd hplace (Nat.ne_of_gt hgt)
      · intro h
        obtain ⟨hlt, -⟩ := List.getElem?_eq_some_iff.1 h.recorded
        simp at hlt
        omega

/-- As many entries go with a file as there are of it. -/
theorem clearCount_eq (log : ErrorLog) (file : FileId) :
    log.clearCount file = (log.entriesOf file).length := by
  have hsplit := List.length_eq_length_filter_add (l := log.entries)
    fun entry => decide (entry.fileId = file)
  have hothers : (log.clear file).entries =
      log.entries.filter fun entry => !decide (entry.fileId = file) := by
    simp [clear]
  rw [clearCount, hothers, entriesOf]
  omega

/-- A log that tells its history: the surviving entries, newest first, and what the operations of
the log do with them. -/
structure Tells (history : List Operation) (log : ErrorLog) : Prop where
  entries_eq : log.entries = (recordings history).map Recording.entry
  length_le : log.entries.length ≤ capacity ∧ capacity = 10
  newestFirst : (recordings history).Pairwise fun newer older => older.place < newer.place
  mem_iff : ∀ recording, recording ∈ recordings history ↔ Survives history recording
  /-- Clearing a file takes away its entries, keeps all others as they are, and counts them. -/
  cleared : ∀ file,
    (log.clear file).entries =
      ((recordings history).filter fun kept => kept.entry.fileId ≠ file).map Recording.entry ∧
    log.clearCount file =
      ((recordings history).filter fun kept => kept.entry.fileId = file).length
  /-- A click on an entry leads to its file and place. -/
  jumpTarget?_eq : ∀ index, log.jumpTarget? index =
    (recordings history)[index]?.bind fun kept =>
      kept.entry.jumpTarget?.map fun position => (kept.entry.fileId, position)

/-- After any history, the log tells it. -/
theorem log_tells_history (history : List Operation) : Tells history (after history) where
  entries_eq := entries_after history
  length_le := by
    rw [entries_after, List.length_map]
    exact ⟨length_recordings_le history, rfl⟩
  newestFirst := pairwise_recordings history
  mem_iff := fun _ => mem_recordings_iff
  cleared := fun file => by
    rw [clearCount_eq, clear, entriesOf, entries_after, List.filter_map, List.filter_map,
      List.length_map]
    exact ⟨rfl, rfl⟩
  jumpTarget?_eq := fun index => by
    rw [jumpTarget?, entries_after, List.getElem?_map]
    cases (recordings history)[index]? with
    | none => rfl
    | some kept => exact Option.map_eq_bind.symm

end EditorFormat.ErrorLog
