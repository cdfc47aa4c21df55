import EditorFormat.Proofs.Settings.Keys
import EditorFormat.Proofs.Settings.Reload

/-!
# Opening a settings file

A file of the current version is opened as it is (`run_openAt_of_holdsCurrent`), any other text or a
missing file is replaced by the defaults (`run_openAt_of_not_holdsCurrent`), and a file that cannot
be read is left alone (`run_openAt_of_unreadable`). So a store that was opened is found again
(`opened_store_is_found_again`).
-/

namespace EditorFormat.Store

open Json (Value)
open Files (Path FileError FileSystem)

/-- A file of the current version: the text of an object whose version is the integer 3, whatever
else the object holds. -/
def HoldsCurrent (files : FileSystem) (path : Path) : Prop :=
  ∃ text members, files.readText path = .ok text ∧ Value.read text = .ok (.object members) ∧
    Entries.find? members "version" = some (.int 3)

section Opening

variable {path : Path} {files later : FileSystem}

/-- Settings are taken up from a text exactly when it is of the current version. -/
theorem ofPersisted?_eq_none_iff_of_readText {text : String}
    (hread : files.readText path = .ok text) :
    Settings.ofPersisted? (Value.read text).toOption = none ↔ ¬ HoldsCurrent files path := by
  rw [Settings.ofPersisted?_eq_none_iff]
  constructor
  · rintro hnone ⟨text', members, hread', hvalue, hversion⟩
    obtain rfl : text = text' := Except.ok.inj (hread.symm.trans hread')
    exact hnone members (by rw [hvalue]; rfl) hversion
  · intro hnot members hkept hversion
    cases hvalue : Value.read text with
    | error error => rw [hvalue] at hkept; exact absurd hkept nofun
    | ok value =>
      rw [hvalue] at hkept
      obtain rfl : value = .object members := Option.some.inj hkept
      exact hnot ⟨text, members, hread, hvalue, hversion⟩

/-- A file of the current version is opened and not touched. -/
theorem run_openAt_of_holdsCurrent (h : HoldsCurrent files path) : ∃ settings,
    (openAt path).run.run files = (.ok (start (some path) settings), files) := by
  obtain ⟨text, members, hread, hrest⟩ := h
  cases hkept : Settings.ofPersisted? (Value.read text).toOption with
  | none =>
    exact absurd ⟨text, members, hread, hrest⟩
      ((ofPersisted?_eq_none_iff_of_readText hread).1 hkept)
  | some settings =>
    refine ⟨settings, ?_⟩
    rw [run_openAt, run_persisted?, hread]
    simp only [hkept]

/-- Where there is another text or no file, the defaults are saved. -/
theorem run_openAt_of_not_holdsCurrent (h : ¬ HoldsCurrent files path)
    (hreads : ∀ error, files.readText path = .error error → error = .notFound) :
    (openAt path).run.run files =
      Prod.map (Except.map fun _ => start (some path) .initial) id
        ((save path .initial).run.run files) := by
  rw [run_openAt, run_persisted?]
  cases hread : files.readText path with
  | ok text => simp only [(ofPersisted?_eq_none_iff_of_readText hread).2 h]
  | error error =>
    obtain rfl := hreads error hread
    rfl

/-- A file that cannot be read is not touched, and the error is told. -/
theorem run_openAt_of_unreadable {error : FileError} (hread : files.readText path = .error error)
    (herror : error ≠ .notFound) :
    (openAt path).run.run files = (.error (.io path error), files) := by
  rw [run_openAt, run_persisted?, hread]
  cases error with
  | notFound => exact absurd rfl herror
  | _ => rfl

/-- The defaults are found in the file that they were written to. -/
theorem run_openAt_of_saved (h : (save path .initial).run.run files = (.ok (), later)) :
    (openAt path).run.run later = (.ok (start (some path) .initial), later) := by
  rcases save_cases h with ⟨-, hread⟩ | ⟨⟨error, herror⟩, -⟩
  · rw [run_openAt_of_readText Settings.storable_initial hread,
      Settings.withDefaults_eq_iff.2 Settings.complete_initial]
  · exact absurd herror nofun

/-- A store that was opened is found again, and the files stay as it left them. -/
theorem run_openAt_of_openAt {opened : Store}
    (h : (openAt path).run.run files = (.ok opened, later)) :
    (openAt path).run.run later = (.ok opened, later) := by
  rcases openAt_cases h with ⟨text, settings, -, -, -, rfl⟩ | ⟨rfl, hsaved⟩
  · exact h
  · exact run_openAt_of_saved hsaved

end Opening

/-- A file of the current version is opened as it is. Any other text, or a missing file, is replaced
by the defaults, unless these cannot be saved. Any other failure to read the file is told, and the
file stays. A store that was opened has the current version, and is found again by opening the path
once more, which touches no file. -/
theorem opened_store_is_found_again (path : Path) (files : FileSystem) :
    (HoldsCurrent files path → ∃ opened, (openAt path).run.run files = (.ok opened, files)) ∧
    (¬ HoldsCurrent files path →
      (∀ error, files.readText path = .error error → error = .notFound) →
      (∃ error later, (save path .initial).run.run files = (.error error, later) ∧
        (openAt path).run.run files = (.error error, later)) ∨
      ∃ opened later, (openAt path).run.run files = (.ok opened, later) ∧
        opened.current = .initial ∧ later.readText path = .ok Settings.initial.text) ∧
    (∀ error, files.readText path = .error error → error ≠ .notFound →
      (openAt path).run.run files = (.error (.io path error), files)) ∧
    ∀ opened later, (openAt path).run.run files = (.ok opened, later) →
      opened.current.version = 3 ∧ (openAt path).run.run later = (.ok opened, later) := by
  refine ⟨fun hcurrent => ?_, fun hnot hreads => ?_, fun error => run_openAt_of_unreadable,
    fun opened later hopen => ⟨?_, run_openAt_of_openAt hopen⟩⟩
  · obtain ⟨settings, hopen⟩ := run_openAt_of_holdsCurrent hcurrent
    exact ⟨_, hopen⟩
  · rw [run_openAt_of_not_holdsCurrent hnot hreads]
    cases hsave : (save path .initial).run.run files with
    | mk result later =>
      rcases save_cases hsave with ⟨rfl, hread⟩ | ⟨⟨error, rfl⟩, -⟩
      · exact .inr ⟨_, later, rfl, rfl, hread⟩
      · exact .inl ⟨error, later, rfl, rfl⟩
  · exact (storable_of_openAt hopen).2.version

/-- In an empty folder the defaults are written, and then the file is of the current version. -/
theorem opened_store_is_found_again_empty :
    ¬ HoldsCurrent .empty plainPath ∧
      (openAt plainPath).run.run .empty = (.ok fresh.store, fresh.files) ∧
      HoldsCurrent fresh.files plainPath ∧
      (openAt plainPath).run.run fresh.files = (.ok fresh.store, fresh.files) := by
  have hread : FileSystem.empty.readText plainPath = .error .notFound := rfl
  have hnot : ¬ HoldsCurrent .empty plainPath := by
    rintro ⟨text, members, htext, -⟩
    exact absurd (hread.symm.trans htext) nofun
  obtain ⟨-, hreplaced, -, hagain⟩ := opened_store_is_found_again plainPath .empty
  have hreads : ∀ error, FileSystem.empty.readText plainPath = .error error →
      error = .notFound := fun error herror => (Except.error.inj (hread.symm.trans herror)).symm
  rcases hreplaced hnot hreads with ⟨error, later, -, hopen⟩ | ⟨opened, later, hopen, -, htext⟩
  · rw [run_openAt_empty] at hopen
    exact absurd (Prod.mk.inj hopen).1 nofun
  · obtain ⟨hopened, rfl⟩ := Prod.mk.inj (run_openAt_empty.symm.trans hopen)
    have hvalue := Settings.storable_initial.read_text
    have hversion := Settings.tidy_initial.find?_object_version
    exact ⟨hnot, run_openAt_empty, ⟨_, _, htext, hvalue, hversion⟩,
      (hagain _ _ run_openAt_empty).2⟩

end EditorFormat.Store
