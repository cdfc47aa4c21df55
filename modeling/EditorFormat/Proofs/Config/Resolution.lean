import EditorFormat.Config.Resolve
import EditorFormat.Proofs.Files.Writing

/-!
# Which config file is used

The probes of a folder complete in any order. What they find together depends only on which of
them found a file (`Best.of_perm`), so the config file is the first one in the order of the names
(`foundBy?_first`), and there is none only when no name is a file (`foundBy?_eq_none_iff`).
`config_is_of_first_file` says what the answer is then: the options in that file, or an error with
its path.
-/

namespace EditorFormat.Config

open Files (Path Disk FileSystem FileError Entry)

/-! ## Probes in any order -/

/-- What probes have found together: nothing, or a file whose place is the least one. -/
inductive Best (seen : List Probe) : Option Nat → Prop where
  | nothing (h : ∀ place, (place, true) ∉ seen) : Best seen none
  | file {place : Nat} (hfile : (place, true) ∈ seen)
      (hleast : ∀ other, (other, true) ∈ seen → place ≤ other) : Best seen (some place)

section Probes

variable {seen completed : List Probe} {best : Option Nat}

/-- One more probe is taken into account. -/
theorem Best.better (h : Best seen best) (probe : Probe) :
    Best (seen ++ [probe]) (better best probe) := by
  obtain ⟨place, isFile⟩ := probe
  cases isFile with
  | false =>
    -- the files that were found are the same as before
    have hsame (other : Nat) : (other, true) ∈ seen ++ [(place, false)] ↔ (other, true) ∈ seen := by
      simp
    cases h with
    | nothing hnone => exact .nothing fun other hother => hnone other ((hsame other).1 hother)
    | file hfile hleast =>
      exact .file ((hsame _).2 hfile) fun other hother => hleast other ((hsame other).1 hother)
  | true =>
    have hmem (other : Nat) :
        (other, true) ∈ seen ++ [(place, true)] ↔ (other, true) ∈ seen ∨ other = place := by
      simp
    cases h with
    | nothing hnone =>
      refine .file ((hmem place).2 (.inr rfl)) fun other hother => ?_
      rcases (hmem other).1 hother with hseen | rfl
      · exact absurd hseen (hnone other)
      · exact Nat.le_refl _
    | @file old hfile hleast =>
      -- the lesser of the two places is the place of a file and below all others
      refine .file ((hmem (min old place)).2 ?_) fun other hother => ?_
      · rcases Nat.le_total old place with hle | hle
        · exact .inl (by rw [Nat.min_eq_left hle]; exact hfile)
        · exact .inr (Nat.min_eq_right hle)
      · show min old place ≤ other
        rcases (hmem other).1 hother with hseen | rfl
        · exact Nat.le_trans (Nat.min_le_left ..) (hleast other hseen)
        · exact Nat.min_le_right ..

/-- All probes are taken into account. -/
theorem Best.foldl (h : Best seen best) (completed : List Probe) :
    Best (seen ++ completed) (completed.foldl Config.better best) := by
  induction completed generalizing seen best with
  | nil => simpa using h
  | cons probe later ih => simpa using ih (h.better probe)

/-- The best of completed probes is found. -/
theorem best_foldl (completed : List Probe) : Best completed (completed.foldl better none) :=
  Best.foldl (.nothing fun _ => List.not_mem_nil) completed

/-- What was found does not depend on the order of the probes. -/
theorem Best.of_perm (h : Best seen best) (hperm : completed.Perm seen) : Best completed best := by
  cases h with
  | nothing hnone => exact .nothing fun place hplace => hnone place (hperm.mem_iff.1 hplace)
  | file hfile hleast =>
    exact .file (hperm.mem_iff.2 hfile) fun other hother => hleast other (hperm.mem_iff.1 hother)

/-- Probes have one best file at most. -/
theorem Best.unique {other : Option Nat} (h : Best seen best) (hother : Best seen other) :
    best = other := by
  cases h with
  | nothing hnone =>
    cases hother with
    | nothing => rfl
    | file hfile => exact absurd hfile (hnone _)
  | file hfile hleast =>
    cases hother with
    | nothing hnone => exact absurd hfile (hnone _)
    | file hsame hbelow => exact congrArg some (Nat.le_antisymm (hleast _ hsame) (hbelow _ hfile))

end Probes

section Folder

variable {disk : Disk} {root : Path} {completed : List Probe}

/-- A probe has found a file when the name at its place is one. -/
theorem mem_probes {place : Nat} :
    (place, true) ∈ probes disk root ↔
      ∃ name, fileNames[place]? = some name ∧ disk.isFile (root.join name) = true := by
  rw [probes, List.mem_map]
  constructor
  · rintro ⟨⟨name, index⟩, hnamed, heq⟩
    obtain ⟨rfl, hfile⟩ := Prod.mk.inj heq
    exact ⟨name, List.mk_mem_zipIdx_iff_getElem?.1 hnamed, hfile⟩
  · rintro ⟨name, hname, hfile⟩
    exact ⟨(name, place), List.mk_mem_zipIdx_iff_getElem?.2 hname, Prod.ext rfl hfile⟩

/-- A name is the config file of a folder: it is a file, and no name before it is one. -/
def IsFirst (disk : Disk) (root : Path) (name : String) : Prop :=
  ∃ earlier later, fileNames = earlier ++ name :: later ∧ disk.isFile (root.join name) = true ∧
    ∀ other ∈ earlier, disk.isFile (root.join other) = false

/-- No config file is found exactly when no name is a file. -/
theorem foundBy?_eq_none_iff (h : completed.Perm (probes disk root)) :
    foundBy? root completed = none ↔ ∀ name ∈ fileNames, disk.isFile (root.join name) = false := by
  have hbest := (best_foldl completed).of_perm h.symm
  generalize hplace : completed.foldl better none = best at hbest
  rw [foundBy?, hplace]
  cases hbest with
  | nothing hnone =>
    refine iff_of_true rfl fun name hname => Bool.eq_false_iff.2 fun hfile => ?_
    obtain ⟨place, hat⟩ := List.mem_iff_getElem?.1 hname
    exact hnone place (mem_probes.2 ⟨name, hat, hfile⟩)
  | @file place hfile hleast =>
    obtain ⟨name, hat, hfile⟩ := mem_probes.1 hfile
    have hname : name ∈ fileNames := List.mem_iff_getElem?.2 ⟨place, hat⟩
    refine iff_of_false ?_ fun hnone => ?_
    · simp [hat]
    · exact absurd hfile (Bool.eq_false_iff.1 (hnone name hname))

/-- The first name that is a file is the one that is found. -/
theorem foundBy?_first {name : String} (h : completed.Perm (probes disk root))
    (hfirst : IsFirst disk root name) : foundBy? root completed = some (root.join name) := by
  obtain ⟨earlier, later, hnames, hfile, hearlier⟩ := hfirst
  have hat : fileNames[earlier.length]? = some name := by simp [hnames]
  have hbest : Best (probes disk root) (some earlier.length) := by
    refine .file (mem_probes.2 ⟨name, hat, hfile⟩) fun place hplace => ?_
    obtain ⟨other, hother, hisFile⟩ := mem_probes.1 hplace
    -- a smaller place would be the place of an earlier name
    refine Nat.le_of_not_lt fun hlt => ?_
    rw [hnames, List.getElem?_append_left hlt] at hother
    have hmem : other ∈ earlier := List.mem_iff_getElem?.2 ⟨place, hother⟩
    exact absurd hisFile (Bool.eq_false_iff.1 (hearlier other hmem))
  have hplace : completed.foldl better none = some earlier.length :=
    (best_foldl completed).unique (hbest.of_perm h)
  simp [foundBy?, hplace, hat]

/-- Where one of the names is a file, there is a first one. -/
theorem exists_isFirst (h : ∃ name ∈ fileNames, disk.isFile (root.join name) = true) :
    ∃ name, IsFirst disk root name := by
  have hsome : (fileNames.find? fun name => disk.isFile (root.join name)).isSome :=
    List.find?_isSome.2 h
  obtain ⟨name, hname⟩ := Option.isSome_iff_exists.1 hsome
  obtain ⟨hfile, earlier, later, hnames, hearlier⟩ := List.find?_eq_some_iff_append.1 hname
  refine ⟨name, earlier, later, hnames, hfile, fun other hother => ?_⟩
  simpa using hearlier other hother

end Folder

/-! ## Names of config files -/

/-- What follows the last slash is the name. -/
theorem lastName_append {path : Path} (before : List Char) {name : String}
    (hpath : path.toList = before ++ name.toList)
    (hbefore : ∀ c, before.getLast? = some c → c = '/') (hname : '/' ∉ name.toList) :
    lastName path = name := by
  -- from the end on, the name has no slash, and what is before it is empty or starts with one
  have hall : ∀ c ∈ name.toList.reverse, decide (c ≠ '/') = true := by
    intro c hc
    exact decide_eq_true fun heq => hname (heq ▸ List.mem_reverse.1 hc)
  have hstop : before.reverse.takeWhile (fun c => decide (c ≠ '/')) = [] := by
    cases hrev : before.reverse with
    | nil => rfl
    | cons c rest =>
      have hlast : before.getLast? = some c := by rw [← List.head?_reverse, hrev, List.head?_cons]
      exact List.takeWhile_cons_of_neg (by simp [hbefore c hlast])
  rw [lastName, hpath, List.reverse_append, List.takeWhile_append_of_pos hall, hstop,
    List.append_nil, List.reverse_reverse, String.ofList_toList]

/-- The name of a file in a folder. -/
theorem lastName_join (folder : Path) {name : String} (hname : '/' ∉ name.toList) :
    lastName (Path.join folder name) = name := by
  rw [Path.join]
  split
  · exact lastName_append [] rfl nofun hname
  · split
    case isTrue hslash =>
      refine lastName_append folder.toList String.toList_append (fun c hc => ?_) hname
      exact (Option.some.inj (hslash.symm.trans hc)).symm
    case isFalse =>
      refine lastName_append (folder.toList ++ ['/']) ?_ (fun c hc => ?_) hname
      · rw [String.toList_append, String.toList_append]; rfl
      · simpa using hc.symm

/-- Each name of a config file is a name in a folder and has a format. -/
theorem name_of_mem_fileNames {name : String} (h : name ∈ fileNames) :
    '/' ∉ name.toList ∧ (Format.ofFileName? name).isSome := by
  revert name
  decide

/-! ## Reading -/

/-- What a config file of a format answers: its options, or an error with its path. -/
inductive Answers (words : Wording) (disk : Disk) (path : Path) (format : Format) :
    Except ConfigError (Option Resolved) → Prop where
  | options {text : String} {options : FormatOptions}
      (hcontent : disk.content path = .ok text.toUTF8)
      (hparse : parse words format text = .ok options) :
      Answers words disk path format (.ok (some ⟨path, format, options⟩))
  | malformed {text : String} {cause : Cause}
      (hcontent : disk.content path = .ok text.toUTF8)
      (hparse : parse words format text = .error cause) :
      Answers words disk path format (.error ⟨path, cause⟩)
  | notText {content : ByteArray} (hcontent : disk.content path = .ok content)
      (hbytes : ∀ text : String, content ≠ text.toUTF8) :
      Answers words disk path format
        (.error ⟨path, .unreadable .invalidData (words.file .invalidData)⟩)
  | unreadable {error : FileError} (hcontent : disk.content path = .error error) :
      Answers words disk path format (.error ⟨path, .unreadable error (words.file error)⟩)

section Reading

variable {words : Wording} {disk : Disk} {path : Path} {content : ByteArray}

/-- Bytes that a text is read from are the bytes of this text. -/
theorem eq_toUTF8_of_fromUTF8? {text : String} (h : String.fromUTF8? content = some text) :
    content = text.toUTF8 := by
  rw [String.fromUTF8?] at h
  split at h
  · exact Option.some.inj h ▸ rfl
  · cases h

/-- A file is read as text, unless it has no content or the bytes are no text. -/
theorem readText_cases (disk : Disk) (path : Path) :
    (∃ text, disk.content path = .ok text.toUTF8 ∧ disk.readText path = .ok text) ∨
    (∃ content, disk.content path = .ok content ∧ (∀ text : String, content ≠ text.toUTF8) ∧
      disk.readText path = .error .invalidData) ∨
    ∃ error, disk.content path = .error error ∧ disk.readText path = .error error := by
  rw [Disk.readText]
  cases hcontent : disk.content path with
  | error error => exact .inr (.inr ⟨error, rfl, rfl⟩)
  | ok content =>
    cases htext : String.fromUTF8? content with
    | some text =>
      refine .inl ⟨text, congrArg Except.ok (eq_toUTF8_of_fromUTF8? htext), ?_⟩
      simp only [bind, Except.bind, htext]
      rfl
    | none =>
      refine .inr (.inl ⟨content, rfl, fun text heq => ?_, ?_⟩)
      · rw [heq, FileSystem.fromUTF8?_toUTF8] at htext
        cases htext
      · simp only [bind, Except.bind, htext]
        rfl

/-- A file answers in the format of its name. -/
theorem answers_readFile (words : Wording) (disk : Disk) {format : Format}
    (h : Format.ofFileName? (lastName path) = some format) :
    Answers words disk path format (some <$> readFile words disk path) := by
  rw [readFile, h]
  obtain ⟨text, hcontent, hread⟩ | ⟨content, hcontent, hbytes, hread⟩ | ⟨error, hcontent, hread⟩ :=
    readText_cases disk path <;> rw [hread]
  · show Answers words disk path format (some <$> ((parse words format text).mapError _ >>= _))
    cases hparse : parse words format text with
    | error cause => exact .malformed hcontent hparse
    | ok options => exact .options hcontent hparse
  · exact .notText hcontent hbytes
  · exact .unreadable hcontent

end Reading

/-! ## The folder -/

/-- A folder is the deepest of several, and the last one of those that are equally deep. -/
def Deepest (folders : List Path) (folder : Path) : Prop :=
  ∃ earlier later, folders = earlier ++ folder :: later ∧
    (∀ other ∈ earlier, other.components.length ≤ folder.components.length) ∧
    ∀ other ∈ later, other.components.length < folder.components.length

/-- The folder in which the config of a file is looked for: the deepest of those around the file,
or the file's own folder when none is around it. -/
inductive Searched (file : Path) (folders : List Path) : Path → Prop where
  | around {folder : Path}
      (h : Deepest (folders.filter fun other => file.startsWith other) folder) :
      Searched file folders folder
  | own (h : ∀ folder ∈ folders, file.startsWith folder = false) :
      Searched file folders (file.parent?.getD "")

section Folders

variable {seen : List Path} {folder : Path}

/-- One more folder is compared. -/
theorem Deepest.deeper (h : Deepest seen folder) (next : Path) :
    Deepest (seen ++ [next]) (deeper folder next) := by
  obtain ⟨earlier, later, rfl, hearlier, hlater⟩ := h
  rw [Config.deeper]
  split
  case isTrue hlt =>
    refine ⟨earlier, later ++ [next], by simp, hearlier, fun other hother => ?_⟩
    rcases List.mem_append.1 hother with hmem | hmem
    · exact hlater other hmem
    · exact List.mem_singleton.1 hmem ▸ hlt
  case isFalse hle =>
    have hle : folder.components.length ≤ next.components.length := Nat.le_of_not_lt hle
    refine ⟨earlier ++ folder :: later, [], rfl, fun other hother => ?_, nofun⟩
    rcases List.mem_append.1 hother with hmem | hmem
    · exact Nat.le_trans (hearlier other hmem) hle
    · rcases List.mem_cons.1 hmem with rfl | hmem
      · exact hle
      · exact Nat.le_trans (Nat.le_of_lt (hlater other hmem)) hle

/-- All folders are compared. -/
theorem Deepest.foldl (h : Deepest seen folder) (later : List Path) :
    Deepest (seen ++ later) (later.foldl Config.deeper folder) := by
  induction later generalizing seen folder with
  | nil => simpa using h
  | cons next later ih => simpa using ih (h.deeper next)

/-- The config of a file is looked for in its folder. -/
theorem searched_searchRoot (file : Path) (folders : List Path) :
    Searched file folders (searchRoot file folders) := by
  rw [searchRoot]
  split
  case h_1 hnone =>
    refine .own fun folder hfolder => Bool.eq_false_iff.2 fun hstarts => ?_
    exact List.not_mem_nil (hnone ▸ List.mem_filter.2 ⟨hfolder, hstarts⟩)
  case h_2 folder later hsome =>
    have honly : Deepest [folder] folder := ⟨[], [], rfl, nofun, nofun⟩
    exact .around (hsome ▸ honly.foldl later)

end Folders

/-! ## The config -/

/-- Whether a file system has a file at a path. -/
theorem isFile_disk_iff {files : FileSystem} {path : Path} :
    files.disk.isFile path = true ↔ ∃ content, files.find path = .ok (.file content) := by
  show files.isFile path = true ↔ _
  rw [FileSystem.isFile]
  constructor
  · intro h
    split at h
    · exact ⟨_, ‹_›⟩
    · cases h
  · rintro ⟨content, hfind⟩
    rw [hfind]

/-- An answer of a file is never that there is no config. -/
theorem Answers.ne_none {words : Wording} {disk : Disk} {path : Path} {format : Format}
    {answer : Except ConfigError (Option Resolved)} (h : Answers words disk path format answer) :
    answer ≠ .ok none := by
  cases h <;> nofun

/-- The order of the probes does not matter. -/
theorem resolveIn_of_perm {words : Wording} {disk : Disk} {root : Path}
    {completed other : List Probe} (h : completed.Perm other) :
    resolveIn words disk root completed = resolveIn words disk root other := by
  have hbest : completed.foldl better none = other.foldl better none :=
    (best_foldl completed).unique ((best_foldl other).of_perm h)
  rw [resolveIn, resolveIn, foundBy?, foundBy?, hbest]

/-- A folder without files of the names has no config, and otherwise the first file answers,
whatever it answers. -/
theorem config_is_of_first_file (words : Wording) (disk : Disk) (file : Path)
    (folders : List Path) (completed : List Probe)
    (h : completed.Perm (probes disk (searchRoot file folders))) :
    let root := searchRoot file folders
    let answer := resolveIn words disk root completed
    Searched file folders root ∧
    (answer = .ok none ↔ ∀ name ∈ fileNames, disk.isFile (root.join name) = false) ∧
    (answer = .ok none ∨ ∃ name format, IsFirst disk root name ∧
      Format.ofFileName? name = some format ∧ Answers words disk (root.join name) format answer) ∧
    ∀ files : FileSystem, files.disk = disk → resolve words files file folders = answer ∧
      ∀ path, disk.isFile path = true ↔ ∃ content, files.find path = .ok (.file content) := by
  intro root answer
  have hanswer : answer = resolveIn words disk root completed := rfl
  have hnone := foundBy?_eq_none_iff h
  refine ⟨searched_searchRoot file folders, ?_⟩
  rw [← and_assoc]
  constructor
  · by_cases hall : ∀ name ∈ fileNames, disk.isFile (root.join name) = false
    · rw [resolveIn, hnone.2 hall] at hanswer
      exact ⟨iff_of_true hanswer hall, .inl hanswer⟩
    · -- some name is a file, so one of them is the first, and it is found and read
      have hsome : ∃ name ∈ fileNames, disk.isFile (root.join name) = true := by simpa using hall
      obtain ⟨name, hfirst⟩ := exists_isFirst hsome
      have hmem : name ∈ fileNames := by
        obtain ⟨earlier, later, hnames, -⟩ := hfirst
        simp [hnames]
      obtain ⟨hslash, hformat⟩ := name_of_mem_fileNames hmem
      obtain ⟨format, hformat⟩ := Option.isSome_iff_exists.1 hformat
      have hanswers : Answers words disk (root.join name) format answer := by
        rw [hanswer, resolveIn, foundBy?_first h hfirst]
        exact answers_readFile words disk ((lastName_join root hslash).symm ▸ hformat)
      exact ⟨iff_of_false hanswers.ne_none hall, .inr ⟨name, format, hfirst, hformat, hanswers⟩⟩
  · rintro files rfl
    exact ⟨resolveIn_of_perm h.symm, fun path => isFile_disk_iff⟩

/-- A project with a directory of the first name, a file of the second name that is no text, and a
config of a later name. -/
def mixedProject : FileSystem :=
  (((FileSystem.empty.put ["web"] .directory).put ["web", ".prettierrc"] .directory).put
    ["web", ".prettierrc.json"] (.file ⟨#[0xff]⟩)).put
    ["web", ".prettierrc.toml"] (.file "semi = false".toUTF8)

/-- The file that is no text answers, though the probe for the later name completes first. -/
theorem config_is_of_first_file_reversed :
    let words : Wording := { (default : Wording) with file := FileError.name }
    let completed := (probes mixedProject.disk "web").reverse
    completed.Perm (probes mixedProject.disk (searchRoot "web/src/a.js" ["", "web"])) ∧
    mixedProject.disk.isFile "web/.prettierrc.toml" = true ∧
    resolve words mixedProject "web/src/a.js" ["", "web"] =
      resolveIn words mixedProject.disk "web" completed ∧
    resolveIn words mixedProject.disk "web" completed =
      .error ⟨"web/.prettierrc.json", .unreadable .invalidData "InvalidData"⟩ := by
  intro words completed
  have hroot : searchRoot "web/src/a.js" ["", "web"] = "web" := by cbv
  have hperm : completed.Perm (probes mixedProject.disk (searchRoot "web/src/a.js" ["", "web"])) :=
    hroot.symm ▸ List.reverse_perm _
  obtain ⟨-, -, -, hsame⟩ :=
    config_is_of_first_file words mixedProject.disk "web/src/a.js" ["", "web"] completed hperm
  have hfound : foundBy? "web" completed = some "web/.prettierrc.json" := by decide +kernel
  have hread : mixedProject.disk.readText "web/.prettierrc.json" = .error .invalidData := rfl
  refine ⟨hperm, by decide +kernel, hroot ▸ (hsame mixedProject rfl).1, ?_⟩
  rw [resolveIn, hfound]
  show some <$> readFile words mixedProject.disk "web/.prettierrc.json" = _
  rw [readFile, hread]
  rfl

end EditorFormat.Config
