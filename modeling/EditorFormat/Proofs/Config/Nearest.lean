import EditorFormat.Proofs.Config.Resolution
import EditorFormat.Proofs.Files.Parents

/-!
# The nearest folder

The folder in which a config is looked for is the nearest one around the file, whatever else is
listed and in whichever order (`searchRoot_is_nearest`). Two folders around one file are both fronts
of its components, so the deeper one has all components of the other, and folders that are equally
deep have the same components.
-/

namespace EditorFormat.Config

open Files (Path)

/-- A folder is around a file when the components of the file begin with its own. -/
def Encloses (folder file : Path) : Prop :=
  folder.components <+: file.components

/-- Paths are compared by components. -/
theorem startsWith_iff {file folder : Path} : file.startsWith folder = true ↔ Encloses folder file :=
  List.isPrefixOf_iff_prefix

/-- Of two folders around a file, the one that is no deeper is around the other. -/
theorem Encloses.of_length_le {file folder other : Path} (h : Encloses folder file)
    (hother : Encloses other file) (hle : other.components.length ≤ folder.components.length) :
    other.components <+: folder.components :=
  List.prefix_of_prefix_length_le hother h hle

/-- A folder around a file that is in a list, and around which are all others of the list that are
around the file. -/
structure IsNearest (file : Path) (folders : List Path) (nearest : Path) : Prop where
  mem : nearest ∈ folders
  encloses : Encloses nearest file
  within : ∀ other ∈ folders, Encloses other file → other.components <+: nearest.components

/-- The folder that a file is in: the file without its last component, as it is written. There is
none for the root or for an empty path, and the empty path stands for it. -/
inductive IsOwnFolder (file : Path) : Path → Prop where
  | parent {folder : Path} {last : Files.Component} (hlast : last ≠ .root)
      (hcomponents : file.components = folder.components ++ [last])
      (htext : folder.toList <+: file.toList) : IsOwnFolder file folder
  | none (h : file.components = [] ∨ file.components = [.root]) : IsOwnFolder file ""

/-- The parent of a file is its own folder. -/
theorem isOwnFolder_parent (file : Path) : IsOwnFolder file (file.parent?.getD "") := by
  rcases file.parent?_cases with ⟨hnone, hroot⟩ | ⟨folder, last, hsome, htext, hcomponents, hlast⟩
  · rw [hnone]
    exact .none hroot
  · rw [hsome]
    exact .parent hlast hcomponents htext

section Searching

variable {file nearest : Path} {folders others : List Path}

/-- The deepest folder around a file is the nearest one. -/
theorem Deepest.isNearest
    (h : Deepest (folders.filter fun other => file.startsWith other) nearest) :
    IsNearest file folders nearest := by
  obtain ⟨earlier, later, hfolders, hearlier, hlater⟩ := h
  have hmem {folder : Path} :
      folder ∈ earlier ++ nearest :: later ↔ folder ∈ folders ∧ Encloses folder file := by
    rw [← hfolders, List.mem_filter, startsWith_iff]
  obtain ⟨hnearest, hencloses⟩ := hmem.1 (List.mem_append_right _ List.mem_cons_self)
  refine ⟨hnearest, hencloses, fun other hother haround => hencloses.of_length_le haround ?_⟩
  rcases List.mem_append.1 (hmem.2 ⟨hother, haround⟩) with hbefore | hbehind
  · exact hearlier other hbefore
  · rcases List.mem_cons.1 hbehind with rfl | hbehind
    · exact Nat.le_refl _
    · exact Nat.le_of_lt (hlater other hbehind)

/-- With a folder around the file, the nearest one is searched. -/
theorem searchRoot_around (h : ∃ folder ∈ folders, Encloses folder file) :
    IsNearest file folders (searchRoot file folders) := by
  have hsearched := searched_searchRoot file folders
  generalize searchRoot file folders = root at hsearched ⊢
  cases hsearched with
  | around hdeepest => exact hdeepest.isNearest
  | own hnone =>
    obtain ⟨folder, hmem, hencloses⟩ := h
    rw [← startsWith_iff, hnone folder hmem] at hencloses
    cases hencloses

/-- Without one, the parent of the file is searched. -/
theorem searchRoot_own (h : ∀ folder ∈ folders, ¬ Encloses folder file) :
    searchRoot file folders = file.parent?.getD "" := by
  have hnone : (folders.filter fun folder => file.startsWith folder) = [] :=
    List.filter_eq_nil_iff.2 fun folder hmem hstarts => h folder hmem (startsWith_iff.1 hstarts)
  rw [searchRoot, hnone]

/-- Folders that are added change nothing when none of them is deeper than all folders that were
around the file before. -/
theorem components_searchRoot_eq (hsubset : ∀ folder ∈ folders, folder ∈ others)
    (hadded : ∀ folder ∈ others, folder ∉ folders → Encloses folder file →
      ∃ deeper ∈ folders, Encloses deeper file ∧
        folder.components.length ≤ deeper.components.length) :
    (searchRoot file others).components = (searchRoot file folders).components := by
  by_cases haround : ∃ folder ∈ folders, Encloses folder file
  · have hnearest := searchRoot_around haround
    have hother : IsNearest file others (searchRoot file others) := by
      obtain ⟨folder, hmem, hencloses⟩ := haround
      exact searchRoot_around ⟨folder, hsubset folder hmem, hencloses⟩
    have hwithin := hother.within _ (hsubset _ hnearest.mem) hnearest.encloses
    refine (hwithin.eq_of_length_le ?_).symm
    by_cases hold : searchRoot file others ∈ folders
    · exact (hnearest.within _ hold hother.encloses).length_le
    · obtain ⟨deeper, hmem, hencloses, hle⟩ := hadded _ hother.mem hold hother.encloses
      exact Nat.le_trans hle (hnearest.within deeper hmem hencloses).length_le
  · have hnone : ∀ folder ∈ folders, ¬ Encloses folder file :=
      fun folder hmem hencloses => haround ⟨folder, hmem, hencloses⟩
    have hothers : ∀ folder ∈ others, ¬ Encloses folder file := by
      intro folder hmem hencloses
      by_cases hold : folder ∈ folders
      · exact hnone folder hold hencloses
      · obtain ⟨deeper, hdeeper, haround, -⟩ := hadded folder hmem hold hencloses
        exact hnone deeper hdeeper haround
    rw [searchRoot_own hnone, searchRoot_own hothers]

end Searching

/-- The folder in which the config of a file is looked for, among the given ones. -/
structure SearchesNearest (file : Path) (folders : List Path) : Prop where
  around : (∃ folder ∈ folders, Encloses folder file) →
    IsNearest file folders (searchRoot file folders)
  own : (∀ folder ∈ folders, ¬ Encloses folder file) →
    searchRoot file folders = file.parent?.getD "" ∧ IsOwnFolder file (searchRoot file folders)
  /-- Neither the order of the folders matters nor how often they are listed. -/
  listing : ∀ others : List Path, (∀ folder, folder ∈ others ↔ folder ∈ folders) →
    (searchRoot file others).components = (searchRoot file folders).components
  /-- Others may be listed besides, wherever they stand, if they are not around the file or no deeper
  than a folder that is. -/
  additions : ∀ others : List Path, (∀ folder ∈ folders, folder ∈ others) →
    (∀ folder ∈ others, folder ∉ folders → Encloses folder file →
      ∃ deeper ∈ folders, Encloses deeper file ∧
        folder.components.length ≤ deeper.components.length) →
    (searchRoot file others).components = (searchRoot file folders).components

/-- The nearest folder around a file is searched, or else the file's own. -/
theorem searchRoot_is_nearest (file : Path) (folders : List Path) :
    SearchesNearest file folders where
  around := searchRoot_around
  own := fun h => ⟨searchRoot_own h, searchRoot_own h ▸ isOwnFolder_parent file⟩
  listing := fun _ h => components_searchRoot_eq (fun folder => (h folder).2)
    fun folder hmem hold => absurd ((h folder).1 hmem) hold
  additions := fun _ => components_searchRoot_eq

/-- Slashes and dots that do not count are passed over, and a dot at the start counts. -/
example : searchRoot "web//src/./a.js" ["web/src/", "./web/src/lib", "web"] = "web/src/" := by
  decide +kernel

end EditorFormat.Config
