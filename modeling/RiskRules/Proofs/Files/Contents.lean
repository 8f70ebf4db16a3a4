import Mathlib.Logic.Function.Basic
import RiskRules.Files

/-!
Where files are and what they hold, before and after an operation. Folders stay folders, so a path
goes on leading where it led.
-/

namespace RiskRules.Files

/-! ### Places -/

def file? (files : Files) (place : List String) : Option (List UInt8) :=
  match files.content? place with
  | some (.file bytes) => some bytes
  | _ => none

theorem content?_of_file? {files : Files} {place : List String} {bytes : List UInt8}
    (found : files.file? place = some bytes) : files.content? place = some (.file bytes) := by
  unfold file? at found
  split at found
  next content => rw [content, Option.some.inj found]
  next => cases found

theorem content?_root (files : Files) : files.content? [] = some .folder :=
  if_pos rfl

theorem content?_erase_self (files : Files) {place : List String} (below : place ≠ []) :
    (files.erase place).content? place = none := by
  rw [content?, if_neg below, erase]
  apply List.lookup_eq_none_iff.mpr
  intro entry member
  have different : entry.1 ≠ place := of_decide_eq_true (List.mem_filter.mp member).2
  exact bne_iff_ne.mpr different.symm

theorem below_of_not_folder {files : Files} {place : List String}
    (notFolder : files.content? place ≠ some .folder) : place ≠ [] := by
  rintro rfl
  exact notFolder files.content?_root

theorem not_folder_of_none {files : Files} {place : List String}
    (free : files.content? place = none) : files.content? place ≠ some .folder := by
  rw [free]
  exact nofun

theorem not_folder_of_file {files : Files} {place : List String} {bytes : List UInt8}
    (found : files.content? place = some (.file bytes)) : files.content? place ≠ some .folder := by
  rw [found]
  exact nofun

theorem file?_insert (files : Files) {place : List String} (below : place ≠ [])
    (bytes : List UInt8) :
    (files.insert place (.file bytes)).file? = Function.update files.file? place (some bytes) := by
  funext other
  by_cases same : other = place
  · subst same
    rw [Function.update_self, file?, content?_insert_self files below]
  · rw [Function.update_of_ne same, file?, file?, content?_insert_of_ne files same]

theorem file?_insert_folder {files : Files} {place : List String}
    (free : files.content? place = none) : (files.insert place .folder).file? = files.file? := by
  have below := below_of_not_folder (not_folder_of_none free)
  funext other
  by_cases same : other = place
  · subst same
    rw [file?, file?, content?_insert_self files below, free]
  · rw [file?, file?, content?_insert_of_ne files same]

def KeepsFolders (files after : Files) : Prop :=
  ∀ place, files.content? place = some .folder → after.content? place = some .folder

theorem KeepsFolders.refl (files : Files) : KeepsFolders files files :=
  fun _ found => found

theorem KeepsFolders.trans {files between after : Files} (first : KeepsFolders files between)
    (later : KeepsFolders between after) : KeepsFolders files after :=
  fun place found => later place (first place found)

theorem keepsFolders_insert {files : Files} {place : List String}
    (notFolder : files.content? place ≠ some .folder) (content : Content) :
    KeepsFolders files (files.insert place content) := by
  intro other found
  have different : other ≠ place := by
    rintro rfl
    exact notFolder found
  rw [content?_insert_of_ne files different, found]

theorem keepsFolders_erase {files : Files} {place : List String}
    (notFolder : files.content? place ≠ some .folder) : KeepsFolders files (files.erase place) := by
  intro other found
  have different : other ≠ place := by
    rintro rfl
    exact notFolder found
  rw [content?_erase_of_ne files different, found]

theorem KeepsFolders.walk {files after : Files} {place next : List String} {part : String}
    (keeps : KeepsFolders files after) (walked : files.walk place part = .ok next) :
    after.walk place part = .ok next := by
  rw [Files.walk] at walked ⊢
  cases found : files.content? place with
  | none =>
      rw [found] at walked
      cases walked
  | some content =>
      rw [found] at walked
      cases content with
      | file => cases walked
      | folder =>
          rw [keeps place found]
          exact walked

theorem KeepsFolders.resolve {files after : Files} {parts place : List String}
    (keeps : KeepsFolders files after) (resolved : files.resolve parts = .ok place) :
    after.resolve parts = .ok place := by
  rw [Files.resolve] at resolved ⊢
  generalize [] = start at resolved ⊢
  induction parts generalizing start with
  | nil => exact resolved
  | cons part parts ih =>
      rw [List.foldlM_cons] at resolved ⊢
      cases walked : files.walk start part with
      | error fault =>
          rw [walked] at resolved
          cases resolved
      | ok next =>
          rw [walked] at resolved
          rw [keeps.walk walked]
          exact ih next resolved

section

variable {files : Files}

/-! ### Making folders -/

def Grown (files after : Files) : Prop :=
  after.file? = files.file? ∧ KeepsFolders files after

theorem Grown.refl (files : Files) : Grown files files :=
  ⟨rfl, .refl files⟩

theorem Grown.trans {between after : Files} (first : Grown files between)
    (later : Grown between after) : Grown files after :=
  ⟨later.1.trans first.1, first.2.trans later.2⟩

theorem grown_of_makeFolder {after : Files} {parts : List String}
    (made : files.makeFolder parts = .ok after) : Grown files after := by
  rw [Files.makeFolder] at made
  cases resolved : files.resolve parts with
  | error fault =>
      rw [resolved] at made
      cases made
  | ok place =>
      rw [resolved] at made
      cases free : files.content? place with
      | some content =>
          simp only [bind, Except.bind, free] at made
          cases made
      | none =>
          simp only [bind, Except.bind, free, Except.ok.injEq] at made
          subst made
          exact ⟨file?_insert_folder free, keepsFolders_insert (not_folder_of_none free) .folder⟩

theorem exists_of_isFolder {parts : List String} (isFolder : files.isFolder parts = true) :
    ∃ place, files.resolve parts = .ok place ∧ files.content? place = some .folder := by
  rw [Files.isFolder, find] at isFolder
  cases resolved : files.resolve parts with
  | error fault =>
      rw [resolved] at isFolder
      cases isFolder
  | ok place =>
      refine ⟨place, rfl, ?_⟩
      rw [resolved] at isFolder
      simp only [bind, Except.bind] at isFolder
      cases found : files.content? place with
      | none =>
          rw [found] at isFolder
          cases isFolder
      | some content =>
          rw [found] at isFolder
          cases content with
          | file => cases isFolder
          | folder => rfl

/-! ### Making and moving a file -/

theorem eq_insert_of_createFile {after : Files} {folder : List String} {name : String}
    (created : files.createFile folder name = .ok after) :
    files.content? (folder ++ [name]) = none ∧
      after = files.insert (folder ++ [name]) (.file []) := by
  rw [createFile] at created
  split at created
  next => cases created
  next => cases created
  next =>
    split at created
    next => cases created
    next free =>
      cases created
      exact ⟨free, rfl⟩

theorem rename_eq_ok {after : Files} {source : List String} {path : String} :
    files.rename source path = .ok after ↔
      ∃ bytes last target, files.content? source = some (.file bytes) ∧
        (Path.parts path).getLast? = some last ∧ last ≠ "." ∧ last ≠ ".." ∧
        Path.endsInSlash path = false ∧ files.resolve (Path.parts path) = .ok target ∧
        files.content? target ≠ some .folder ∧
        after = (files.erase source).insert target (.file bytes) := by
  constructor
  · intro renamed
    unfold Files.rename at renamed
    split at renamed
    next bytes last found ends =>
      cases resolved : files.resolve (Path.parts path) with
      | error fault =>
          rw [resolved] at renamed
          cases renamed
      | ok target =>
          rw [resolved] at renamed
          simp only [bind, Except.bind] at renamed
          split at renamed
          next => cases renamed
          next named =>
            split at renamed
            next => cases renamed
            next noSlash =>
              split at renamed
              next => cases renamed
              next notFolder =>
                simp only [Bool.or_eq_true, decide_eq_true_eq, not_or] at named
                refine ⟨bytes, last, target, found, ends, named.1, named.2, ?_, rfl, ?_, ?_⟩
                · exact Bool.eq_false_iff.mpr noSlash
                · exact notFolder
                · exact (Except.ok.inj renamed).symm
    next => cases renamed
  · rintro ⟨bytes, last, target, found, ends, notHere, notUp, noSlash, resolved, notFolder, rfl⟩
    unfold Files.rename
    simp only [found, ends, resolved, bind, Except.bind, notHere, notUp, noSlash]
    split
    next => contradiction
    next => rfl

def Added (files : Files) (place : List String) (bytes : List UInt8) (after : Files) : Prop :=
  after.content? place = some (.file bytes) ∧
    ∀ other, other ≠ place → after.content? other = files.content? other

/-- The file that a path names has the given bytes, and all other files are as they were. -/
def Replaced (files : Files) (path : String) (bytes : List UInt8) (after : Files) : Prop :=
  after.read path = .ok bytes ∧
    ∃ target, after.resolve (Path.parts path) = .ok target ∧
      after.file? = Function.update files.file? target (some bytes)

variable {place : List String} {bytes : List UInt8} {path : String} {after : Files}

theorem added_insert (free : files.content? place = none) :
    Added files place bytes (files.insert place (.file bytes)) := by
  refine ⟨content?_insert_self files (below_of_not_folder (not_folder_of_none free)) _, ?_⟩
  intro other different
  exact content?_insert_of_ne files different _

theorem Added.below (added : Added files place bytes after) : place ≠ [] :=
  below_of_not_folder (not_folder_of_file added.1)

theorem Added.refill (added : Added files place bytes after) (other : List UInt8) :
    Added files place other (after.insert place (.file other)) := by
  refine ⟨content?_insert_self after added.below _, ?_⟩
  intro elsewhere different
  rw [content?_insert_of_ne after different, added.2 elsewhere different]

theorem Added.keepsFolders (added : Added files place bytes after)
    (free : files.content? place = none) : KeepsFolders files after := by
  intro folder found
  rw [added.2 folder, found]
  rintro rfl
  rw [free] at found
  cases found

theorem Added.content?_erase (added : Added files place bytes after)
    (free : files.content? place = none) : (after.erase place).content? = files.content? := by
  funext other
  by_cases same : other = place
  · subst same
    rw [content?_erase_self after added.below, free]
  · rw [content?_erase_of_ne after same, added.2 other same]

theorem file?_congr (same : after.content? = files.content?) : after.file? = files.file? := by
  funext place
  rw [file?, file?, same]

theorem read_of_resolve {target : List String} {last : String}
    (ends : (Path.parts path).getLast? = some last) (noSlash : Path.endsInSlash path = false)
    (resolved : files.resolve (Path.parts path) = .ok target)
    (found : files.content? target = some (.file bytes)) : files.read path = .ok bytes := by
  have named : path ≠ "" := by
    rintro rfl
    cases ends
  have present : files.find (Path.parts path) = .ok (.file bytes) := by
    rw [find, resolved]
    simp only [bind, Except.bind, found]
  rw [Files.read, if_neg named, present]
  simp only [noSlash]
  rfl

theorem Added.replaced (added : Added files place bytes after)
    (free : files.content? place = none) {renamed : Files}
    (done : after.rename place path = .ok renamed) :
    Replaced files path bytes renamed ∧ KeepsFolders files renamed := by
  obtain ⟨moved, last, target, found, ends, -, -, noSlash, resolved, notFolder, rfl⟩ :=
    rename_eq_ok.mp done
  obtain rfl : bytes = moved := by
    rw [added.1] at found
    exact Content.file.inj (Option.some.inj found)
  have cleared := added.content?_erase free
  have notFolderBefore : (after.erase place).content? target ≠ some .folder := by
    rw [cleared]
    by_cases same : target = place
    · rw [same]
      exact not_folder_of_none free
    · rw [← added.2 target same]
      exact notFolder
  have below := below_of_not_folder notFolderBefore
  have keeps : KeepsFolders (after.erase place) ((after.erase place).insert target (.file bytes)) :=
    keepsFolders_insert notFolderBefore (.file bytes)
  have resolvedThere :=
    ((keepsFolders_erase (not_folder_of_file added.1)).trans keeps).resolve resolved
  refine ⟨⟨?_, target, resolvedThere, ?_⟩, ?_⟩
  · exact read_of_resolve ends noSlash resolvedThere (content?_insert_self _ below _)
  · rw [file?_insert _ below, file?_congr cleared]
  · intro folder found
    rw [← cleared] at found
    exact keeps folder found

def Writable (files : Files) (path : String) : Prop :=
  files.isFolder (Path.folder path) = true ∧ Path.endsInSlash path = false ∧
    ∃ last target, (Path.parts path).getLast? = some last ∧ last ≠ "." ∧ last ≠ ".." ∧
      files.resolve (Path.parts path) = .ok target ∧ files.content? target ≠ some .folder

/-! ### A name that is not in use -/

theorem le_longest (size : List String × Content → Nat)
    {contents : List (List String × Content)} {entry : List String × Content}
    (member : entry ∈ contents) :
    size entry ≤ contents.foldr (fun entry longest => max (size entry) longest) 0 := by
  induction contents with
  | nil => cases member
  | cons first rest ih =>
      rw [List.foldr_cons]
      rcases List.mem_cons.mp member with rfl | later
      · exact Nat.le_max_left _ _
      · exact Nat.le_trans (ih later) (Nat.le_max_right _ _)

theorem content?_unusedName (files : Files) (folder : List String) :
    files.content? (folder ++ [files.unusedName]) = none := by
  rw [content?, if_neg (List.append_ne_nil_of_right_ne_nil _ (List.cons_ne_nil _ _))]
  apply List.lookup_eq_none_iff.mpr
  intro entry member
  apply bne_iff_ne.mpr
  intro same
  have bound := le_longest (fun entry => (entry.1.getLast?.getD "").length) member
  have long : (entry.1.getLast?.getD "").length = files.unusedName.length := by
    rw [← same, List.getLast?_concat]
    rfl
  rw [long, unusedName, String.length_append, String.length_ofList, String.length_ofList,
    List.length_replicate] at bound
  have added : ['.', 't', 'm', 'p'].length = 4 := rfl
  omega

end

end RiskRules.Files
