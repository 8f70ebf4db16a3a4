import RiskRules.Text.Bytes

/-!
A tree of files and folders, and what a program does with it. A new text for a file is written to an
unfinished file beside it, which then takes the file's place, so a file is replaced as a whole or
not at all; but an operation that fails may have made folders on the way.
-/

namespace RiskRules

inductive FileFault
  | notFound
  | busy
  | alreadyExists
  | notFolder
  | isFolder
  | notText
  | other (text : String)
  deriving DecidableEq, Repr

def FileFault.message : FileFault → String
  | .notFound => "No such file or directory (os error 2)"
  | .busy => "Device or resource busy (os error 16)"
  | .alreadyExists => "File exists (os error 17)"
  | .notFolder => "Not a directory (os error 20)"
  | .isFolder => "Is a directory (os error 21)"
  | .notText => "stream did not contain valid UTF-8"
  | .other text => text

structure FileAccess (m : Type → Type) where
  read : String → m (Except FileFault (List UInt8))
  replace : String → String → m (Except FileFault Unit)

def textOfBytes (bytes : List UInt8) : Except FileFault String :=
  (Text.decodeUtf8 bytes).mapError fun _ => .notText

def FileAccess.readText {m : Type → Type} [Monad m] (access : FileAccess m) (path : String) :
    m (Except FileFault String) := do
  return (← access.read path).bind textOfBytes

namespace Path

def pieces : List Char → List (List Char)
  | [] => [[]]
  | char :: rest =>
      if char = '/' then [] :: pieces rest
      else match pieces rest with
        | [] => [[char]]
        | piece :: more => (char :: piece) :: more

def parts (path : String) : List String :=
  ((pieces path.toList).filter (!·.isEmpty)).map String.ofList

def endsInSlash (path : String) : Bool :=
  path.toList.getLast? = some '/'

def steps (path : String) : List String :=
  match parts path with
  | [] => []
  | first :: rest => first :: rest.filter (· ≠ ".")

def folder (path : String) : List String :=
  (steps path).dropLast

end Path

inductive Content
  | file (bytes : List UInt8)
  | folder
  deriving DecidableEq, Repr

/-- What lies at each place. A place is the list of names that lead to it from the top, and the top
itself is always a folder. -/
structure Files where
  contents : List (List String × Content)
  deriving DecidableEq, Repr

namespace Files

def empty : Files := ⟨[]⟩

def content? (files : Files) (place : List String) : Option Content :=
  if place = [] then some .folder else files.contents.lookup place

def erase (files : Files) (place : List String) : Files :=
  ⟨files.contents.filter (·.1 ≠ place)⟩

def insert (files : Files) (place : List String) (content : Content) : Files :=
  ⟨(place, content) :: (files.erase place).contents⟩

theorem lookup_filter_ne {place other : List String} (different : other ≠ place)
    (contents : List (List String × Content)) :
    (contents.filter (·.1 ≠ place)).lookup other = contents.lookup other := by
  induction contents with
  | nil => rfl
  | cons pair rest ih =>
      rcases pair with ⟨name, content⟩
      by_cases same : name = place
      · subst same
        have unequal : (other == name) = false := by simpa using different
        simpa [List.lookup_cons, unequal] using ih
      · by_cases found : other = name
        · subst found
          simp [same]
        · have unequal : (other == name) = false := by simpa using found
          simpa [List.lookup_cons, same, unequal] using ih

theorem content?_erase_of_ne (files : Files) {place other : List String}
    (different : other ≠ place) : (files.erase place).content? other = files.content? other := by
  rw [content?, content?, erase, lookup_filter_ne different]

theorem content?_insert_self (files : Files) {place : List String} (below : place ≠ [])
    (content : Content) : (files.insert place content).content? place = some content := by
  simp [content?, insert, below]

theorem content?_insert_of_ne (files : Files) {place other : List String}
    (different : other ≠ place) (content : Content) :
    (files.insert place content).content? other = files.content? other := by
  have unequal : (other == place) = false := by simpa using different
  rw [← content?_erase_of_ne files different]
  simp only [content?, insert, List.lookup_cons, unequal]

def walk (files : Files) (place : List String) (part : String) : Except FileFault (List String) :=
  match files.content? place with
  | none => .error .notFound
  | some (.file _) => .error .notFolder
  | some .folder =>
      if part = "." then .ok place
      else if part = ".." then .ok place.dropLast
      else .ok (place ++ [part])

def resolve (files : Files) (parts : List String) : Except FileFault (List String) :=
  parts.foldlM files.walk []

def find (files : Files) (parts : List String) : Except FileFault Content := do
  match files.content? (← files.resolve parts) with
  | none => .error .notFound
  | some content => .ok content

def isFolder (files : Files) (parts : List String) : Bool :=
  match files.find parts with
  | .ok .folder => true
  | _ => false

def read (files : Files) (path : String) : Except FileFault (List UInt8) :=
  if path = "" then .error .notFound
  else match files.find (Path.parts path) with
    | .error fault => .error fault
    | .ok .folder => .error .isFolder
    | .ok (.file bytes) => if Path.endsInSlash path then .error .notFolder else .ok bytes

def makeFolder (files : Files) (parts : List String) : Except FileFault Files := do
  let place ← files.resolve parts
  match files.content? place with
  | some _ => .error .alreadyExists
  | none => .ok (files.insert place .folder)

def createFile (files : Files) (folder : List String) (name : String) : Except FileFault Files :=
  match files.content? folder with
  | none => .error .notFound
  | some (.file _) => .error .notFolder
  | some .folder =>
      match files.content? (folder ++ [name]) with
      | some _ => .error .alreadyExists
      | none => .ok (files.insert (folder ++ [name]) (.file []))

def rename (files : Files) (source : List String) (path : String) : Except FileFault Files :=
  match files.content? source, (Path.parts path).getLast? with
  | some (.file bytes), some last => do
      let target ← files.resolve (Path.parts path)
      if last = "." || last = ".." then .error .busy
      else if Path.endsInSlash path then .error .notFolder
      else match files.content? target with
        | some .folder => .error .isFolder
        | _ => .ok ((files.erase source).insert target (.file bytes))
  | _, _ => .error .notFound

/-- The files may have changed even when there is a fault. -/
abbrev Action := ExceptT FileFault (StateM Files)

namespace Action

def change (update : Files → Except FileFault Files) : Action Unit := do
  match update (← get) with
  | .ok files => set files
  | .error fault => throw fault

end Action

end Files

inductive Operation
  | read (path : String)
  | makeFolder (parts : List String)
  | create (folder : List String) (name : String)
  | fill (place : List String)
  | flush (place : List String)
  | rename (source : List String) (path : String)
  deriving DecidableEq, Repr

/-- What a system has to it besides files and folders. It names unfinished files, and it may refuse
an operation for reasons of its own, such as rights or a full disk. -/
structure System where
  unfinishedName : Files → List String → String
  refusal? : Files → Operation → Option FileFault
  written : List UInt8 → List UInt8

namespace System

open Files

variable (system : System)

def permit (operation : Operation) : Action Unit := do
  match system.refusal? (← get) operation with
  | none => return
  | some fault => throw fault

def read (path : String) : Action (List UInt8) := do
  system.permit (.read path)
  match (← get).read path with
  | .ok bytes => return bytes
  | .error fault => throw fault

def makeFolder (parts : List String) : Action Unit := do
  system.permit (.makeFolder parts)
  Action.change (·.makeFolder parts)

def ensureFolder (parts : List String) : Action Unit := do
  try
    system.makeFolder parts
  catch fault =>
    unless (← get).isFolder parts do throw fault

def makeFolders : List String → Action Unit
  | [] => return
  | last :: outer => do
      try
        system.ensureFolder (last :: outer).reverse
      catch
        | .notFound => do
            makeFolders outer
            system.ensureFolder (last :: outer).reverse
        | fault => throw fault

def createNamed (folder : List String) (name : String) : Action (List String) := do
  system.permit (.create folder name)
  Action.change (·.createFile folder name)
  return folder ++ [name]

def create (parts : List String) : Action (List String) := do
  let files ← get
  match files.resolve parts with
  | .error fault => throw fault
  | .ok folder => system.createNamed folder (system.unfinishedName files folder)

def fill (place : List String) (bytes : List UInt8) : Action Unit := do
  match system.refusal? (← get) (.fill place) with
  | none => modify (·.insert place (.file bytes))
  | some fault =>
      modify (·.insert place (.file (system.written bytes)))
      throw fault

def finish (unfinished : List String) (path : String) (bytes : List UInt8) : Action Unit := do
  system.fill unfinished bytes
  system.permit (.flush unfinished)
  system.permit (.rename unfinished path)
  Action.change (·.rename unfinished path)

/-- Writes a file as a whole, with the folders that it needs. The unfinished file does not outlast a
failure. -/
def write (path : String) (bytes : List UInt8) : Action Unit := do
  system.makeFolders (Path.folder path).reverse
  let unfinished ← system.create (Path.folder path)
  try
    system.finish unfinished path bytes
  catch fault =>
    modify (·.erase unfinished)
    throw fault

def access : FileAccess (StateM Files) where
  read path := (system.read path).run
  replace path text := (system.write path (Text.encodeUtf8 text)).run

end System

namespace Files

def unusedName (files : Files) : String :=
  let longest := files.contents.foldr
    (fun entry longest => max (entry.1.getLast?.getD "").length longest) 0
  ".tmp" ++ String.ofList (List.replicate longest '0')

def plain : System where
  unfinishedName files _ := files.unusedName
  refusal? _ _ := none
  written bytes := bytes

def makeFolders (files : Files) (parts : List String) : Except FileFault Unit × Files :=
  (plain.makeFolders parts).run.run files

def write (files : Files) (path : String) (bytes : List UInt8) : Except FileFault Unit × Files :=
  (plain.write path bytes).run.run files

def access : FileAccess (StateM Files) :=
  plain.access

def pathOf (place : List String) : String :=
  "/".intercalate place

def toList (files : Files) : List (String × List UInt8) :=
  let named := files.contents.filterMap fun (place, content) =>
    match content with
    | .file bytes => some (pathOf place, bytes)
    | .folder => none
  named.mergeSort fun left right => decide (left.1 ≤ right.1)

end Files

end RiskRules
