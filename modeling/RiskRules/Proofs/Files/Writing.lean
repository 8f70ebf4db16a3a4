import RiskRules.Proofs.Files.Contents

/-!
What writing a file does to all files. Whatever the system refuses and wherever it does, a file is
replaced as a whole or no file changes, and no unfinished file stays behind.
-/

namespace RiskRules

/-! ### Actions -/

namespace Files.Action

variable {α β : Type} {files : Files} {done : α → Files → Prop} {failed : FileFault → Files → Prop}

def Meets (action : Action α) (files : Files) (done : α → Files → Prop)
    (failed : FileFault → Files → Prop) : Prop :=
  match action.run.run files with
  | (.ok value, after) => done value after
  | (.error fault, after) => failed fault after

theorem Meets.result {action : Action α} (meets : action.Meets files done failed) :
    (∃ value after, action.run.run files = (.ok value, after) ∧ done value after) ∨
      ∃ fault after, action.run.run files = (.error fault, after) ∧ failed fault after := by
  rw [Meets] at meets
  rcases run : action.run.run files with ⟨fault | value, after⟩
  · rw [run] at meets
    exact .inr ⟨fault, after, rfl, meets⟩
  · rw [run] at meets
    exact .inl ⟨value, after, rfl, meets⟩

theorem Meets.of_run_ok {action : Action α} {value : α} {after : Files}
    (run : action.run.run files = (.ok value, after)) (holds : done value after) :
    action.Meets files done failed := by
  rw [Meets, run]
  exact holds

theorem Meets.of_run_error {action : Action α} {fault : FileFault} {after : Files}
    (run : action.run.run files = (.error fault, after)) (holds : failed fault after) :
    action.Meets files done failed := by
  rw [Meets, run]
  exact holds

theorem Meets.pure {value : α} (holds : done value files) :
    Meets (Pure.pure value) files done failed :=
  holds

theorem Meets.throw {fault : FileFault} (holds : failed fault files) :
    Meets (MonadExcept.throw fault : Action α) files done failed :=
  holds

theorem Meets.get {next : Files → Action α} (meets : Meets (next files) files done failed) :
    Meets (MonadState.get >>= next) files done failed :=
  meets

theorem Meets.modify {update : Files → Files} {done : PUnit → Files → Prop}
    (holds : done ⟨⟩ (update files)) : Meets (modify update) files done failed :=
  holds

theorem Meets.bind {action : Action α} {next : α → Action β} {between : α → Files → Prop}
    {done : β → Files → Prop} (first : action.Meets files between failed)
    (later : ∀ value after, between value after → (next value).Meets after done failed) :
    Meets (action >>= next) files done failed := by
  rcases first.result with ⟨value, after, run, holds⟩ | ⟨fault, after, run, holds⟩
  · have goesOn : (action >>= next).run.run files = (next value).run.run after := by
      rw [ExceptT.run_bind, StateT.run_bind, run]
      rfl
    rw [Meets, goesOn]
    exact later value after holds
  · apply Meets.of_run_error _ holds
    rw [ExceptT.run_bind, StateT.run_bind, run]
    rfl

theorem Meets.tryCatch {action : Action α} {handler : FileFault → Action α}
    {between : FileFault → Files → Prop} (first : action.Meets files done between)
    (later : ∀ fault after, between fault after → (handler fault).Meets after done failed) :
    Meets (MonadExcept.tryCatch action handler) files done failed := by
  rcases first.result with ⟨value, after, run, holds⟩ | ⟨fault, after, run, holds⟩
  · apply Meets.of_run_ok _ holds
    rw [ExceptT.run_tryCatch, StateT.run_bind, run]
    rfl
  · have goesOn : (MonadExcept.tryCatch action handler).run.run files =
        (handler fault).run.run after := by
      rw [ExceptT.run_tryCatch, StateT.run_bind, run]
      rfl
    rw [Meets, goesOn]
    exact later fault after holds

theorem Meets.mono {action : Action α} {doneToo : α → Files → Prop}
    {failedToo : FileFault → Files → Prop} (meets : action.Meets files done failed)
    (weaker : ∀ value after, done value after → doneToo value after)
    (weakerFault : ∀ fault after, failed fault after → failedToo fault after) :
    action.Meets files doneToo failedToo := by
  rcases meets.result with ⟨value, after, run, holds⟩ | ⟨fault, after, run, holds⟩
  · exact .of_run_ok run (weaker value after holds)
  · exact .of_run_error run (weakerFault fault after holds)

theorem Meets.change {update : Files → Except FileFault Files} :
    (change update).Meets files (fun _ after => update files = .ok after)
      (fun fault after => update files = .error fault ∧ after = files) := by
  apply Meets.get
  cases update files with
  | ok after => exact rfl
  | error fault => exact ⟨rfl, rfl⟩

end Files.Action

namespace System

open Files Action

variable (system : System) {files : Files}

/-! ### Any system -/

theorem permit_meets (operation : Operation) :
    (system.permit operation).Meets files (fun _ after => after = files)
      (fun _ after => after = files) := by
  apply Meets.get
  cases system.refusal? files operation with
  | none => exact Meets.pure rfl
  | some fault => exact Meets.throw rfl

theorem read_meets (path : String) :
    (system.read path).Meets files
      (fun bytes after => files.read path = .ok bytes ∧ after = files)
      (fun _ after => after = files) := by
  refine (system.permit_meets _).bind ?_
  rintro _ files rfl
  apply Meets.get
  cases files.read path with
  | ok bytes => exact Meets.pure ⟨rfl, rfl⟩
  | error fault => exact Meets.throw rfl

theorem makeFolder_meets (parts : List String) :
    (system.makeFolder parts).Meets files (fun _ after => Grown files after)
      (fun _ after => after = files) := by
  refine (system.permit_meets _).bind ?_
  rintro _ files rfl
  refine Meets.change.mono ?_ ?_
  · intro _ after made
    exact grown_of_makeFolder made
  · intro _ after unmade
    exact unmade.2

theorem ensureFolder_meets (parts : List String) :
    (system.ensureFolder parts).Meets files (fun _ after => Grown files after)
      (fun _ after => after = files) := by
  refine (system.makeFolder_meets parts).tryCatch ?_
  rintro fault files rfl
  apply Meets.get
  by_cases isFolder : files.isFolder parts = true
  · rw [if_pos isFolder]
    exact Meets.pure (.refl files)
  · rw [if_neg isFolder]
    exact Meets.throw rfl

theorem makeFolders_meets (parts : List String) :
    (system.makeFolders parts).Meets files (fun _ after => Grown files after)
      (fun _ after => Grown files after) := by
  induction parts generalizing files with
  | nil => exact Meets.pure (.refl files)
  | cons last outer ih =>
      refine (system.ensureFolder_meets (last :: outer).reverse).tryCatch ?_
      rintro fault files rfl
      cases fault with
      | notFound =>
          refine ih.bind ?_
          intro _ around grown
          refine (system.ensureFolder_meets _).mono ?_ ?_
          · intro _ after more
            exact grown.trans more
          · rintro _ after rfl
            exact grown
      | _ => exact Meets.throw (.refl files)

theorem createNamed_meets (folder : List String) (name : String) :
    (system.createNamed folder name).Meets files
      (fun place after => files.content? place = none ∧ after = files.insert place (.file []))
      (fun _ after => after = files) := by
  refine (system.permit_meets _).bind ?_
  rintro _ files rfl
  have changed : (change (·.createFile folder name)).Meets files
      (fun _ after => files.createFile folder name = .ok after) (fun _ after => after = files) :=
    Meets.change.mono (fun _ _ created => created) fun _ _ failed => failed.2
  refine changed.bind ?_
  intro _ after created
  exact Meets.pure (eq_insert_of_createFile created)

theorem create_meets (parts : List String) :
    (system.create parts).Meets files
      (fun place after => files.content? place = none ∧ after = files.insert place (.file []))
      (fun _ after => after = files) := by
  apply Meets.get
  cases files.resolve parts with
  | error fault => exact Meets.throw rfl
  | ok folder => exact system.createNamed_meets folder _

theorem fill_meets (place : List String) (bytes : List UInt8) :
    (system.fill place bytes).Meets files
      (fun _ after => after = files.insert place (.file bytes))
      (fun _ after => ∃ part, after = files.insert place (.file part)) := by
  apply Meets.get
  cases system.refusal? files (.fill place) with
  | none => exact Meets.modify rfl
  | some fault =>
      have filled : Meets (modify (·.insert place (.file (system.written bytes)))) files
          (fun _ after => ∃ part, after = files.insert place (.file part))
          (fun _ after => ∃ part, after = files.insert place (.file part)) :=
        Meets.modify ⟨_, rfl⟩
      refine filled.bind ?_
      intro _ after partly
      exact Meets.throw partly

theorem finish_meets {filesBefore : Files} {place : List String} (path : String)
    (bytes : List UInt8) (free : filesBefore.content? place = none)
    (added : Added filesBefore place [] files) :
    (system.finish place path bytes).Meets files
      (fun _ after => Replaced filesBefore path bytes after ∧ KeepsFolders filesBefore after)
      (fun _ after => ∃ part, Added filesBefore place part after) := by
  have filled : (system.fill place bytes).Meets files
      (fun _ after => Added filesBefore place bytes after)
      (fun _ after => ∃ part, Added filesBefore place part after) := by
    refine (system.fill_meets place bytes).mono ?_ ?_
    · rintro _ _ rfl
      exact added.refill bytes
    · rintro _ _ ⟨part, rfl⟩
      exact ⟨part, added.refill part⟩
  refine filled.bind ?_
  intro _ whole added
  have permitted (operation : Operation) : (system.permit operation).Meets whole
      (fun _ after => after = whole)
      (fun _ after => ∃ part, Added filesBefore place part after) := by
    refine (system.permit_meets operation).mono (fun _ _ same => same) ?_
    rintro _ _ rfl
    exact ⟨bytes, added⟩
  refine (permitted _).bind ?_
  rintro _ _ rfl
  refine (permitted _).bind ?_
  rintro _ _ rfl
  refine Meets.change.mono ?_ ?_
  · intro _ after renamed
    exact added.replaced free renamed
  · rintro _ _ ⟨_, rfl⟩
    exact ⟨bytes, added⟩

/-- A file is replaced as a whole or no file changes. -/
theorem write_meets (path : String) (bytes : List UInt8) :
    (system.write path bytes).Meets files
      (fun _ after => Replaced files path bytes after ∧ KeepsFolders files after)
      (fun _ after => Grown files after) := by
  refine (system.makeFolders_meets _).bind ?_
  rintro _ around ⟨unchanged, keeps⟩
  have created : (system.create (Path.folder path)).Meets around
      (fun place after => around.content? place = none ∧ Added around place [] after)
      (fun _ after => Grown files after) := by
    refine (system.create_meets _).mono ?_ ?_
    · rintro place _ ⟨free, rfl⟩
      exact ⟨free, added_insert free⟩
    · rintro _ _ rfl
      exact ⟨unchanged, keeps⟩
  refine created.bind ?_
  rintro place started ⟨free, added⟩
  have finished := system.finish_meets path bytes free added
  refine Meets.tryCatch (finished.mono ?_ fun _ _ left => left) ?_
  · rintro _ after ⟨⟨found, target, resolved, replaced⟩, keepsToo⟩
    rw [unchanged] at replaced
    exact ⟨⟨found, target, resolved, replaced⟩, keeps.trans keepsToo⟩
  · rintro fault left ⟨part, addedPart⟩
    have erased : Meets (modify (·.erase place)) left
        (fun _ after => after.content? = around.content?) (fun _ after => Grown files after) :=
      Meets.modify (addedPart.content?_erase free)
    refine erased.bind ?_
    intro _ after same
    refine Meets.throw ⟨(file?_congr same).trans unchanged, ?_⟩
    intro folder found
    rw [same]
    exact keeps folder found

end System

namespace Files

open Files.Action

variable {files : Files}

/-! ### A system that refuses nothing -/

theorem permit_plain (operation : Operation) :
    (plain.permit operation).Meets files (fun _ after => after = files) (fun _ _ => False) :=
  Meets.get (Meets.pure rfl)

theorem read_plain (path : String) :
    (plain.read path).Meets files
      (fun bytes after => files.read path = .ok bytes ∧ after = files)
      (fun fault after => files.read path = .error fault ∧ after = files) := by
  refine ((permit_plain _).mono (fun _ _ same => same) fun _ _ => False.elim).bind ?_
  rintro _ files rfl
  apply Meets.get
  cases files.read path with
  | ok bytes => exact Meets.pure ⟨rfl, rfl⟩
  | error fault => exact Meets.throw ⟨rfl, rfl⟩

theorem change_ok {update : Files → Except FileFault Files} {after : Files}
    (updates : update files = .ok after) :
    (change update).Meets files (fun _ found => found = after) (fun _ _ => False) := by
  refine Meets.change.mono ?_ ?_
  · intro _ found same
    exact Except.ok.inj (same.symm.trans updates)
  · rintro fault _ ⟨failed, _⟩
    cases updates.symm.trans failed

theorem ensureFolder_plain {parts : List String} (isFolder : files.isFolder parts = true) :
    (plain.ensureFolder parts).Meets files (fun _ after => after = files) (fun _ _ => False) := by
  obtain ⟨place, resolved, found⟩ := exists_of_isFolder isFolder
  have there : files.makeFolder parts = .error .alreadyExists := by
    rw [makeFolder, resolved]
    simp only [bind, Except.bind, found]
  have unmade : (plain.makeFolder parts).Meets files (fun _ after => after = files)
      (fun _ after => after = files) := by
    refine ((permit_plain _).mono (fun _ _ same => same) fun _ _ => False.elim).bind ?_
    rintro _ _ rfl
    refine Meets.change.mono ?_ fun _ _ failed => failed.2
    intro _ after made
    cases there.symm.trans made
  refine unmade.tryCatch ?_
  rintro fault _ rfl
  apply Meets.get
  rw [if_pos isFolder]
  exact Meets.pure rfl

theorem makeFolders_plain {parts : List String} (isFolder : files.isFolder parts = true) :
    (plain.makeFolders parts.reverse).Meets files (fun _ after => after = files)
      (fun _ _ => False) := by
  generalize reversed : parts.reverse = inner
  cases inner with
  | nil => exact Meets.pure rfl
  | cons last outer =>
      obtain rfl : parts = (last :: outer).reverse := by
        rw [← reversed, List.reverse_reverse]
      refine (ensureFolder_plain isFolder).tryCatch ?_
      intro _ _ impossible
      cases impossible

theorem create_plain {parts : List String} (isFolder : files.isFolder parts = true) :
    (plain.create parts).Meets files
      (fun place after => files.content? place = none ∧ after = files.insert place (.file []))
      (fun _ _ => False) := by
  obtain ⟨folder, resolved, found⟩ := exists_of_isFolder isFolder
  apply Meets.get
  rw [resolved]
  refine (permit_plain _).bind ?_
  rintro _ files rfl
  have free := content?_unusedName files folder
  have created : files.createFile folder files.unusedName =
      .ok (files.insert (folder ++ [files.unusedName]) (.file [])) := by
    rw [createFile, found]
    simp only [free]
  refine (change_ok created).bind ?_
  rintro _ _ rfl
  exact Meets.pure ⟨free, rfl⟩

theorem finish_plain {before : Files} {place : List String} {path : String}
    (writable : before.Writable path) (bytes : List UInt8) (free : before.content? place = none)
    (added : Added before place [] files) :
    (plain.finish place path bytes).Meets files (fun _ _ => True) (fun _ _ => False) := by
  obtain ⟨_, noSlash, last, target, ends, notHere, notUp, resolved, notFolder⟩ := writable
  have filled : (plain.fill place bytes).Meets files
      (fun _ after => Added before place bytes after) (fun _ _ => False) :=
    Meets.get (Meets.modify (added.refill bytes))
  refine filled.bind ?_
  intro _ whole added
  refine (permit_plain _).bind ?_
  rintro _ whole rfl
  refine (permit_plain _).bind ?_
  rintro _ whole rfl
  have notFolderThere : whole.content? target ≠ some .folder := by
    by_cases same : target = place
    · rw [same]
      exact not_folder_of_file added.1
    · rw [added.2 target same]
      exact notFolder
  have renamed := rename_eq_ok.mpr ⟨bytes, last, target, added.1, ends, notHere, notUp,
    noSlash, (added.keepsFolders free).resolve resolved, notFolderThere, rfl⟩
  exact (change_ok renamed).mono (fun _ _ _ => trivial) fun _ _ failed => failed

theorem write_plain {path : String} (writable : files.Writable path) (bytes : List UInt8) :
    (plain.write path bytes).Meets files (fun _ _ => True) (fun _ _ => False) := by
  refine (makeFolders_plain writable.1).bind ?_
  rintro _ files rfl
  refine (create_plain writable.1).bind ?_
  rintro place _ ⟨free, rfl⟩
  refine (finish_plain writable bytes free (added_insert free)).tryCatch ?_
  intro _ _ impossible
  cases impossible

end Files

end RiskRules
