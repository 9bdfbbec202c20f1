import FlexTypeclass.Codegen.Files

namespace FlexTypeclass.Codegen

-- What the system answers while the constructor runs; `makeAbsolute` is empty on error.
structure FileSystem (Directory : Type) where
  directoryAt : FilePath → Directory
  exeDir : Option FilePath
  pathExists : FilePath → Bool
  createDirectory : FilePath → Bool
  makeAbsolute : FilePath → FilePath
  resolved : ∀ path, makeAbsolute path ≠ .empty → directoryAt (makeAbsolute path) = directoryAt path

-- A script that fails may have set `outDir` before it failed.
structure SettingsScript where
  succeeded : Bool
  outDir : String

structure TypeclassTooling where
  outDir_ : FilePath
  dirError : Bool

section Constructor

variable {Directory : Type} (system : FileSystem Directory) (settings_ : SettingsScript)

def selectedOutDir : Option FilePath :=
  if settings_.outDir ≠ "" then some (.ofString settings_.outDir)
  else system.exeDir.map (fun dir => dir.append "generated".toList)

def TypeclassTooling.create : TypeclassTooling :=
  let dir_exe_ := system.exeDir.getD .empty
  let outDir_ := dir_exe_.append "generated".toList
  let outDir_ := if settings_.outDir ≠ "" then .ofString settings_.outDir else outDir_
  let dirError := if system.pathExists outDir_ then false else !system.createDirectory outDir_
  ⟨system.makeAbsolute outDir_,dirError⟩

theorem create_outDir {dir : FilePath} (h : selectedOutDir system settings_ = some dir) :
    (TypeclassTooling.create system settings_).outDir_ = system.makeAbsolute dir := by
  rw [selectedOutDir] at h
  split at h
  · rename_i hset
    obtain rfl := Option.some.inj h
    simp [TypeclassTooling.create,hset]
  · rename_i hset
    obtain ⟨exe,hexe,rfl⟩ := Option.map_eq_some_iff.mp h
    simp [TypeclassTooling.create,hset,hexe]

end Constructor

theorem genPath_dirName (outDir_ : FilePath) (name : BaseName) (suffix : Suffix) :
    (genPath outDir_ name suffix).dirName =
      if outDir_ = .empty then .currentDirectory else outDir_ := FilePath.dirName_append _ _

theorem genPath_baseName (outDir_ : FilePath) (name : BaseName) (suffix : Suffix) :
    '/' ∉ (genPath outDir_ name suffix).baseName := by
  have hsuffix : '/' ∉ suffix.chars := by cases suffix <;> decide
  rw [genPath,FilePath.baseName_append,List.mem_append,not_or]
  exact ⟨name.slashless,hsuffix⟩

theorem files_genPath (outDir_ : FilePath) (output : Output) : ∀ file ∈ output.files outDir_,
    ∃ name suffix, file.1 = genPath outDir_ name suffix := by
  intro file hfile
  cases output with
  | typeclass name generated =>
    rw [Output.files,List.mem_cons,List.mem_singleton] at hfile
    rcases hfile with rfl | rfl
    · exact ⟨name,_,rfl⟩
    · exact ⟨name,_,rfl⟩
  | typeclass_instance name impl generated =>
    rw [Output.files,List.mem_singleton] at hfile
    rw [hfile]
    exact ⟨name,_,rfl⟩

theorem files_ne_nil (outDir_ : FilePath) (output : Output) : output.files outDir_ ≠ [] := by
  cases output <;> simp [Output.files]

section Written

variable {naming : Naming} (outDir_ : FilePath)

def NothingWritten (invocations : List (Invocation naming)) : Prop :=
  ∀ invocation, invocations.head? = some invocation → ∀ output, invocation.generate ≠ .ok output

theorem written_genPath (invocations : List (Invocation naming)) : ∀ file ∈ written outDir_ invocations,
    ∃ name suffix, file.1 = genPath outDir_ name suffix := by
  intro file hfile
  obtain ⟨output,-,hfile⟩ := List.mem_flatMap.mp hfile
  exact files_genPath outDir_ output file hfile

theorem written_dirName (invocations : List (Invocation naming)) : ∀ file ∈ written outDir_ invocations,
    file.1.dirName = if outDir_ = .empty then .currentDirectory else outDir_ := by
  intro file hfile
  obtain ⟨name,suffix,hpath⟩ := written_genPath outDir_ invocations file hfile
  rw [hpath,genPath_dirName]

theorem written_baseName (invocations : List (Invocation naming)) : ∀ file ∈ written outDir_ invocations,
    '/' ∉ file.1.baseName := by
  intro file hfile
  obtain ⟨name,suffix,hpath⟩ := written_genPath outDir_ invocations file hfile
  rw [hpath]
  exact genPath_baseName outDir_ name suffix

theorem written_eq_nil_iff (invocations : List (Invocation naming)) : written outDir_ invocations = [] ↔
    NothingWritten invocations := by
  cases invocations with
  | nil => simp [NothingWritten,written,outputs]
  | cons invocation invocations =>
    rw [NothingWritten,written,outputs,List.head?_cons]
    cases houtput : invocation.generate with
    | error stop => simp [houtput]
    | ok output => simp [houtput,files_ne_nil]

end Written

section Confined

variable {Directory : Type} {naming : Naming}

def Confined (system : FileSystem Directory) (settings_ : SettingsScript)
    (invocations : List (Invocation naming)) : Prop :=
  ∀ file ∈ written (TypeclassTooling.create system settings_).outDir_ invocations,
    ∃ dir, selectedOutDir system settings_ = some dir ∧
      system.directoryAt file.1.dirName = system.directoryAt dir ∧ '/' ∉ file.1.baseName

theorem confined_iff (system : FileSystem Directory) (settings_ : SettingsScript)
    (invocations : List (Invocation naming)) : Confined system settings_ invocations ↔
      NothingWritten invocations ∨ ∃ dir, selectedOutDir system settings_ = some dir ∧
        (system.makeAbsolute dir ≠ .empty ∨
          system.directoryAt .currentDirectory = system.directoryAt dir) := by
  rw [← written_eq_nil_iff (TypeclassTooling.create system settings_).outDir_]
  constructor
  · intro h
    rcases List.eq_nil_or_concat (written (TypeclassTooling.create system settings_).outDir_ invocations)
      with hnil | ⟨files,file,hfiles⟩
    · exact .inl hnil
    · have hmem : file ∈ written (TypeclassTooling.create system settings_).outDir_ invocations := by
        simp [hfiles]
      obtain ⟨dir,hdir,hsame,-⟩ := h file hmem
      refine .inr ⟨dir,hdir,?_⟩
      rw [written_dirName _ invocations file hmem,create_outDir system settings_ hdir] at hsame
      split at hsame
      · exact .inr hsame
      · rename_i hne
        exact .inl hne
  · rintro (hnil | ⟨dir,hdir,hresolved⟩)
    · intro file hfile
      rw [hnil] at hfile
      cases hfile
    · intro file hfile
      refine ⟨dir,hdir,?_,written_baseName _ invocations file hfile⟩
      rw [written_dirName _ invocations file hfile,create_outDir system settings_ hdir]
      split
      · rename_i hempty
        rcases hresolved with hne | hcurrent
        · exact absurd hempty hne
        · exact hcurrent
      · rename_i hne
        exact system.resolved dir hne

end Confined

def readOnlyInstallation : FileSystem FilePath where
  directoryAt path := path
  exeDir := some ⟨true,["opt".toList,"flextool".toList]⟩
  pathExists _ := false
  createDirectory _ := false
  makeAbsolute _ := .empty
  resolved _ h := absurd rfl h

def noScript : SettingsScript := ⟨false,""⟩

theorem unresolved_writes_to_working_directory :
    (written (TypeclassTooling.create readOnlyInstallation noScript).outDir_
      [.typeclass [] (drawable ["geometry"] [])]).map Prod.fst =
      [⟨false,["Drawable.typeclass.generated.hpp".toList]⟩,
        ⟨false,["Drawable.typeclass.generated.cpp".toList]⟩] ∧
    ¬ Confined readOnlyInstallation noScript [.typeclass [] (drawable ["geometry"] [])] := by
  have hpaths : (written (TypeclassTooling.create readOnlyInstallation noScript).outDir_
      [.typeclass [] (drawable ["geometry"] [])]).map Prod.fst =
      [⟨false,["Drawable.typeclass.generated.hpp".toList]⟩,
        ⟨false,["Drawable.typeclass.generated.cpp".toList]⟩] := by decide
  refine ⟨hpaths,fun h => ?_⟩
  have hmem : (⟨false,["Drawable.typeclass.generated.hpp".toList]⟩ : FilePath) ∈
      (written (TypeclassTooling.create readOnlyInstallation noScript).outDir_
        [.typeclass [] (drawable ["geometry"] [])]).map Prod.fst := by
    rw [hpaths]
    simp
  obtain ⟨file,hfile,hpath⟩ := List.mem_map.mp hmem
  obtain ⟨dir,hdir,hsame,-⟩ := h file hfile
  obtain rfl := Option.some.inj hdir
  rw [hpath] at hsame
  exact absurd hsame (by decide)

end FlexTypeclass.Codegen
