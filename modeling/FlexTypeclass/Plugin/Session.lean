import FlexTypeclass.Lib.Exec
import FlexTypeclass.Codegen.OutputDirectory
import FlexTypeclass.Codegen.WriteFailures
import FlexTypeclass.Plugin.EventHandler

namespace FlexTypeclass.Plugin
open Lib Codegen

inductive Stop where
  | fault
  | aborted
  deriving DecidableEq, Repr

inductive Sink where
  | Init
  | StringCommand
  | RegisterAnnotationMethods
  | RegisterClingInterpreter
  deriving DecidableEq, Repr

structure Build where
  dcheck : Bool
  applicationBuildType : String

structure SourceTransformOptions (naming : Naming) where
  args : List Arg
  record : AnnotatedRecord naming
  tp : List TemplateParameter

def ToolingMethod.invocation {naming : Naming} : ToolingMethod → SourceTransformOptions naming →
    Invocation naming
  | .typeclass,options => .typeclass options.args options.record
  | .typeclass_instance,options => .typeclass_instance options.record options.tp

-- What the host does to the plugin, with the system's answers to what the plugin asks meanwhile.
inductive Action (Interpreter Pipeline Directory : Type) (naming : Naming) where
  | connect_to_dispatcher
  | disconnect_dispatcher
  | Init (argc : Int)
  | StringCommand (split_parts : List String)
  | RegisterClingInterpreter (clingInterpreter : Interpreter)
  | RegisterAnnotationMethods (pipeline : Pipeline) (system : FileSystem Directory)
      (settings_ : SettingsScript)
  | transform (pipeline : Pipeline) (name : String) (options : SourceTransformOptions naming)
      (answer : FilePath → Answer)
  | endOfLife

inductive Report where
  | silent
  | version (lines : List String)
  | writes (files : List (Answer × FilePath × FileContent))

structure Session (Interpreter Pipeline : Type) where
  world : World Interpreter Pipeline
  sinks : Sink → Bool
  outDirs : List FilePath
  files : Disk

def kPluginDebugLogName : String := "(FlexTypeclass plugin)"

def kVersion : String := "v0.0.1"

def kVersionCommand : String := "/version"

def versionLines (build : Build) (split_parts : List String) : Report :=
  if split_parts = [kVersionCommand] then
    .version [kPluginDebugLogName ++ " application version: " ++ kVersion,
      kPluginDebugLogName ++ " application build type: " ++ build.applicationBuildType]
  else .silent

section Constructor

variable {Directory : Type} (system : FileSystem Directory) (settings_ : SettingsScript)

def toolingChecks : Bool :=
  (settings_.succeeded || settings_.outDir = "") && system.exeDir.any (· ≠ .empty) &&
    (TypeclassTooling.create system settings_).outDir_ ≠ .empty

def aborts (build : Build) : Bool := build.dcheck && !toolingChecks system settings_

end Constructor

def attempted (answer : FilePath → Answer) (outDir_ : FilePath) (output : Output) :
    List (Answer × FilePath × FileContent) :=
  (output.files outDir_).map fun file => (answer file.1,file)

namespace Session

variable {Interpreter Pipeline Directory : Type} [DecidableEq Pipeline] {naming : Naming}

abbrev M (Interpreter Pipeline : Type) := Exec Stop (Session Interpreter Pipeline)

def init (files : Disk) : Session Interpreter Pipeline := ⟨.init,fun _ => false,[],files⟩

-- The sinks and their order are the same in both functions.
def setSinks (on : Bool) (sinks : Sink → Bool) : Sink → Bool :=
  [Sink.Init,.StringCommand,.RegisterAnnotationMethods,.RegisterClingInterpreter].foldl
    (fun sinks sink => Function.update sinks sink on) sinks

def onPlugin (f : Session Interpreter Pipeline → Session Interpreter Pipeline) :
    M Interpreter Pipeline Report := fun s =>
  match s.world.eventHandler_ with
  | none => .stop .fault
  | some _ => .ok .silent (f s)

def connect_to_dispatcher : M Interpreter Pipeline Report :=
  onPlugin fun s => { s with sinks := setSinks true s.sinks }

def disconnect_dispatcher : M Interpreter Pipeline Report :=
  onPlugin fun s => { s with sinks := setSinks false s.sinks }

-- A sink calls the handler it was given, even one that is gone.
def trigger (sink : Sink)
    (handle : FlexTypeclassEventHandler Interpreter → M Interpreter Pipeline Report) :
    M Interpreter Pipeline Report := fun s =>
  if s.sinks sink then
    match s.world.eventHandler_ with
    | none => .stop .fault
    | some handler => handle handler s
  else .ok .silent s

def RegisterClingInterpreter (clingInterpreter : Interpreter) : M Interpreter Pipeline Report :=
  fun s => .ok .silent { s with world := dispatch s.world (.RegisterClingInterpreter clingInterpreter) }

-- Without an interpreter the pointer is indeterminate, and even the check of it is a fault.
def RegisterAnnotationMethods (build : Build) (handler : FlexTypeclassEventHandler Interpreter)
    (pipeline : Pipeline) (system : FileSystem Directory) (settings_ : SettingsScript) :
    M Interpreter Pipeline Report := fun s =>
  match handler.clingInterpreter_ with
  | none => .stop .fault
  | some _ =>
    if aborts system settings_ build then .stop .aborted
    else .ok .silent { s with
      world := dispatch s.world (.RegisterAnnotationMethods pipeline)
      outDirs := s.outDirs ++ [(TypeclassTooling.create system settings_).outDir_] }

def runRule (build : Build) (invocation : Invocation naming) (answer : FilePath → Answer)
    (outDir_ : FilePath) : M Interpreter Pipeline Report := fun s =>
  match invocation.generateIn build.dcheck with
  | .error .check => .stop .aborted
  | .error .nullDereference => .stop .fault
  | .ok output =>
    .ok (.writes (attempted answer outDir_ output))
      { s with files := attempt s.files (attempted answer outDir_ output) }

def transform (build : Build) (pipeline : Pipeline) (name : String)
    (options : SourceTransformOptions naming) (answer : FilePath → Answer) :
    M Interpreter Pipeline Report := fun s =>
  match s.world.sourceTransformRules pipeline name with
  | none => .ok .silent s
  | some callback =>
    match s.world.toolings.value? callback.tooling,s.outDirs[callback.tooling]? with
    | some _,some outDir_ => runRule build (callback.method.invocation options) answer outDir_ s
    | _,_ => .stop .fault

def endOfLife : M Interpreter Pipeline Report :=
  onPlugin fun s => { s with world := dispatch s.world .endOfLife }

def step (build : Build) : Action Interpreter Pipeline Directory naming → M Interpreter Pipeline Report
  | .connect_to_dispatcher => connect_to_dispatcher
  | .disconnect_dispatcher => disconnect_dispatcher
  | .Init _ => trigger .Init fun _ => pure .silent
  | .StringCommand split_parts =>
    trigger .StringCommand fun _ => pure (versionLines build split_parts)
  | .RegisterClingInterpreter clingInterpreter =>
    trigger .RegisterClingInterpreter fun _ => RegisterClingInterpreter clingInterpreter
  | .RegisterAnnotationMethods pipeline system settings_ =>
    trigger .RegisterAnnotationMethods fun handler =>
      RegisterAnnotationMethods build handler pipeline system settings_
  | .transform pipeline name options answer => transform build pipeline name options answer
  | .endOfLife => endOfLife

end Session

end FlexTypeclass.Plugin
