import FlexTypeclass.Lib.PastTime
import FlexTypeclass.Plugin.Protocol

namespace FlexTypeclass.Plugin
open Lib Codegen

section Past

variable {Interpreter Pipeline Directory : Type} {naming : Naming}

abbrev Trace (Interpreter Pipeline Directory : Type) (naming : Naming) :=
  List (Action Interpreter Pipeline Directory naming)

def Connected : Trace Interpreter Pipeline Directory naming → Prop :=
  Since (fun _ action => action = .connect_to_dispatcher) fun _ action => action ≠ .disconnect_dispatcher

def Interpreted : Trace Interpreter Pipeline Directory naming → Prop :=
  Once fun before action => (∃ clingInterpreter, action = .RegisterClingInterpreter clingInterpreter) ∧
    Connected before

def Registers (pipeline : Pipeline) (outDir_ : FilePath)
    (before : Trace Interpreter Pipeline Directory naming)
    (action : Action Interpreter Pipeline Directory naming) : Prop :=
  (∃ system settings_, action = .RegisterAnnotationMethods pipeline system settings_ ∧
    (TypeclassTooling.create system settings_).outDir_ = outDir_) ∧ Connected before

def Registered (pipeline : Pipeline) : Trace Interpreter Pipeline Directory naming → Prop :=
  Once fun before action => ∃ outDir_, Registers pipeline outDir_ before action

-- `pipeline` is the one registered last.
def Serving (pipeline : Pipeline) (outDir_ : FilePath) : Trace Interpreter Pipeline Directory naming → Prop :=
  Since (Registers pipeline outDir_) fun before action => ∀ other dir, ¬ Registers other dir before action

-- A non-type template parameter with a default makes the instance rule read a null pointer.
def ReadsNull (name : String) (options : SourceTransformOptions naming) : Prop :=
  name = "typeclass_instance" ∧ instanceTargets options.tp = .error .nullDereference

def Misuse (before : Trace Interpreter Pipeline Directory naming) :
    Action Interpreter Pipeline Directory naming → Prop
  | .connect_to_dispatcher => .endOfLife ∈ before
  | .disconnect_dispatcher => .endOfLife ∈ before
  | .Init _ => Connected before ∧ .endOfLife ∈ before
  | .StringCommand _ => Connected before ∧ .endOfLife ∈ before
  | .RegisterClingInterpreter _ => Connected before ∧ .endOfLife ∈ before
  | .RegisterAnnotationMethods _ _ _ => Connected before ∧ (.endOfLife ∈ before ∨ ¬ Interpreted before)
  | .transform pipeline name options _ => name ∈ ruleNames ∧ Registered pipeline before ∧
      (.endOfLife ∈ before ∨ (∀ outDir_, ¬ Serving pipeline outDir_ before) ∨ ReadsNull name options)
  | .endOfLife => .endOfLife ∈ before

def Generates (path : FilePath) (stored : Option (Stored FileContent))
    (before : Trace Interpreter Pipeline Directory naming)
    (action : Action Interpreter Pipeline Directory naming) : Prop :=
  ∃ pipeline name options answer outDir_ method output content,
    action = .transform pipeline name options answer ∧ Serving pipeline outDir_ before ∧
    methodNamed name = some method ∧ (method.invocation options).generate = .ok output ∧
    (path,content) ∈ output.files outDir_ ∧ (answer path).leaves content stored

end Past

section Inversion

variable {Interpreter Pipeline Directory : Type} {naming : Naming} {a u : Protocol Pipeline} {r : Report}
  {build : Build}

theorem onPlugin_ok {f : Protocol Pipeline → Protocol Pipeline} (h : Protocol.onPlugin f a = .ok r u) :
    a.present = true ∧ u = f a := by
  rw [Protocol.onPlugin] at h
  split at h
  · cases h
    exact ⟨‹_›,rfl⟩
  · cases h

theorem onEvent_ok {handle : Protocol.M Pipeline Report} (h : Protocol.onEvent handle a = .ok r u) :
    (a.connected = false ∧ u = a) ∨
      (a.connected = true ∧ a.present = true ∧ handle a = .ok r u) := by
  rw [Protocol.onEvent] at h
  split at h
  · split at h
    · exact .inr ⟨‹_›,‹_›,h⟩
    · cases h
  · rename_i hconnected
    cases h
    exact .inl ⟨Bool.eq_false_iff.mpr hconnected,rfl⟩

variable [DecidableEq Pipeline]

theorem register_ok {pipeline : Pipeline} {system : FileSystem Directory} {settings_ : SettingsScript}
    (h : Protocol.register build pipeline system settings_ a = .ok r u) :
    u = { a with
      registered := Function.update a.registered pipeline true
      current := some (pipeline,(TypeclassTooling.create system settings_).outDir_) } := by
  rw [Protocol.register] at h
  split at h
  · cases h
  · split at h
    · cases h
    · cases h
      rfl

theorem transform_ok {pipeline : Pipeline} {name : String} {options : SourceTransformOptions naming}
    {answer : FilePath → Answer} (h : Protocol.transform build pipeline name options answer a = .ok r u) :
    u = a ∨ ∃ outDir_ method output, a.current = some (pipeline,outDir_) ∧
      methodNamed name = some method ∧ (method.invocation options).generate = .ok output ∧
      u = { a with files := attempt a.files (attempted answer outDir_ output) } := by
  rw [Protocol.transform] at h
  split at h
  · rename_i method hmethod _
    split at h
    · rename_i other outDir_ hcurrent
      split at h
      · rename_i heq
        subst heq
        rw [Protocol.generate] at h
        split at h
        · cases h
        · cases h
        · rename_i output houtput
          cases h
          exact .inr ⟨outDir_,method,output,hcurrent,hmethod,generateIn_ok houtput,rfl⟩
      · cases h
    · cases h
  · cases h
    exact .inl rfl

omit [DecidableEq Pipeline] in
theorem noThrow_onPlugin (f : Protocol Pipeline → Protocol Pipeline) :
    Exec.NoThrow (Protocol.onPlugin f) := by
  intro a u h
  rw [Protocol.onPlugin] at h
  split at h <;> cases h

omit [DecidableEq Pipeline] in
theorem noThrow_onEvent {handle : Protocol.M Pipeline Report} (hhandle : Exec.NoThrow handle) :
    Exec.NoThrow (Protocol.onEvent handle) := by
  intro a u h
  rw [Protocol.onEvent] at h
  split at h
  · split at h
    · exact hhandle a u h
    · cases h
  · cases h

theorem noThrow_register (pipeline : Pipeline) (system : FileSystem Directory)
    (settings_ : SettingsScript) :
    Exec.NoThrow (Protocol.register build pipeline system settings_) := by
  intro a u h
  rw [Protocol.register] at h
  split at h
  · cases h
  · split at h <;> cases h

theorem noThrow_transform (pipeline : Pipeline) (name : String)
    (options : SourceTransformOptions naming) (answer : FilePath → Answer) :
    Exec.NoThrow (Protocol.transform build pipeline name options answer) := by
  intro a u h
  rw [Protocol.transform] at h
  split at h
  · split at h
    · split at h
      · rw [Protocol.generate] at h
        split at h <;> cases h
      · cases h
    · cases h
  · cases h

theorem noThrow_protocol (action : Action Interpreter Pipeline Directory naming) :
    Exec.NoThrow (Protocol.step build action : Protocol.M Pipeline Report) := by
  cases action with
  | connect_to_dispatcher => exact noThrow_onPlugin _
  | disconnect_dispatcher => exact noThrow_onPlugin _
  | Init argc => exact noThrow_onEvent (Exec.noThrow_pure _)
  | StringCommand split_parts => exact noThrow_onEvent (Exec.noThrow_pure _)
  | RegisterClingInterpreter clingInterpreter =>
    refine noThrow_onEvent fun a u h => ?_
    cases h
  | RegisterAnnotationMethods pipeline system settings_ =>
    exact noThrow_onEvent (noThrow_register pipeline system settings_)
  | transform pipeline name options answer => exact noThrow_transform pipeline name options answer
  | endOfLife => exact noThrow_onPlugin _

end Inversion

section Summary

variable {Interpreter Pipeline Directory : Type} {naming : Naming}
  {before : Trace Interpreter Pipeline Directory naming}
  {action : Action Interpreter Pipeline Directory naming} {pipeline : Pipeline} {outDir_ : FilePath}

theorem connected_snoc : Connected (before ++ [action]) ↔
    action = .connect_to_dispatcher ∨ (action ≠ .disconnect_dispatcher ∧ Connected before) := since_snoc

theorem interpreted_snoc : Interpreted (before ++ [action]) ↔
    ((∃ clingInterpreter, action = .RegisterClingInterpreter clingInterpreter) ∧ Connected before) ∨
      Interpreted before := once_snoc

theorem registered_snoc : Registered pipeline (before ++ [action]) ↔
    (∃ outDir_, Registers pipeline outDir_ before action) ∨ Registered pipeline before := once_snoc

theorem serving_snoc : Serving pipeline outDir_ (before ++ [action]) ↔
    Registers pipeline outDir_ before action ∨
      ((∀ other dir, ¬ Registers other dir before action) ∧ Serving pipeline outDir_ before) := since_snoc

-- What a trace that ran to its end says about the state it reached.
structure Summary (files : Disk) (before : Trace Interpreter Pipeline Directory naming)
    (a : Protocol Pipeline) : Prop where
  present : a.present = true ↔ .endOfLife ∉ before
  connected : a.connected = true ↔ Connected before
  interpreted : a.interpreted = true ↔ Interpreted before
  registered : ∀ pipeline, a.registered pipeline = true ↔ Registered pipeline before
  current : ∀ pipeline outDir_, a.current = some (pipeline,outDir_) ↔
    .endOfLife ∉ before ∧ Serving pipeline outDir_ before
  files : ∀ path, a.files path = files path ∨ Once (Generates path (a.files path)) before

variable {files : Disk} {a u : Protocol Pipeline} {build : Build} {r : Report}

theorem summary_init (files : Disk) :
    Summary files ([] : Trace Interpreter Pipeline Directory naming) (.init files : Protocol Pipeline) where
  present := by simp [Protocol.init]
  connected := by simp [Protocol.init,Connected,not_since_nil]
  interpreted := by simp [Protocol.init,Interpreted,not_once_nil]
  registered pipeline := by simp [Protocol.init,Registered,not_once_nil]
  current pipeline outDir_ := by simp [Protocol.init,Serving,not_since_nil]
  files path := .inl rfl

theorem Summary.older (h : Summary files before a) (action : Action Interpreter Pipeline Directory naming)
    (path : FilePath) :
    a.files path = files path ∨ Once (Generates path (a.files path)) (before ++ [action]) :=
  (h.files path).imp_right fun hgenerated => once_snoc.mpr (.inr hgenerated)

theorem Summary.quiet (h : Summary files before a) (hconnect : action ≠ .connect_to_dispatcher)
    (hdisconnect : action ≠ .disconnect_dispatcher) (hend : action ≠ .endOfLife)
    (hinterpreter : (∃ clingInterpreter, action = .RegisterClingInterpreter clingInterpreter) →
      ¬ Connected before)
    (hregister : ∀ pipeline outDir_, ¬ Registers pipeline outDir_ before action) :
    Summary files (before ++ [action]) a where
  present := by simp [h.present,Ne.symm hend]
  connected := by simp [connected_snoc,h.connected,hconnect,hdisconnect]
  interpreted := by
    rw [interpreted_snoc,h.interpreted,or_iff_right]
    exact fun hdelivered => hinterpreter hdelivered.1 hdelivered.2
  registered pipeline := by
    rw [registered_snoc,h.registered,or_iff_right]
    exact fun ⟨dir,hdir⟩ => hregister pipeline dir hdir
  current pipeline outDir_ := by
    rw [serving_snoc,h.current,or_iff_right (hregister pipeline outDir_)]
    simp [Ne.symm hend,hregister]
  files := h.older action

theorem Summary.dropped (h : Summary files before a) (hoff : a.connected = false)
    (hconnect : action ≠ .connect_to_dispatcher) (hdisconnect : action ≠ .disconnect_dispatcher)
    (hend : action ≠ .endOfLife) : Summary files (before ++ [action]) a := by
  have hnot : ¬ Connected before := by
    rw [← h.connected,hoff]
    exact Bool.false_ne_true
  exact h.quiet hconnect hdisconnect hend (fun _ => hnot) fun _ _ hregisters => hnot hregisters.2

theorem summary_connection (h : Summary files before a) (on : Bool)
    (haction : action = if on then .connect_to_dispatcher else .disconnect_dispatcher) :
    Summary files (before ++ [action]) { a with connected := on } := by
  have hend : action ≠ .endOfLife := by cases on <;> simp [haction]
  have hregister (pipeline : Pipeline) (outDir_ : FilePath) :
      ¬ Registers pipeline outDir_ before action := by cases on <;> simp [haction,Registers]
  exact {
    present := by simp [h.present,Ne.symm hend]
    connected := by cases on <;> simp [connected_snoc,haction]
    interpreted := by cases on <;> simp [interpreted_snoc,haction,h.interpreted]
    registered := fun pipeline => by simp [registered_snoc,hregister,h.registered]
    current := fun pipeline outDir_ => by simp [serving_snoc,hregister,h.current,Ne.symm hend]
    files := h.older action }

theorem summary_interpreter (h : Summary files before a) (hon : a.connected = true)
    (clingInterpreter : Interpreter) :
    Summary files (before ++ [.RegisterClingInterpreter clingInterpreter]) { a with interpreted := true } where
  present := by simp [h.present]
  connected := by simp [connected_snoc,h.connected]
  interpreted := by simp [interpreted_snoc,h.connected.mp hon]
  registered pipeline := by simp [registered_snoc,Registers,h.registered]
  current pipeline outDir_ := by simp [serving_snoc,Registers,h.current]
  files := h.older _

theorem summary_endOfLife (h : Summary files before a) :
    Summary files (before ++ [.endOfLife]) { a with present := false, current := none } where
  present := by simp
  connected := by simp [connected_snoc,h.connected]
  interpreted := by simp [interpreted_snoc,h.interpreted]
  registered pipeline := by simp [registered_snoc,Registers,h.registered]
  current pipeline outDir_ := by simp
  files := h.older _

variable [DecidableEq Pipeline]

theorem summary_register (h : Summary files before a) (hon : a.connected = true)
    (hpresent : a.present = true) (pipeline : Pipeline) (system : FileSystem Directory)
    (settings_ : SettingsScript) :
    Summary files (before ++ [.RegisterAnnotationMethods pipeline system settings_]) { a with
      registered := Function.update a.registered pipeline true
      current := some (pipeline,(TypeclassTooling.create system settings_).outDir_) } := by
  have hregisters (other : Pipeline) (dir : FilePath) :
      Registers other dir before (.RegisterAnnotationMethods pipeline system settings_) ↔
        pipeline = other ∧ (TypeclassTooling.create system settings_).outDir_ = dir := by
    constructor
    · rintro ⟨⟨_,_,heq,hdir⟩,-⟩
      cases heq
      exact ⟨rfl,hdir⟩
    · rintro ⟨rfl,hdir⟩
      exact ⟨⟨system,settings_,rfl,hdir⟩,h.connected.mp hon⟩
  have hlast : ¬ ∀ other dir,
      ¬ Registers other dir before (.RegisterAnnotationMethods pipeline system settings_) :=
    fun hnone => hnone _ _ ((hregisters _ _).mpr ⟨rfl,rfl⟩)
  exact {
    present := by simp [h.present]
    connected := by simp [connected_snoc,h.connected]
    interpreted := by simp [interpreted_snoc,h.interpreted]
    registered := fun other => by
      rw [registered_snoc]
      rcases eq_or_ne other pipeline with rfl | hne
      · simp [hregisters]
      · simp [hregisters,Ne.symm hne,hne,h.registered]
    current := fun other dir => by
      have halive := h.present.mp hpresent
      rw [serving_snoc,or_iff_left fun hold => hlast hold.1,hregisters]
      simp [halive]
    files := h.older _ }

omit [DecidableEq Pipeline] in
theorem summary_files (h : Summary files before a) {name : String} {options : SourceTransformOptions naming}
    {answer : FilePath → Answer} {method : ToolingMethod} {output : Output}
    (hcurrent : a.current = some (pipeline,outDir_)) (hmethod : methodNamed name = some method)
    (houtput : (method.invocation options).generate = .ok output) :
    Summary files (before ++ [.transform pipeline name options answer])
      { a with files := attempt a.files (attempted answer outDir_ output) } := by
  have hquiet : Summary files (before ++ [.transform pipeline name options answer]) a :=
    h.quiet (by simp) (by simp) (by simp) (by simp) (by simp [Registers])
  refine { hquiet with files := fun path => ?_ }
  rcases attempt_cases a.files (attempted answer outDir_ output) path with hold | ⟨_,hwrite,rfl,hleaves⟩
  · simp only [hold]
    exact hquiet.files path
  · obtain ⟨⟨path,content⟩,hmem,rfl⟩ := List.mem_map.mp hwrite
    refine .inr (once_snoc.mpr (.inl ?_))
    exact ⟨pipeline,name,options,answer,outDir_,method,output,content,rfl,
      ((h.current pipeline outDir_).mp hcurrent).2,hmethod,houtput,hmem,hleaves⟩

theorem summary_ok (h : Summary files before a) (hstep : Protocol.step build action a = .ok r u) :
    Summary files (before ++ [action]) u := by
  cases action with
  | connect_to_dispatcher =>
    rw [Protocol.step] at hstep
    obtain ⟨-,rfl⟩ := onPlugin_ok hstep
    exact summary_connection h true rfl
  | disconnect_dispatcher =>
    rw [Protocol.step] at hstep
    obtain ⟨-,rfl⟩ := onPlugin_ok hstep
    exact summary_connection h false rfl
  | Init argc =>
    obtain ⟨hoff,rfl⟩ | ⟨-,-,heq⟩ := onEvent_ok hstep
    · exact h.dropped hoff (by simp) (by simp) (by simp)
    · cases heq
      exact h.quiet (by simp) (by simp) (by simp) (by simp) (by simp [Registers])
  | StringCommand split_parts =>
    obtain ⟨hoff,rfl⟩ | ⟨-,-,heq⟩ := onEvent_ok hstep
    · exact h.dropped hoff (by simp) (by simp) (by simp)
    · cases heq
      exact h.quiet (by simp) (by simp) (by simp) (by simp) (by simp [Registers])
  | RegisterClingInterpreter clingInterpreter =>
    rw [Protocol.step] at hstep
    obtain ⟨hoff,rfl⟩ | ⟨hon,-,heq⟩ := onEvent_ok hstep
    · exact h.dropped hoff (by simp) (by simp) (by simp)
    · cases heq
      exact summary_interpreter h hon clingInterpreter
  | RegisterAnnotationMethods pipeline system settings_ =>
    obtain ⟨hoff,rfl⟩ | ⟨hon,hpresent,heq⟩ := onEvent_ok hstep
    · exact h.dropped hoff (by simp) (by simp) (by simp)
    · obtain rfl := register_ok heq
      exact summary_register h hon hpresent pipeline system settings_
  | transform pipeline name options answer =>
    obtain rfl | ⟨outDir_,method,output,hcurrent,hmethod,houtput,rfl⟩ := transform_ok hstep
    · exact h.quiet (by simp) (by simp) (by simp) (by simp) (by simp [Registers])
    · exact summary_files h hcurrent hmethod houtput
  | endOfLife =>
    rw [Protocol.step] at hstep
    obtain ⟨-,rfl⟩ := onPlugin_ok hstep
    exact summary_endOfLife h

theorem summary_tracks (build : Build) (files : Disk) :
    Tracks (Protocol.step build) (.init files)
      (Summary files : Trace Interpreter Pipeline Directory naming → Protocol Pipeline → Prop) where
  start := summary_init files
  ok h hstep := summary_ok h hstep
  threw _ hstep := absurd hstep (noThrow_protocol _ _ _)

end Summary

section Faults

variable {Interpreter Pipeline Directory : Type} {naming : Naming}
  {before : Trace Interpreter Pipeline Directory naming}
  {action : Action Interpreter Pipeline Directory naming} {a : Protocol Pipeline} {build : Build}

theorem onPlugin_fault {f : Protocol Pipeline → Protocol Pipeline} :
    Protocol.onPlugin f a = .stop .fault ↔ a.present = false := by
  cases hpresent : a.present <;> simp [Protocol.onPlugin,hpresent]

theorem onEvent_fault {handle : Protocol.M Pipeline Report} :
    Protocol.onEvent handle a = .stop .fault ↔
      a.connected = true ∧ (a.present = false ∨ handle a = .stop .fault) := by
  cases hconnected : a.connected <;> cases hpresent : a.present <;>
    simp [Protocol.onEvent,hconnected,hpresent]

variable [DecidableEq Pipeline]

theorem register_fault {pipeline : Pipeline} {system : FileSystem Directory} {settings_ : SettingsScript} :
    Protocol.register build pipeline system settings_ a = .stop .fault ↔ a.interpreted = false := by
  rw [Protocol.register]
  cases a.interpreted with
  | false => simp
  | true => cases aborts system settings_ build <;> simp

omit [DecidableEq Pipeline] in
theorem generate_fault {invocation : Invocation naming} {answer : FilePath → Answer}
    {outDir_ : FilePath} : Protocol.generate build invocation answer outDir_ a = .stop .fault ↔
      invocation.generate = .error .nullDereference := by
  rw [Protocol.generate,← generateIn_null_iff build.dcheck]
  rcases invocation.generateIn build.dcheck with (_ | _) | output <;> simp

theorem readsNull_iff {name : String} {options : SourceTransformOptions naming} {method : ToolingMethod}
    (hmethod : methodNamed name = some method) :
    (method.invocation options).generate = .error .nullDereference ↔ ReadsNull name options := by
  rw [generate_null_iff]
  cases method with
  | typeclass =>
    have hname : name ≠ "typeclass_instance" := by
      rintro rfl
      simp [methodNamed] at hmethod
    simp [ToolingMethod.invocation,ReadsNull,hname]
  | typeclass_instance =>
    have hname : name = "typeclass_instance" := by
      by_contra hne
      by_cases hclass : name = "typeclass" <;> simp [methodNamed,hne,hclass] at hmethod
    simp [ToolingMethod.invocation,ReadsNull,hname]

theorem transform_fault {pipeline : Pipeline} {name : String} {options : SourceTransformOptions naming}
    {answer : FilePath → Answer} :
    Protocol.transform build pipeline name options answer a = .stop .fault ↔
      name ∈ ruleNames ∧ a.registered pipeline = true ∧
        ((∀ outDir_, a.current ≠ some (pipeline,outDir_)) ∨ ReadsNull name options) := by
  rw [Protocol.transform,← methodNamed_isSome]
  cases hmethod : methodNamed name with
  | none => simp
  | some method =>
    cases a.registered pipeline with
    | false => simp
    | true =>
      rcases hcurrent : a.current with _ | ⟨other,outDir_⟩
      · simp
      · by_cases heq : other = pipeline
        · simp [heq,generate_fault,readsNull_iff hmethod]
        · simp [heq]

theorem protocol_fault_iff {files : Disk} (h : Summary files before a)
    (action : Action Interpreter Pipeline Directory naming) :
    Protocol.step build action a = .stop .fault ↔ Misuse before action := by
  have hgone : a.present = false ↔ .endOfLife ∈ before := by
    rw [← Bool.not_eq_true,h.present,not_not]
  cases action with
  | connect_to_dispatcher => rw [Protocol.step,onPlugin_fault,hgone,Misuse]
  | disconnect_dispatcher => rw [Protocol.step,onPlugin_fault,hgone,Misuse]
  | endOfLife => rw [Protocol.step,onPlugin_fault,hgone,Misuse]
  | Init argc => rw [Protocol.step,onEvent_fault,h.connected,hgone,Misuse]; simp
  | StringCommand split_parts => rw [Protocol.step,onEvent_fault,h.connected,hgone,Misuse]; simp
  | RegisterClingInterpreter clingInterpreter =>
    rw [Protocol.step,onEvent_fault,h.connected,hgone,Misuse,Protocol.interpret]
    simp
  | RegisterAnnotationMethods pipeline system settings_ =>
    have hinterpreted : a.interpreted = false ↔ ¬ Interpreted before := by
      rw [← h.interpreted,Bool.not_eq_true]
    rw [Protocol.step,onEvent_fault,h.connected,hgone,register_fault,hinterpreted,Misuse]
  | transform pipeline name options answer =>
    rw [Protocol.step,transform_fault,h.registered,Misuse,← or_assoc]
    refine and_congr_right fun _ => and_congr_right fun _ => or_congr_left ?_
    simp only [ne_eq,h.current,not_and]
    constructor
    · intro hnot
      exact or_iff_not_imp_left.mpr fun halive outDir_ => hnot outDir_ halive
    · rintro (hend | hnot) outDir_ halive
      · exact absurd hend halive
      · exact hnot outDir_

end Faults

section Sessions

variable {Interpreter Pipeline Directory : Type} [DecidableEq Pipeline] {naming : Naming} {build : Build}
  {files : Disk} {actions : Trace Interpreter Pipeline Directory naming} {s : Session Interpreter Pipeline}

theorem session_summary (h : Reaches (Session.step build) (.init files) actions s) :
    ∃ a, Represents s a ∧ Summary files actions a := by
  obtain ⟨a,hrun,hrepresents⟩ := (session_refines build files actions).of_ok h
  exact ⟨a,hrepresents,(summary_tracks build files).reaches hrun⟩

theorem session_fault_iff (build : Build) (files : Disk)
    (actions : Trace Interpreter Pipeline Directory naming) :
    (run (Session.step build) actions (Session.init files)).2 = .error .fault ↔
      ∃ before action after, actions = before ++ action :: after ∧
        (∃ s, Reaches (Session.step build) (.init files) before s) ∧ Misuse before action := by
  have hstep {before : Trace Interpreter Pipeline Directory naming} {s : Session Interpreter Pipeline}
      (h : Reaches (Session.step build) (.init files) before s)
      (action : Action Interpreter Pipeline Directory naming) :
      Session.step build action s = .stop .fault ↔ Misuse before action := by
    obtain ⟨a,hrepresents,hsummary⟩ := session_summary h
    rw [(step_matches build action hrepresents).stop_iff,protocol_fault_iff hsummary]
  rw [run_error_iff]
  constructor
  · rintro ⟨before,action,after,s,heq,hreach,hfault⟩
    exact ⟨before,action,after,heq,⟨s,hreach⟩,(hstep hreach action).mp hfault⟩
  · rintro ⟨before,action,after,heq,⟨s,hreach⟩,hmisuse⟩
    exact ⟨before,action,after,s,heq,hreach,(hstep hreach action).mpr hmisuse⟩

theorem session_files (build : Build) (files : Disk)
    (actions : Trace Interpreter Pipeline Directory naming) (s : Session Interpreter Pipeline)
    (h : Reaches (Session.step build) (.init files) actions s) (path : FilePath) :
    s.files path = files path ∨ Once (Generates path (s.files path)) actions := by
  obtain ⟨a,hrepresents,hsummary⟩ := session_summary h
  rw [hrepresents.files]
  exact hsummary.files path

end Sessions

def servedDrawable : Trace Nat Nat FilePath ascii :=
  [.connect_to_dispatcher,.RegisterClingInterpreter 0,
    .RegisterAnnotationMethods 0 readOnlyInstallation noScript,
    .transform 0 "typeclass" ⟨[],drawable ["geometry"] [],[]⟩ fun _ => .written]

def drawableHpp : FilePath := ⟨false,["Drawable.typeclass.generated.hpp".toList]⟩

theorem servedDrawable_reaches : ∃ s : Session Nat Nat,
    Reaches (Session.step ⟨false,"local build"⟩) (.init fun _ => none) servedDrawable s ∧
      (s.files drawableHpp).isSome :=
  ⟨_,rfl,rfl⟩

theorem session_files_drawable : ∃ s : Session Nat Nat, (s.files drawableHpp).isSome ∧
    (s.files drawableHpp = none ∨ Once (Generates drawableHpp (s.files drawableHpp)) servedDrawable) := by
  obtain ⟨s,hreach,hsome⟩ := servedDrawable_reaches
  exact ⟨s,hsome,session_files ⟨false,"local build"⟩ (fun _ => none) servedDrawable s hreach drawableHpp⟩

end FlexTypeclass.Plugin
