import FlexTypeclass.Plugin.Session

namespace FlexTypeclass.Plugin
open Lib Codegen

-- What a host has to know: no object, no address, only the pipeline registered last.
structure Protocol (Pipeline : Type) where
  present : Bool
  connected : Bool
  interpreted : Bool
  registered : Pipeline → Bool
  current : Option (Pipeline × FilePath)
  files : Disk

def methodNamed (name : String) : Option ToolingMethod :=
  if name = "typeclass" then some .typeclass
  else if name = "typeclass_instance" then some .typeclass_instance
  else none

theorem methodNamed_isSome {name : String} : (methodNamed name).isSome ↔ name ∈ ruleNames := by
  by_cases hclass : name = "typeclass"
  · simp [methodNamed,ruleNames,hclass]
  · by_cases hinstance : name = "typeclass_instance"
    · simp [methodNamed,ruleNames,hinstance]
    · simp [methodNamed,ruleNames,hclass,hinstance]

theorem registerRules_eq (tooling_ : ObjId) (rules : String → Option Callback) (name : String) :
    registerRules tooling_ rules name =
      match methodNamed name with
      | some method => some ⟨method,tooling_⟩
      | none => rules name := by
  by_cases hclass : name = "typeclass"
  · simp [registerRules,methodNamed,hclass]
  · by_cases hinstance : name = "typeclass_instance"
    · simp [registerRules,methodNamed,hinstance]
    · simp [registerRules,methodNamed,hclass,hinstance]

namespace Protocol

variable {Interpreter Pipeline Directory : Type} [DecidableEq Pipeline] {naming : Naming}

abbrev M (Pipeline : Type) := Exec Stop (Protocol Pipeline)

def init (files : Disk) : Protocol Pipeline := ⟨true,false,false,fun _ => false,none,files⟩

def onPlugin (f : Protocol Pipeline → Protocol Pipeline) : M Pipeline Report := fun a =>
  if a.present then .ok .silent (f a) else .stop .fault

def onEvent (handle : M Pipeline Report) : M Pipeline Report := fun a =>
  if a.connected then if a.present then handle a else .stop .fault else .ok .silent a

def interpret : M Pipeline Report := fun a => .ok .silent { a with interpreted := true }

def register (build : Build) (pipeline : Pipeline) (system : FileSystem Directory)
    (settings_ : SettingsScript) : M Pipeline Report := fun a =>
  if !a.interpreted then .stop .fault
  else if aborts system settings_ build then .stop .aborted
  else .ok .silent { a with
    registered := Function.update a.registered pipeline true
    current := some (pipeline,(TypeclassTooling.create system settings_).outDir_) }

def generate (build : Build) (invocation : Invocation naming) (answer : FilePath → Answer)
    (outDir_ : FilePath) : M Pipeline Report := fun a =>
  match invocation.generateIn build.dcheck with
  | .error .check => .stop .aborted
  | .error .nullDereference => .stop .fault
  | .ok output =>
    .ok (.writes (attempted answer outDir_ output))
      { a with files := attempt a.files (attempted answer outDir_ output) }

def transform (build : Build) (pipeline : Pipeline) (name : String)
    (options : SourceTransformOptions naming) (answer : FilePath → Answer) : M Pipeline Report := fun a =>
  match methodNamed name,a.registered pipeline with
  | some method,true =>
    match a.current with
    | some (other,outDir_) =>
      if other = pipeline then generate build (method.invocation options) answer outDir_ a
      else .stop .fault
    | none => .stop .fault
  | _,_ => .ok .silent a

def step (build : Build) : Action Interpreter Pipeline Directory naming → M Pipeline Report
  | .connect_to_dispatcher => onPlugin fun a => { a with connected := true }
  | .disconnect_dispatcher => onPlugin fun a => { a with connected := false }
  | .Init _ => onEvent (pure .silent)
  | .StringCommand split_parts => onEvent (pure (versionLines build split_parts))
  | .RegisterClingInterpreter _ => onEvent interpret
  | .RegisterAnnotationMethods pipeline system settings_ =>
    onEvent (register build pipeline system settings_)
  | .transform pipeline name options answer => transform build pipeline name options answer
  | .endOfLife => onPlugin fun a => { a with present := false, current := none }

end Protocol

section Refinement

variable {Interpreter Pipeline Directory : Type} {naming : Naming}

-- The callbacks of the pipeline registered last, and only those, lead to a tooling that is alive.
structure Represents (s : Session Interpreter Pipeline) (a : Protocol Pipeline) : Prop where
  history : ∃ before, History before s.world
  present : s.world.eventHandler_.isSome = a.present
  sinks : s.sinks = fun _ => a.connected
  interpreted : ∀ handler, s.world.eventHandler_ = some handler →
    handler.clingInterpreter_.isSome = a.interpreted
  outDirs : s.outDirs.length = s.world.toolings.length
  rules : ∀ pipeline name, (s.world.sourceTransformRules pipeline name).map Callback.method =
    if a.registered pipeline then methodNamed name else none
  current : ∀ pipeline name callback, s.world.sourceTransformRules pipeline name = some callback →
    ∀ outDir_, a.current = some (pipeline,outDir_) ↔
      (s.world.toolings.value? callback.tooling).isSome ∧ s.outDirs[callback.tooling]? = some outDir_
  files : s.files = a.files

variable {s : Session Interpreter Pipeline} {a : Protocol Pipeline}

theorem represents_init (files : Disk) :
    Represents (Session.init files : Session Interpreter Pipeline) (.init files) where
  history := ⟨[],history_init⟩
  present := rfl
  sinks := rfl
  interpreted handler h := by
    obtain rfl := Option.some.inj h
    rfl
  outDirs := rfl
  rules pipeline name := rfl
  current pipeline name callback h := by cases h
  files := rfl

theorem setSinks_all (on : Bool) (sinks : Sink → Bool) : Session.setSinks on sinks = fun _ => on := by
  funext sink
  cases sink <;> simp [Session.setSinks]

theorem Represents.absent (h : Represents s a) : s.world.eventHandler_ = none ↔ a.present = false := by
  rw [← h.present,Option.isSome_eq_false_iff,Option.isNone_iff_eq_none]

theorem Represents.handler (h : Represents s a) (ha : a.present = true) :
    ∃ handler, s.world.eventHandler_ = some handler :=
  Option.isSome_iff_exists.mp (h.present.trans ha)

theorem represents_connect (h : Represents s a) (on : Bool) :
    Represents { s with sinks := Session.setSinks on s.sinks } { a with connected := on } :=
  { h with sinks := setSinks_all on s.sinks }

theorem represents_files (h : Represents s a) (writes : List (Answer × FilePath × FileContent)) :
    Represents { s with files := attempt s.files writes } { a with files := attempt a.files writes } :=
  { h with files := by rw [h.files] }

variable [DecidableEq Pipeline]

theorem Represents.snoc (h : Represents s a) (event : Event Interpreter Pipeline) :
    ∃ before, History before (dispatch s.world event) := by
  obtain ⟨before,hbefore⟩ := h.history
  exact ⟨before ++ [event],history_dispatch hbefore event⟩

theorem represents_interpreter (h : Represents s a) {handler : FlexTypeclassEventHandler Interpreter}
    (hh : s.world.eventHandler_ = some handler) (clingInterpreter : Interpreter) :
    Represents { s with world := dispatch s.world (.RegisterClingInterpreter clingInterpreter) }
      { a with interpreted := true } where
  history := h.snoc (.RegisterClingInterpreter clingInterpreter)
  present := by rw [dispatch_interpreter hh,← h.present,hh]; rfl
  sinks := h.sinks
  interpreted other hother := by
    rw [dispatch_interpreter hh] at hother
    obtain rfl := Option.some.inj hother
    rfl
  outDirs := by rw [dispatch_interpreter hh]; exact h.outDirs
  rules := by rw [dispatch_interpreter hh]; exact h.rules
  current := by rw [dispatch_interpreter hh]; exact h.current
  files := h.files

theorem represents_endOfLife (h : Represents s a) {handler : FlexTypeclassEventHandler Interpreter}
    (hh : s.world.eventHandler_ = some handler) :
    Represents { s with world := dispatch s.world .endOfLife }
      { a with present := false, current := none } where
  history := h.snoc .endOfLife
  present := by rw [dispatch_endOfLife hh]; rfl
  sinks := h.sinks
  interpreted other hother := by
    rw [dispatch_endOfLife hh] at hother
    cases hother
  outDirs := by rw [dispatch_endOfLife hh,length_release]; exact h.outDirs
  rules := by rw [dispatch_endOfLife hh]; exact h.rules
  current pipeline name callback _ outDir_ := by
    obtain ⟨before,hbefore⟩ := h.history
    rw [dispatch_endOfLife hh,value_release hbefore hh]
    simp
  files := h.files

theorem represents_register (h : Represents s a) {handler : FlexTypeclassEventHandler Interpreter}
    (hh : s.world.eventHandler_ = some handler) (pipeline : Pipeline) (outDir_ : FilePath) :
    Represents { s with
        world := dispatch s.world (.RegisterAnnotationMethods pipeline)
        outDirs := s.outDirs ++ [outDir_] }
      { a with
        registered := Function.update a.registered pipeline true
        current := some (pipeline,outDir_) } where
  history := h.snoc (.RegisterAnnotationMethods pipeline)
  present := by
    rw [dispatch_methods hh,← h.present,hh]
    rfl
  sinks := h.sinks
  interpreted other hother := by
    rw [dispatch_methods hh] at hother
    obtain rfl := Option.some.inj hother
    exact h.interpreted handler hh
  outDirs := by
    rw [dispatch_methods hh,toolings_length,List.length_append,h.outDirs]
    rfl
  rules other name := by
    rw [dispatch_methods hh]
    rcases eq_or_ne other pipeline with rfl | hne
    · have hold := h.rules other name
      simp only [RegisterAnnotationMethods,Function.update_self,registerRules_eq,if_true]
      cases hmethod : methodNamed name with
      | some method => rfl
      | none => simpa [hmethod] using hold
    · rw [rules_other hne]
      simpa only [Function.update_of_ne hne] using h.rules other name
  current other name callback hcallback dir := by
    obtain ⟨before,hbefore⟩ := h.history
    rw [dispatch_methods hh] at hcallback ⊢
    have hvalue := value_replaced hbefore hh ⟨handler.clingInterpreter_⟩ callback.tooling
    simp only [RegisterAnnotationMethods] at hcallback ⊢
    rw [hvalue]
    rcases eq_or_ne other pipeline with rfl | hne
    · rw [Function.update_self,registerRules_eq] at hcallback
      cases hmethod : methodNamed name with
      | some method =>
        rw [hmethod] at hcallback
        obtain rfl := Option.some.inj hcallback
        simp [← h.outDirs]
      | none =>
        have hold := h.rules other name
        rw [hmethod] at hcallback
        simp [hmethod,hcallback] at hold
    · rw [Function.update_of_ne hne] at hcallback
      have hlt := hbefore.allocated other name callback hcallback
      simp [Ne.symm hne,Nat.ne_of_lt hlt]
  files := h.files

omit [DecidableEq Pipeline] in
theorem trigger_matches (h : Represents s a) (sink : Sink)
    {handle : FlexTypeclassEventHandler Interpreter → Session.M Interpreter Pipeline Report}
    {handle' : Protocol.M Pipeline Report}
    (hhandle : ∀ handler, s.world.eventHandler_ = some handler →
      Matches Represents (handle handler s) (handle' a)) :
    Matches Represents (Session.trigger sink handle s) (Protocol.onEvent handle' a) := by
  rw [Session.trigger,Protocol.onEvent,h.sinks]
  cases a.connected with
  | false => exact .ok h
  | true =>
    cases hpresent : a.present with
    | false =>
      rw [h.absent.mpr hpresent]
      exact .stop _
    | true =>
      obtain ⟨handler,hh⟩ := h.handler hpresent
      rw [hh]
      exact hhandle handler hh

omit [DecidableEq Pipeline] in
theorem onPlugin_matches (h : Represents s a)
    {f : Session Interpreter Pipeline → Session Interpreter Pipeline}
    {g : Protocol Pipeline → Protocol Pipeline}
    (hf : ∀ handler, s.world.eventHandler_ = some handler → Represents (f s) (g a)) :
    Matches Represents (Session.onPlugin f s) (Protocol.onPlugin g a) := by
  rw [Session.onPlugin,Protocol.onPlugin]
  cases hpresent : a.present with
  | false =>
    rw [h.absent.mpr hpresent]
    exact .stop _
  | true =>
    obtain ⟨handler,hh⟩ := h.handler hpresent
    rw [hh]
    exact .ok (hf handler hh)

theorem register_matches (h : Represents s a) (build : Build)
    {handler : FlexTypeclassEventHandler Interpreter} (hh : s.world.eventHandler_ = some handler)
    (pipeline : Pipeline) (system : FileSystem Directory) (settings_ : SettingsScript) :
    Matches Represents (Session.RegisterAnnotationMethods build handler pipeline system settings_ s)
      (Protocol.register build pipeline system settings_ a) := by
  have hinterpreted := h.interpreted handler hh
  rw [Session.RegisterAnnotationMethods,Protocol.register]
  cases hcling : handler.clingInterpreter_ with
  | none =>
    rw [hcling,Option.isSome_none] at hinterpreted
    rw [← hinterpreted]
    exact .stop _
  | some clingInterpreter =>
    rw [hcling,Option.isSome_some] at hinterpreted
    rw [← hinterpreted]
    cases haborts : aborts system settings_ build with
    | true => exact .stop _
    | false =>
      have hregistered := represents_register h hh pipeline (TypeclassTooling.create system settings_).outDir_
      simp only [← hinterpreted] at hregistered
      exact .ok hregistered

omit [DecidableEq Pipeline] in
theorem generate_matches (h : Represents s a) (build : Build) (invocation : Invocation naming)
    (answer : FilePath → Answer) (outDir_ : FilePath) :
    Matches Represents (Session.runRule build invocation answer outDir_ s)
      (Protocol.generate build invocation answer outDir_ a) := by
  rw [Session.runRule,Protocol.generate]
  cases invocation.generateIn build.dcheck with
  | error stop => cases stop <;> exact .stop _
  | ok output => exact .ok (represents_files h _)

omit [DecidableEq Pipeline] in
theorem Represents.alive (h : Represents s a) {pipeline : Pipeline} {name : String} {callback : Callback}
    (hcallback : s.world.sourceTransformRules pipeline name = some callback)
    (hvalue : (s.world.toolings.value? callback.tooling).isSome) :
    ∃ outDir_, s.outDirs[callback.tooling]? = some outDir_ ∧ a.current = some (pipeline,outDir_) := by
  obtain ⟨t,ht⟩ := Option.isSome_iff_exists.mp hvalue
  have hlt : callback.tooling < s.outDirs.length := h.outDirs ▸ Ledger.value?_lt ht
  have hdir := List.getElem?_eq_getElem hlt
  exact ⟨_,hdir,(h.current pipeline name callback hcallback _).mpr ⟨hvalue,hdir⟩⟩

theorem transform_matches (h : Represents s a) (build : Build) (pipeline : Pipeline) (name : String)
    (options : SourceTransformOptions naming) (answer : FilePath → Answer) :
    Matches Represents (Session.transform build pipeline name options answer s)
      (Protocol.transform build pipeline name options answer a) := by
  have hrules := h.rules pipeline name
  rw [Session.transform,Protocol.transform]
  cases hcallback : s.world.sourceTransformRules pipeline name with
  | none =>
    rw [hcallback,Option.map_none] at hrules
    cases hregistered : a.registered pipeline <;> cases hmethod : methodNamed name <;>
      simp_all <;> exact .ok h
  | some callback =>
    rw [hcallback,Option.map_some] at hrules
    cases hregistered : a.registered pipeline with
    | false => simp [hregistered] at hrules
    | true =>
      rw [hregistered,if_pos rfl] at hrules
      rw [← hrules]
      cases hvalue : s.world.toolings.value? callback.tooling with
      | some t =>
        obtain ⟨outDir_,hdir,hcurrent⟩ := h.alive hcallback (by simp [hvalue])
        simp only [hvalue,hdir,hcurrent,if_true]
        exact generate_matches h build (callback.method.invocation options) answer outDir_
      | none =>
        have hstale (outDir_ : FilePath) : a.current ≠ some (pipeline,outDir_) := by
          intro hcurrent
          simpa [hvalue] using ((h.current pipeline name callback hcallback outDir_).mp hcurrent).1
        simp only [hvalue]
        rcases hcurrent : a.current with _ | ⟨other,outDir_⟩
        · exact .stop _
        · have hne : other ≠ pipeline := by
            rintro rfl
            exact hstale outDir_ hcurrent
          simp only [if_neg hne]
          exact .stop _

theorem step_matches (build : Build) (action : Action Interpreter Pipeline Directory naming)
    (h : Represents s a) :
    Matches Represents (Session.step build action s) (Protocol.step build action a) := by
  cases action with
  | connect_to_dispatcher =>
    rw [Session.step,Session.connect_to_dispatcher,Protocol.step]
    exact onPlugin_matches h fun _ _ => represents_connect h true
  | disconnect_dispatcher =>
    rw [Session.step,Session.disconnect_dispatcher,Protocol.step]
    exact onPlugin_matches h fun _ _ => represents_connect h false
  | Init argc => exact trigger_matches h _ fun _ _ => .ok h
  | StringCommand split_parts => exact trigger_matches h _ fun _ _ => .ok h
  | RegisterClingInterpreter clingInterpreter =>
    rw [Session.step,Protocol.step]
    exact trigger_matches h _ fun _ hh => .ok (represents_interpreter h hh clingInterpreter)
  | RegisterAnnotationMethods pipeline system settings_ =>
    exact trigger_matches h _ fun _ hh => register_matches h build hh pipeline system settings_
  | transform pipeline name options answer => exact transform_matches h build pipeline name options answer
  | endOfLife =>
    rw [Session.step,Session.endOfLife,Protocol.step]
    exact onPlugin_matches h fun _ hh => represents_endOfLife h hh

theorem session_refines (build : Build) (files : Disk)
    (actions : List (Action Interpreter Pipeline Directory naming)) :
    RunMatches Represents (run (Session.step build) actions (.init files))
      (run (Protocol.step build) actions (.init files)) :=
  run_matches actions (fun action _ _ _ h => step_matches build action h) (represents_init files)

end Refinement

end FlexTypeclass.Plugin
