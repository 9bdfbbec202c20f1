import FlexTypeclass.Lib.Ledger
import Mathlib.Data.List.Induction
import Mathlib.Logic.Function.Basic

namespace FlexTypeclass.Plugin
open Lib

inductive ToolingMethod where
  | typeclass
  | typeclass_instance
  deriving DecidableEq, Repr

-- `base::Unretained` keeps the address of the tooling and does not own it.
structure Callback where
  method : ToolingMethod
  tooling : ObjId
  deriving DecidableEq, Repr

-- An indeterminate pointer is `none`.
structure Tooling (Interpreter : Type) where
  clingInterpreter_ : Option Interpreter

structure FlexTypeclassEventHandler (Interpreter : Type) where
  tooling_ : Option ObjId
  clingInterpreter_ : Option Interpreter

inductive Event (Interpreter Pipeline : Type) where
  | RegisterClingInterpreter (clingInterpreter : Interpreter)
  | RegisterAnnotationMethods (sourceTransformPipeline : Pipeline)
  | endOfLife

-- `eventHandler_` is `none` once the plugin is gone.
structure World (Interpreter Pipeline : Type) where
  eventHandler_ : Option (FlexTypeclassEventHandler Interpreter)
  toolings : Ledger (Tooling Interpreter)
  sourceTransformRules : Pipeline → String → Option Callback

def ruleNames : List String := ["typeclass","typeclass_instance"]

theorem typeclass_rule : "typeclass" ∈ ruleNames := List.mem_cons_self

section Model

variable {Interpreter Pipeline : Type} [DecidableEq Pipeline]

def World.init : World Interpreter Pipeline := ⟨some ⟨none,none⟩,[],fun _ _ => none⟩

def release (toolings : Ledger (Tooling Interpreter)) : Option ObjId → Ledger (Tooling Interpreter)
  | some tooling_ => toolings.destroy tooling_
  | none => toolings

def registerRules (tooling_ : ObjId) (rules : String → Option Callback) : String → Option Callback :=
  Function.update (Function.update rules "typeclass" (some ⟨.typeclass,tooling_⟩))
    "typeclass_instance" (some ⟨.typeclass_instance,tooling_⟩)

-- `std::make_unique` builds the new tooling before the old one is deleted.
def RegisterAnnotationMethods (w : World Interpreter Pipeline)
    (handler : FlexTypeclassEventHandler Interpreter) (pipeline : Pipeline) : World Interpreter Pipeline :=
  let tooling_ := w.toolings.length
  { eventHandler_ := some { handler with tooling_ := some tooling_ }
    toolings := release (w.toolings.construct ⟨handler.clingInterpreter_⟩) handler.tooling_
    sourceTransformRules := Function.update w.sourceTransformRules pipeline
      (registerRules tooling_ (w.sourceTransformRules pipeline)) }

def dispatch (w : World Interpreter Pipeline) (event : Event Interpreter Pipeline) :
    World Interpreter Pipeline :=
  match w.eventHandler_ with
  | none => w
  | some handler =>
    match event with
    | .RegisterClingInterpreter clingInterpreter =>
      { w with eventHandler_ := some { handler with clingInterpreter_ := some clingInterpreter } }
    | .RegisterAnnotationMethods pipeline => RegisterAnnotationMethods w handler pipeline
    | .endOfLife => { w with eventHandler_ := none, toolings := release w.toolings handler.tooling_ }

def worldAfter (events : List (Event Interpreter Pipeline)) : World Interpreter Pipeline :=
  events.foldl dispatch .init

def NoDangling (events : List (Event Interpreter Pipeline)) : Prop :=
  ∀ pipeline, ∀ name ∈ ruleNames, ∀ callback,
    (worldAfter events).sourceTransformRules pipeline name = some callback →
      ∃ clingInterpreter, .RegisterClingInterpreter clingInterpreter ∈ events ∧
        (worldAfter events).toolings.value? callback.tooling = some ⟨some clingInterpreter⟩

def SafeEvent (before : List (Event Interpreter Pipeline)) : Event Interpreter Pipeline → Prop
  | .RegisterClingInterpreter _ => True
  | .RegisterAnnotationMethods pipeline => .endOfLife ∈ before ∨
      ((∃ clingInterpreter, .RegisterClingInterpreter clingInterpreter ∈ before) ∧
        ∀ other, .RegisterAnnotationMethods other ∈ before → other = pipeline)
  | .endOfLife => .endOfLife ∈ before ∨ ∀ pipeline, .RegisterAnnotationMethods pipeline ∉ before

end Model

section History

variable {Interpreter Pipeline : Type}

-- What the world holds after the events so far.
structure History (before : List (Event Interpreter Pipeline)) (w : World Interpreter Pipeline) : Prop where
  handler : w.eventHandler_ = none ↔ .endOfLife ∈ before
  delivered : ∀ handler clingInterpreter, w.eventHandler_ = some handler →
    handler.clingInterpreter_ = some clingInterpreter → .RegisterClingInterpreter clingInterpreter ∈ before
  interpreter : ∀ handler clingInterpreter, w.eventHandler_ = some handler →
    .RegisterClingInterpreter clingInterpreter ∈ before → handler.clingInterpreter_.isSome
  registered : .endOfLife ∉ before → ∀ pipeline, ∀ name ∈ ruleNames,
    (w.sourceTransformRules pipeline name).isSome ↔ .RegisterAnnotationMethods pipeline ∈ before
  allocated : ∀ pipeline name callback, w.sourceTransformRules pipeline name = some callback →
    callback.tooling < w.toolings.length
  owner : ∀ handler tooling_, w.eventHandler_ = some handler → handler.tooling_ = some tooling_ →
    tooling_ < w.toolings.length
  owned : ∀ tooling_ t, w.toolings.value? tooling_ = some t →
    ∃ handler, w.eventHandler_ = some handler ∧ handler.tooling_ = some tooling_

variable {before : List (Event Interpreter Pipeline)} {w : World Interpreter Pipeline}
  {handler : FlexTypeclassEventHandler Interpreter}

theorem history_init : History ([] : List (Event Interpreter Pipeline)) .init where
  handler := by simp [World.init]
  delivered h p hh hp := by
    obtain rfl := Option.some.inj hh
    cases hp
  interpreter h p hh hp := by cases hp
  registered _ pipeline name _ := by simp [World.init]
  allocated pipeline name callback h := by cases h
  owner h t hh ht := by
    obtain rfl := Option.some.inj hh
    cases ht
  owned t v h := by simp [World.init,Ledger.value?] at h

theorem history_gone (hw : History before w) (h : w.eventHandler_ = none)
    (event : Event Interpreter Pipeline) : History (before ++ [event]) w where
  handler := by simp [h,hw.handler.mp h]
  delivered other p hh _ := by
    rw [h] at hh
    cases hh
  interpreter other p hh _ := by
    rw [h] at hh
    cases hh
  registered hend := absurd (List.mem_append_left _ (hw.handler.mp h)) hend
  allocated := hw.allocated
  owner := hw.owner
  owned := hw.owned

theorem alive_before (hw : History before w) (h : w.eventHandler_ = some handler) : .endOfLife ∉ before := by
  intro hend
  rw [hw.handler.mpr hend] at h
  cases h

theorem callback_of_registered (hw : History before w) (hend : .endOfLife ∉ before) {pipeline : Pipeline}
    {name : String} (hname : name ∈ ruleNames) (h : .RegisterAnnotationMethods pipeline ∈ before) :
    ∃ callback, w.sourceTransformRules pipeline name = some callback :=
  Option.isSome_iff_exists.mp ((hw.registered hend pipeline name hname).mpr h)

theorem registered_of_callback (hw : History before w) (hend : .endOfLife ∉ before) {pipeline : Pipeline}
    {name : String} (hname : name ∈ ruleNames) {callback : Callback}
    (h : w.sourceTransformRules pipeline name = some callback) :
    .RegisterAnnotationMethods pipeline ∈ before :=
  (hw.registered hend pipeline name hname).mp (Option.isSome_iff_exists.mpr ⟨callback,h⟩)

theorem history_interpreter (hw : History before w) (h : w.eventHandler_ = some handler)
    (clingInterpreter : Interpreter) : History (before ++ [.RegisterClingInterpreter clingInterpreter])
      { w with eventHandler_ := some { handler with clingInterpreter_ := some clingInterpreter } } where
  handler := by simpa using alive_before hw h
  delivered other p hh hp := by
    obtain rfl := Option.some.inj hh
    obtain rfl := Option.some.inj hp
    simp
  interpreter other p hh _ := by
    obtain rfl := Option.some.inj hh
    rfl
  registered _ pipeline name hname := by
    simpa using hw.registered (alive_before hw h) pipeline name hname
  allocated := hw.allocated
  owner other t hh ht := by
    obtain rfl := Option.some.inj hh
    exact hw.owner handler t h ht
  owned t v hv := by
    obtain ⟨other,hother,ht⟩ := hw.owned t v hv
    obtain rfl := Option.some.inj (h.symm.trans hother)
    exact ⟨_,rfl,ht⟩

theorem value_release (hw : History before w) (h : w.eventHandler_ = some handler) (id : ObjId) :
    (release w.toolings handler.tooling_).value? id = none := by
  rcases hlive : w.toolings.value? id with _ | v
  · cases htooling : handler.tooling_ with
    | none => exact hlive
    | some tooling_ => simp [release,Ledger.value?_destroy,hlive]
  · obtain ⟨other,hother,hid⟩ := hw.owned id v hlive
    obtain rfl := Option.some.inj (h.symm.trans hother)
    simp [release,hid,Ledger.value?_destroy]

theorem value_replaced (hw : History before w) (h : w.eventHandler_ = some handler)
    (t : Tooling Interpreter) (id : ObjId) :
    (release (w.toolings.construct t) handler.tooling_).value? id =
      if id = w.toolings.length then some t else none := by
  have hold := value_release hw h id
  cases htooling : handler.tooling_ with
  | none =>
    rw [htooling,release] at hold
    rw [release,Ledger.value?_construct,hold]
  | some tooling_ =>
    rw [htooling,release] at hold
    have hlt := hw.owner handler tooling_ h htooling
    rw [release,Ledger.construct_destroy hlt,Ledger.value?_construct,hold]
    simp [Ledger.length_destroy]

theorem length_release (toolings : Ledger (Tooling Interpreter)) (tooling_ : Option ObjId) :
    (release toolings tooling_).length = toolings.length := by
  cases tooling_ with
  | none => rfl
  | some t => exact Ledger.length_destroy toolings t

theorem history_endOfLife (hw : History before w) (h : w.eventHandler_ = some handler) :
    History (before ++ [.endOfLife])
      { w with eventHandler_ := none, toolings := release w.toolings handler.tooling_ } where
  handler := by simp
  delivered other p hh _ := by cases hh
  interpreter other p hh _ := by cases hh
  registered hend := by simp at hend
  allocated pipeline name callback hcallback := by
    rw [length_release]
    exact hw.allocated pipeline name callback hcallback
  owner other t hh _ := by cases hh
  owned t v hv := by
    rw [value_release hw h] at hv
    cases hv

end History

section Run

variable {Interpreter Pipeline : Type} [DecidableEq Pipeline]

theorem worldAfter_snoc (before : List (Event Interpreter Pipeline)) (event : Event Interpreter Pipeline) :
    worldAfter (before ++ [event]) = dispatch (worldAfter before) event := by
  simp [worldAfter]

theorem registerRules_name (tooling_ : ObjId) (rules : String → Option Callback) {name : String}
    (hname : name ∈ ruleNames) : ∃ method, registerRules tooling_ rules name = some ⟨method,tooling_⟩ := by
  rw [ruleNames,List.mem_cons,List.mem_singleton] at hname
  rcases hname with rfl | rfl
  · exact ⟨.typeclass,by simp [registerRules]⟩
  · exact ⟨.typeclass_instance,by simp [registerRules]⟩

theorem registerRules_other (tooling_ : ObjId) (rules : String → Option Callback) {name : String}
    (hname : name ∉ ruleNames) : registerRules tooling_ rules name = rules name := by
  rw [ruleNames,List.mem_cons,List.mem_singleton,not_or] at hname
  rw [registerRules,Function.update_of_ne hname.2,Function.update_of_ne hname.1]

variable {before : List (Event Interpreter Pipeline)} {w : World Interpreter Pipeline}
  {handler : FlexTypeclassEventHandler Interpreter}

theorem dispatch_gone (h : w.eventHandler_ = none) (event : Event Interpreter Pipeline) :
    dispatch w event = w := by
  rw [dispatch,h]

theorem dispatch_interpreter (h : w.eventHandler_ = some handler) (clingInterpreter : Interpreter) :
    dispatch w (.RegisterClingInterpreter clingInterpreter) =
      { w with eventHandler_ := some { handler with clingInterpreter_ := some clingInterpreter } } := by
  rw [dispatch,h]

theorem dispatch_methods (h : w.eventHandler_ = some handler) (pipeline : Pipeline) :
    dispatch w (.RegisterAnnotationMethods pipeline) = RegisterAnnotationMethods w handler pipeline := by
  rw [dispatch,h]

theorem dispatch_endOfLife (h : w.eventHandler_ = some handler) :
    dispatch w .endOfLife =
      { w with eventHandler_ := none, toolings := release w.toolings handler.tooling_ } := by
  rw [dispatch,h]

theorem rules_registered (w : World Interpreter Pipeline)
    (handler : FlexTypeclassEventHandler Interpreter) (pipeline : Pipeline) {name : String} (hname : name ∈ ruleNames) :
    ∃ method, (RegisterAnnotationMethods w handler pipeline).sourceTransformRules pipeline name =
      some ⟨method,w.toolings.length⟩ := by
  obtain ⟨method,hmethod⟩ := registerRules_name w.toolings.length (w.sourceTransformRules pipeline) hname
  exact ⟨method,by simpa [RegisterAnnotationMethods] using hmethod⟩

theorem rules_other {pipeline other : Pipeline} (hne : other ≠ pipeline) :
    (RegisterAnnotationMethods w handler pipeline).sourceTransformRules other =
      w.sourceTransformRules other :=
  Function.update_of_ne hne _ _

theorem rules_other_name (pipeline : Pipeline) {name : String} (hname : name ∉ ruleNames) :
    (RegisterAnnotationMethods w handler pipeline).sourceTransformRules pipeline name =
      w.sourceTransformRules pipeline name := by
  simpa [RegisterAnnotationMethods] using
    registerRules_other w.toolings.length (w.sourceTransformRules pipeline) hname

theorem toolings_length (pipeline : Pipeline) :
    (RegisterAnnotationMethods w handler pipeline).toolings.length = w.toolings.length + 1 := by
  simp [RegisterAnnotationMethods,length_release]

theorem history_methods (hw : History before w) (h : w.eventHandler_ = some handler)
    (pipeline : Pipeline) : History (before ++ [.RegisterAnnotationMethods pipeline])
      (RegisterAnnotationMethods w handler pipeline) where
  handler := by simpa [RegisterAnnotationMethods] using alive_before hw h
  delivered other p hh hp := by
    obtain rfl := Option.some.inj hh
    exact List.mem_append_left _ (hw.delivered handler p h hp)
  interpreter other p hh hp := by
    obtain rfl := Option.some.inj hh
    exact hw.interpreter handler p h (by simpa using hp)
  registered _ other name hname := by
    rcases eq_or_ne other pipeline with rfl | hne
    · obtain ⟨method,hmethod⟩ := rules_registered w handler other hname
      simp [hmethod]
    · have hold := hw.registered (alive_before hw h) other name hname
      rw [rules_other hne]
      simpa [hne] using hold
  allocated other name callback hcallback := by
    rw [toolings_length]
    rcases eq_or_ne other pipeline with rfl | hne
    · by_cases hname : name ∈ ruleNames
      · obtain ⟨method,hmethod⟩ := rules_registered w handler other hname
        obtain rfl := Option.some.inj (hmethod.symm.trans hcallback)
        exact Nat.lt_succ_self _
      · rw [rules_other_name other hname] at hcallback
        exact Nat.lt_succ_of_lt (hw.allocated other name callback hcallback)
    · rw [rules_other hne] at hcallback
      exact Nat.lt_succ_of_lt (hw.allocated other name callback hcallback)
  owner other t hh ht := by
    obtain rfl := Option.some.inj hh
    obtain rfl := Option.some.inj ht
    simp [RegisterAnnotationMethods,length_release]
  owned t v hv := by
    simp only [RegisterAnnotationMethods] at hv
    rw [value_replaced hw h] at hv
    split at hv
    · rename_i heq
      exact ⟨_,rfl,by rw [heq]⟩
    · cases hv

theorem history_dispatch (hw : History before w) (event : Event Interpreter Pipeline) :
    History (before ++ [event]) (dispatch w event) := by
  cases h : w.eventHandler_ with
  | none =>
    rw [dispatch_gone h]
    exact history_gone hw h event
  | some handler =>
    cases event with
    | RegisterClingInterpreter clingInterpreter =>
      rw [dispatch_interpreter h]
      exact history_interpreter hw h clingInterpreter
    | RegisterAnnotationMethods pipeline =>
      rw [dispatch_methods h]
      exact history_methods hw h pipeline
    | endOfLife =>
      rw [dispatch_endOfLife h]
      exact history_endOfLife hw h

theorem history_worldAfter (events : List (Event Interpreter Pipeline)) :
    History events (worldAfter events) := by
  induction events using List.reverseRecOn with
  | nil => exact history_init
  | append_singleton before event ih =>
    rw [worldAfter_snoc]
    exact history_dispatch ih event

theorem noDangling_nil : NoDangling ([] : List (Event Interpreter Pipeline)) := by
  intro pipeline name _ callback hcallback
  cases hcallback

theorem noDangling_gone (h : (worldAfter before).eventHandler_ = none) (hsafe : NoDangling before)
    (event : Event Interpreter Pipeline) : NoDangling (before ++ [event]) := by
  intro pipeline name hname callback
  rw [worldAfter_snoc,dispatch_gone h]
  intro hcallback
  obtain ⟨p,hp,hvalue⟩ := hsafe pipeline name hname callback hcallback
  exact ⟨p,List.mem_append_left _ hp,hvalue⟩

theorem noDangling_interpreter (h : (worldAfter before).eventHandler_ = some handler)
    (hsafe : NoDangling before) (clingInterpreter : Interpreter) :
    NoDangling (before ++ [.RegisterClingInterpreter clingInterpreter]) := by
  intro pipeline name hname callback
  rw [worldAfter_snoc,dispatch_interpreter h]
  intro hcallback
  obtain ⟨p,hp,hvalue⟩ := hsafe pipeline name hname callback hcallback
  exact ⟨p,List.mem_append_left _ hp,hvalue⟩

theorem value_methods (h : (worldAfter before).eventHandler_ = some handler) (pipeline : Pipeline)
    (id : ObjId) : (RegisterAnnotationMethods (worldAfter before) handler pipeline).toolings.value? id =
      if id = (worldAfter before).toolings.length then some ⟨handler.clingInterpreter_⟩ else none :=
  value_replaced (history_worldAfter before) h ⟨handler.clingInterpreter_⟩ id

-- The tooling of an older pipeline is deleted and its rules stay.
theorem methods_of_noDangling (h : (worldAfter before).eventHandler_ = some handler) {pipeline : Pipeline}
    (hsafe : NoDangling (before ++ [.RegisterAnnotationMethods pipeline])) :
    (∃ p, .RegisterClingInterpreter p ∈ before) ∧
      ∀ other, .RegisterAnnotationMethods other ∈ before → other = pipeline := by
  have hw := history_worldAfter before
  rw [NoDangling,worldAfter_snoc,dispatch_methods h] at hsafe
  constructor
  · obtain ⟨method,hmethod⟩ := rules_registered (worldAfter before) handler pipeline typeclass_rule
    obtain ⟨p,hp,-⟩ := hsafe pipeline "typeclass" typeclass_rule _ hmethod
    exact ⟨p,by simpa using hp⟩
  · intro other hother
    by_contra hne
    obtain ⟨callback,hcallback⟩ :=
      callback_of_registered hw (alive_before hw h) typeclass_rule hother
    have hkept := hcallback
    rw [← rules_other hne] at hkept
    obtain ⟨q,-,hlive⟩ := hsafe other "typeclass" typeclass_rule callback hkept
    have hold := hw.allocated other "typeclass" callback hcallback
    rw [value_methods h,if_neg (Nat.ne_of_lt hold)] at hlive
    cases hlive

theorem noDangling_of_methods (h : (worldAfter before).eventHandler_ = some handler) {pipeline : Pipeline}
    {p : Interpreter} (hp : .RegisterClingInterpreter p ∈ before)
    (hone : ∀ other, .RegisterAnnotationMethods other ∈ before → other = pipeline) :
    NoDangling (before ++ [.RegisterAnnotationMethods pipeline]) := by
  have hw := history_worldAfter before
  rw [NoDangling,worldAfter_snoc,dispatch_methods h]
  intro other name hname callback hcallback
  have hother : other = pipeline := by
    by_contra hne
    rw [rules_other hne] at hcallback
    exact hne (hone other (registered_of_callback hw (alive_before hw h) hname hcallback))
  subst hother
  obtain ⟨method,hmethod⟩ := rules_registered (worldAfter before) handler other hname
  obtain rfl := Option.some.inj (hmethod.symm.trans hcallback)
  obtain ⟨q,hq⟩ := Option.isSome_iff_exists.mp (hw.interpreter handler p h hp)
  refine ⟨q,List.mem_append_left _ (hw.delivered handler q h hq),?_⟩
  rw [value_methods h,if_pos rfl,hq]

theorem noDangling_methods (h : (worldAfter before).eventHandler_ = some handler) (pipeline : Pipeline) :
    NoDangling (before ++ [.RegisterAnnotationMethods pipeline]) ↔
      (∃ p, .RegisterClingInterpreter p ∈ before) ∧
        ∀ other, .RegisterAnnotationMethods other ∈ before → other = pipeline :=
  ⟨methods_of_noDangling h,fun ⟨⟨_,hp⟩,hone⟩ => noDangling_of_methods h hp hone⟩

theorem noDangling_endOfLife (h : (worldAfter before).eventHandler_ = some handler) :
    NoDangling (before ++ [.endOfLife]) ↔ ∀ pipeline, .RegisterAnnotationMethods pipeline ∉ before := by
  have hw := history_worldAfter before
  have hend := alive_before hw h
  rw [NoDangling,worldAfter_snoc,dispatch_endOfLife h]
  constructor
  · intro hsafe pipeline hpipeline
    obtain ⟨callback,hcallback⟩ := callback_of_registered hw hend typeclass_rule hpipeline
    obtain ⟨p,-,hlive⟩ := hsafe pipeline "typeclass" typeclass_rule callback hcallback
    rw [value_release hw h] at hlive
    cases hlive
  · intro hnone pipeline name hname callback hcallback
    exact absurd (registered_of_callback hw hend hname hcallback) (hnone pipeline)

theorem noDangling_snoc_iff (hsafe : NoDangling before) (event : Event Interpreter Pipeline) :
    NoDangling (before ++ [event]) ↔ SafeEvent before event := by
  have hw := history_worldAfter before
  cases h : (worldAfter before).eventHandler_ with
  | none =>
    have hend := hw.handler.mp h
    have hevent : SafeEvent before event := by
      cases event with
      | RegisterClingInterpreter p => trivial
      | RegisterAnnotationMethods pipeline => exact .inl hend
      | endOfLife => exact .inl hend
    exact ⟨fun _ => hevent,fun _ => noDangling_gone h hsafe event⟩
  | some handler =>
    have hend := alive_before hw h
    cases event with
    | RegisterClingInterpreter p => exact ⟨fun _ => trivial,fun _ => noDangling_interpreter h hsafe p⟩
    | RegisterAnnotationMethods pipeline => simpa [SafeEvent,hend] using noDangling_methods h pipeline
    | endOfLife => simpa [SafeEvent,hend] using noDangling_endOfLife h

theorem callbacks_alive_iff (events : List (Event Interpreter Pipeline)) :
    (∀ before, before <+: events → NoDangling before) ↔
      ∀ before event, before ++ [event] <+: events → SafeEvent before event := by
  constructor
  · intro halive before event hsnoc
    have hbefore : before <+: events := (List.prefix_append before [event]).trans hsnoc
    exact (noDangling_snoc_iff (halive before hbefore) event).mp (halive _ hsnoc)
  · intro hevents before hbefore
    induction before using List.reverseRecOn with
    | nil => exact noDangling_nil
    | append_singleton before event ih =>
      have hinit : before <+: events := (List.prefix_append before [event]).trans hbefore
      exact (noDangling_snoc_iff (ih hinit) event).mpr (hevents before event hbefore)

end Run

def twoPipelines : List (Event Nat Nat) :=
  [.RegisterClingInterpreter 0,.RegisterAnnotationMethods 0,.RegisterAnnotationMethods 1]

theorem second_pipeline_dangles :
    (worldAfter twoPipelines).sourceTransformRules 0 "typeclass" = some ⟨.typeclass,0⟩ ∧
    (worldAfter twoPipelines).toolings.value? 0 = none ∧
    ¬ ∀ before, before <+: twoPipelines → NoDangling before := by
  have hcallback : (worldAfter twoPipelines).sourceTransformRules 0 "typeclass" = some ⟨.typeclass,0⟩ := rfl
  have hdead : (worldAfter twoPipelines).toolings.value? 0 = none := rfl
  refine ⟨hcallback,hdead,fun h => ?_⟩
  obtain ⟨p,-,hlive⟩ := h twoPipelines (List.prefix_refl _) 0 "typeclass" typeclass_rule _ hcallback
  rw [hdead] at hlive
  cases hlive

end FlexTypeclass.Plugin
