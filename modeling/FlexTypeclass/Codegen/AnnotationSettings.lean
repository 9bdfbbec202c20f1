import FlexTypeclass.Codegen.Generation
import FlexTypeclass.Runtime.StaticValidate

namespace FlexTypeclass.Codegen
open Lib Runtime.InplaceTypeclass

structure AnnotationSettings where
  targetGenerator : String
  BufferSize : String
  BufferAlignment : String
  deriving DecidableEq, Repr

def AnnotationSettings.empty : AnnotationSettings := ⟨"","",""⟩

def settingsStep (dcheck : Bool) (settings : AnnotationSettings) (tit : Arg) :
    Except Stop AnnotationSettings :=
  if tit.name = "generator" then do
    check (!dcheck || prepareTplArg tit.value = "InPlace" || prepareTplArg tit.value = "InHeap")
    .ok { settings with targetGenerator := prepareTplArg tit.value }
  else if tit.name = "BufferSize" then do
    check (!dcheck || !(prepareTplArg tit.value).isEmpty)
    .ok { settings with BufferSize := prepareTplArg tit.value }
  else if tit.name = "BufferAlignment" then do
    check (!dcheck || !(prepareTplArg tit.value).isEmpty)
    .ok { settings with BufferAlignment := prepareTplArg tit.value }
  else .ok settings

def settingsLoop (dcheck : Bool) : AnnotationSettings → List Arg → Except Stop AnnotationSettings
  | settings, [] => .ok settings
  | settings, tit :: args => do
    let settings ← settingsStep dcheck settings tit
    settingsLoop dcheck settings args

def Arg.accepted (tit : Arg) : Bool :=
  if tit.name = "generator" then prepareTplArg tit.value = "InPlace" || prepareTplArg tit.value = "InHeap"
  else if tit.name = "BufferSize" then !(prepareTplArg tit.value).isEmpty
  else if tit.name = "BufferAlignment" then !(prepareTplArg tit.value).isEmpty
  else true

def lastValue (start : String) (args : List Arg) (name : String) : String :=
  args.foldl (fun value tit => if tit.name = name then prepareTplArg tit.value else value) start

section Loop

variable {dcheck : Bool} {settings : AnnotationSettings} {tit : Arg} {args : List Arg}

def AnnotationSettings.after (settings : AnnotationSettings) (args : List Arg) : AnnotationSettings where
  targetGenerator := lastValue settings.targetGenerator args "generator"
  BufferSize := lastValue settings.BufferSize args "BufferSize"
  BufferAlignment := lastValue settings.BufferAlignment args "BufferAlignment"

theorem check_ok {α : Type} (c : Bool) (a : α) :
    (check c >>= fun _ => Except.ok a) = if c then .ok a else .error .check := by
  cases c <;> rfl

theorem settingsStep_eq : settingsStep dcheck settings tit =
    if !dcheck || tit.accepted then .ok (settings.after [tit]) else .error .check := by
  obtain ⟨name,value⟩ := tit
  simp only [settingsStep,check_ok,Arg.accepted]
  by_cases hgenerator : name = "generator"
  · simp [hgenerator,AnnotationSettings.after,lastValue,or_assoc]
  by_cases hsize : name = "BufferSize"
  · simp [hsize,AnnotationSettings.after,lastValue]
  by_cases halign : name = "BufferAlignment"
  · simp [halign,AnnotationSettings.after,lastValue]
  · simp [hgenerator,hsize,halign,AnnotationSettings.after,lastValue]

theorem settingsLoop_eq : settingsLoop dcheck settings args =
    if !dcheck || args.all Arg.accepted then .ok (settings.after args) else .error .check := by
  induction args generalizing settings with
  | nil => simp [settingsLoop,AnnotationSettings.after,lastValue]
  | cons tit args ih =>
    rw [settingsLoop,settingsStep_eq]
    cases hstep : !dcheck || tit.accepted with
    | false =>
      obtain ⟨hdcheck,haccepted⟩ := Bool.or_eq_false_iff.mp hstep
      simp [hdcheck,haccepted]
    | true =>
      rw [if_pos rfl,ok_bind,ih,List.all_cons]
      have hall : (!dcheck || (tit.accepted && args.all Arg.accepted)) =
          (!dcheck || args.all Arg.accepted) := by
        cases dcheck <;> simp_all
      rw [hall]
      rfl

end Loop

section Checked

variable {naming : Naming} {dcheck : Bool} {invocation : Invocation naming} {output : Output}

def Invocation.settings (dcheck : Bool) : Invocation naming → Except Stop AnnotationSettings
  | .typeclass args _ => settingsLoop dcheck .empty args
  | .typeclass_instance _ _ => .ok .empty

-- What `generate` does in a build that keeps or drops the debug checks.
def Invocation.generateIn (dcheck : Bool) (invocation : Invocation naming) : Except Stop Output := do
  let output ← invocation.generate
  let _ ← invocation.settings dcheck
  .ok output

-- A failed check ends the process, and the invocations after it.
def untilStop (dcheck : Bool) (invocations : List (Invocation naming)) : List (Invocation naming) :=
  invocations.takeWhile fun invocation => (invocation.generateIn dcheck).isOk

theorem settings_error {stop : Stop} (h : invocation.settings dcheck = .error stop) : stop = .check := by
  cases invocation with
  | typeclass args record =>
    rw [Invocation.settings,settingsLoop_eq] at h
    split at h
    · cases h
    · cases h
      rfl
  | typeclass_instance record tp => cases h

theorem generateIn_ok (h : invocation.generateIn dcheck = .ok output) : invocation.generate = .ok output := by
  rw [Invocation.generateIn] at h
  cases hgenerate : invocation.generate with
  | error stop => simp [hgenerate] at h
  | ok generated =>
    rw [hgenerate,ok_bind] at h
    cases hsettings : invocation.settings dcheck with
    | error stop => simp [hsettings] at h
    | ok settings =>
      rw [hsettings,ok_bind] at h
      exact h

theorem generateIn_null_iff (dcheck : Bool) : invocation.generateIn dcheck = .error .nullDereference ↔
    invocation.generate = .error .nullDereference := by
  rw [Invocation.generateIn]
  cases hgenerate : invocation.generate with
  | error stop => simp
  | ok generated =>
    cases hsettings : invocation.settings dcheck with
    | error stop => simp [settings_error hsettings]
    | ok settings => simp

theorem performed_untilStop (dcheck : Bool) (invocations : List (Invocation naming)) :
    performed (untilStop dcheck invocations) = untilStop dcheck invocations := by
  rw [performed,List.takeWhile_eq_self_iff]
  intro invocation hmem
  have hok := List.mem_takeWhile_imp hmem
  cases hgenerate : invocation.generateIn dcheck with
  | error stop => simp [hgenerate,Except.isOk,Except.toBool] at hok
  | ok output => simp [generateIn_ok hgenerate,Except.isOk,Except.toBool]

end Checked

section Buffer

-- What the compiler makes of the text of a setting.
structure Evaluation where
  size : String → Nat
  alignment : String → ByteAlignment

variable (eval : Evaluation)

def AnnotationSettings.inline (settings : AnnotationSettings) : InlineTypeclassSettings where
  BufferSize := if settings.BufferSize.isEmpty then none else some (eval.size settings.BufferSize)
  BufferAlignment :=
    if settings.BufferAlignment.isEmpty then none else some (eval.alignment settings.BufferAlignment)
  SizePolicyType := .AtLeast
  AlignPolicyType := .AtLeast

def requestedSize (args : List Arg) : Nat :=
  if (lastValue "" args "BufferSize").isEmpty then 64 else eval.size (lastValue "" args "BufferSize")

def requestedAlignment (args : List Arg) : Nat :=
  if (lastValue "" args "BufferAlignment").isEmpty then 8
  else (eval.alignment (lastValue "" args "BufferAlignment")).val

structure Wraps (st : InlineTypeclassSettings) (T : Layout) : Prop where
  compiles : (st.convertingConstructor T).isSome
  contained : st.Contained (st.convertingConstructor T)

theorem inline_size (settings : AnnotationSettings) : (settings.inline eval).bufferSize =
    if settings.BufferSize.isEmpty then 64 else eval.size settings.BufferSize := by
  rw [InlineTypeclassSettings.bufferSize,AnnotationSettings.inline]
  cases settings.BufferSize.isEmpty <;> rfl

theorem inline_alignment (settings : AnnotationSettings) : (settings.inline eval).bufferAlignment.val =
    if settings.BufferAlignment.isEmpty then 8 else (eval.alignment settings.BufferAlignment).val := by
  rw [InlineTypeclassSettings.bufferAlignment,AnnotationSettings.inline]
  cases settings.BufferAlignment.isEmpty <;> rfl

theorem wraps_iff {st : InlineTypeclassSettings} {T : Layout} (hsize : st.SizePolicyType = .AtLeast)
    (halign : st.AlignPolicyType = .AtLeast) : Wraps st T ↔
      T.size + max 8 T.align.val ≤ roundDown st.bufferSize (max 8 T.align.val) ∧
        8 ≤ st.bufferAlignment.val ∧ T.align.val ≤ st.bufferAlignment.val := by
  have haccepts : st.static_validate T.size T.align.val = true ↔
      T.align.val ≤ st.bufferAlignment.val ∧ T.size ≤ st.bufferSize := by
    simp [InlineTypeclassSettings.static_validate,hsize,halign]
  have hcompiles : (st.convertingConstructor T).isSome ↔ st.static_validate T.size T.align.val = true := by
    rw [InlineTypeclassSettings.convertingConstructor]
    split <;> simp_all
  rw [← implLayout_fits]
  constructor
  · rintro ⟨hsome,hcontained⟩
    exact (contained_iff.mp hcontained).resolve_left (by simp [hcompiles.mp hsome])
  · intro hfits
    refine ⟨hcompiles.mpr (haccepts.mpr ?_),contained_iff.mpr (.inr hfits)⟩
    obtain ⟨hroom,-,hle⟩ := implLayout_fits.mp hfits
    have hround := roundDown_le st.bufferSize (max 8 T.align.val)
    omega

-- From the text of the annotation to the memory of the wrapper it asks for.
theorem annotation_wraps_iff (dcheck : Bool) (args : List Arg) (T : Layout) :
    (∃ settings, settingsLoop dcheck .empty args = .ok settings ∧ Wraps (settings.inline eval) T) ↔
      (dcheck = true → ∀ tit ∈ args, tit.accepted = true) ∧
        T.size + max 8 T.align.val ≤ roundDown (requestedSize eval args) (max 8 T.align.val) ∧
        8 ≤ requestedAlignment eval args ∧ T.align.val ≤ requestedAlignment eval args := by
  have hchecks : (!dcheck || args.all Arg.accepted) = true ↔
      (dcheck = true → ∀ tit ∈ args, tit.accepted = true) := by
    cases dcheck <;> simp [List.all_eq_true]
  have hwraps : Wraps ((AnnotationSettings.empty.after args).inline eval) T ↔
      T.size + max 8 T.align.val ≤ roundDown (requestedSize eval args) (max 8 T.align.val) ∧
        8 ≤ requestedAlignment eval args ∧ T.align.val ≤ requestedAlignment eval args := by
    rw [wraps_iff rfl rfl,inline_size,inline_alignment]
    rfl
  rw [← hchecks,← hwraps,settingsLoop_eq]
  cases !dcheck || args.all Arg.accepted <;> simp

end Buffer

end FlexTypeclass.Codegen
