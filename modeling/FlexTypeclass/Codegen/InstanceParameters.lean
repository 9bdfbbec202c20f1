import FlexTypeclass.Codegen.Tooling
import Mathlib.Data.List.Permutation

namespace FlexTypeclass.Codegen
open Spelling

-- What Clang says of the type of a default argument; the name it prints is never only a keyword.
structure QualType where
  printed : Text
  baseTypeIdentifier : Option String
  asCXXRecordDecl : Option RecordDecl
  named : extractTypeName printed ≠ [] ∧ extractTypeName (extractTypeName printed) ≠ []

inductive ParameterKind where
  | type (declaredWithTypename : Bool) (defaultArgument : Option QualType)
  | nonType (defaultArgument : Option Text)
  | template

structure TemplateParameter where
  name : String
  pack : Bool
  kind : ParameterKind

inductive Stop where
  | check
  | nullDereference
  deriving DecidableEq, Repr

def check (condition : Bool) : Except Stop Unit := if condition then .ok () else .error .check

structure ParameterType where
  parameterQualType : Text
  parameterBaseTypeIdentifier : Text
  defaultArgQualType : Option QualType

def ParameterType.empty : ParameterType := ⟨[],[],none⟩

def baseTypeIdentifierText (q : QualType) : Text :=
  match q.baseTypeIdentifier with
  | some identifier => extractTypeName [.word identifier]
  | none => []

-- `template_type` is null in the branch of the non-type parameter.
def parameterType : ParameterKind → Except Stop ParameterType
  | .type declaredWithTypename defaultArgument => do
    check declaredWithTypename
    match defaultArgument with
    | none => .error .check
    | some q =>
      check (!(extractTypeName q.printed).isEmpty)
      .ok ⟨extractTypeName q.printed,baseTypeIdentifierText q,some q⟩
  | .nonType defaultArgument => do
    check defaultArgument.isSome
    .error .nullDereference
  | .template => .ok .empty

structure InstanceTargets where
  targetName : Text
  typeclassQualType : Text
  typeclassBaseTypeIdentifier : Text
  typeclassArgQualType : Option QualType

def InstanceTargets.empty : InstanceTargets := ⟨[],[],[],none⟩

def storeTypeclassTarget (targets : InstanceTargets) (t : ParameterType) : Except Stop InstanceTargets := do
  check targets.typeclassQualType.isEmpty
  check (!t.parameterQualType.isEmpty)
  check (!t.parameterBaseTypeIdentifier.isEmpty)
  check (t.defaultArgQualType.bind QualType.asCXXRecordDecl).isSome
  .ok { targets with
    typeclassQualType := extractTypeName t.parameterQualType
    typeclassBaseTypeIdentifier := extractTypeName t.parameterBaseTypeIdentifier
    typeclassArgQualType := t.defaultArgQualType }

def storeImplTarget (targets : InstanceTargets) (t : ParameterType) : Except Stop InstanceTargets := do
  check targets.targetName.isEmpty
  check (!t.parameterQualType.isEmpty)
  .ok { targets with targetName := extractTypeName t.parameterQualType }

def parameterStep (targets : InstanceTargets) (parameter_decl : TemplateParameter) :
    Except Stop InstanceTargets := do
  check (!parameter_decl.pack)
  let t ← parameterType parameter_decl.kind
  check (!t.parameterQualType.isEmpty)
  if parameter_decl.name = "typeclass_target" then storeTypeclassTarget targets t
  else if parameter_decl.name = "impl_target" then storeImplTarget targets t
  else .error .check

def parameterLoop : InstanceTargets → List TemplateParameter → Except Stop InstanceTargets
  | targets, [] => .ok targets
  | targets, parameter_decl :: tp => do
    let targets ← parameterStep targets parameter_decl
    parameterLoop targets tp

def instanceTargets (tp : List TemplateParameter) : Except Stop InstanceTargets := do
  let targets ← parameterLoop .empty tp
  check (!targets.targetName.isEmpty)
  check (!targets.typeclassQualType.isEmpty)
  .ok targets

namespace TemplateParameter

def classDefault : ParameterKind → Bool
  | .type true (some q) => q.asCXXRecordDecl.isSome
  | _ => false

def identifiedDefault : ParameterKind → Bool
  | .type _ (some q) => q.baseTypeIdentifier.isSome
  | _ => false

def typeDefault : ParameterKind → Bool
  | .type true (some _) => true
  | _ => false

def nonTypeDefault : ParameterKind → Bool
  | .nonType (some _) => true
  | _ => false

def isTypeclassTarget (p : TemplateParameter) : Bool :=
  decide (p.name = "typeclass_target") && !p.pack && classDefault p.kind

def isImplTarget (p : TemplateParameter) : Bool :=
  decide (p.name = "impl_target") && !p.pack && (typeDefault p.kind || nonTypeDefault p.kind)

def readsNull (p : TemplateParameter) : Bool := !p.pack && nonTypeDefault p.kind

def accepted (p : TemplateParameter) : Bool :=
  (p.isTypeclassTarget && identifiedDefault p.kind) || (p.isImplTarget && typeDefault p.kind)

def stop (p : TemplateParameter) : Stop := if p.readsNull then .nullDereference else .check

theorem accepted_cases {p : TemplateParameter} (h : p.accepted = true) :
    ∃ q, p.pack = false ∧ p.kind = .type true (some q) ∧
      ((p.name = "typeclass_target" ∧ q.asCXXRecordDecl.isSome ∧ q.baseTypeIdentifier.isSome) ∨
        p.name = "impl_target") := by
  obtain ⟨name,pack,kind⟩ := p
  cases kind with
  | template => simp [accepted,isTypeclassTarget,isImplTarget,classDefault,typeDefault] at h
  | nonType e => simp [accepted,isTypeclassTarget,isImplTarget,classDefault,typeDefault] at h
  | type declared default =>
    cases declared with
    | false => simp [accepted,isTypeclassTarget,isImplTarget,classDefault,typeDefault] at h
    | true =>
      cases default with
      | none => simp [accepted,isTypeclassTarget,isImplTarget,classDefault,typeDefault] at h
      | some q =>
        simp only [accepted,isTypeclassTarget,isImplTarget,classDefault,typeDefault,identifiedDefault,
          Bool.or_eq_true,Bool.and_eq_true,decide_eq_true_eq,Bool.not_eq_true'] at h
        rcases h with ⟨⟨⟨hname,hpack⟩,hrecord⟩,hid⟩ | ⟨⟨⟨hname,hpack⟩,-⟩,-⟩
        · exact ⟨q,hpack,rfl,.inl ⟨hname,hrecord,hid⟩⟩
        · exact ⟨q,hpack,rfl,.inr hname⟩

end TemplateParameter

def InstanceTargets.record (targets : InstanceTargets) (p : TemplateParameter) : InstanceTargets :=
  match p.kind with
  | .type _ (some q) =>
    if p.name = "typeclass_target" then
      { targets with
        typeclassQualType := extractTypeName (extractTypeName q.printed)
        typeclassBaseTypeIdentifier := extractTypeName (baseTypeIdentifierText q)
        typeclassArgQualType := some q }
    else { targets with targetName := extractTypeName (extractTypeName q.printed) }
  | _ => targets

@[simp] theorem check_true : check true = .ok () := rfl

@[simp] theorem check_false : check false = .error .check := rfl

@[simp] theorem ok_bind {α β : Type} (a : α) (f : α → Except Stop β) : (Except.ok a >>= f) = f a := rfl

@[simp] theorem error_bind {α β : Type} (e : Stop) (f : α → Except Stop β) :
    ((Except.error e : Except Stop α) >>= f) = .error e := rfl

theorem check_bind_error {α : Type} (c : Bool) {f : Unit → Except Stop α} (h : f () = .error .check) :
    (check c >>= f) = .error .check := by
  cases c with
  | true => exact h
  | false => rfl

section Step

variable {targets : InstanceTargets} {p : TemplateParameter}

theorem step_accepted (h : p.accepted = true)
    (htypeclass : p.name = "typeclass_target" → targets.typeclassQualType = [])
    (himpl : p.name = "impl_target" → targets.targetName = []) :
    parameterStep targets p = .ok (targets.record p) := by
  obtain ⟨q,hpack,hkind,hname⟩ := TemplateParameter.accepted_cases h
  have hprinted : (extractTypeName q.printed).isEmpty = false := by simpa using q.named.1
  have htype : parameterType p.kind = .ok ⟨extractTypeName q.printed,baseTypeIdentifierText q,some q⟩ := by
    rw [hkind,parameterType]
    simp [hprinted]
  rw [parameterStep,htype,hpack,InstanceTargets.record,hkind]
  rcases hname with ⟨hname,hrecord,hid⟩ | hname
  · have hidentifier : (baseTypeIdentifierText q).isEmpty = false := by
      obtain ⟨identifier,hidentifier⟩ := Option.isSome_iff_exists.mp hid
      rw [baseTypeIdentifierText,hidentifier]
      rfl
    simp [hname,hprinted,storeTypeclassTarget,htypeclass hname,hidentifier,hrecord]
  · simp [hname,hprinted,storeImplTarget,himpl hname]

theorem storeTypeclassTarget_rejected {q : QualType} {printed : Text}
    (h : q.asCXXRecordDecl.isSome = false ∨ q.baseTypeIdentifier.isSome = false) :
    storeTypeclassTarget targets ⟨printed,baseTypeIdentifierText q,some q⟩ = .error .check := by
  apply check_bind_error
  apply check_bind_error
  rcases h with hrecord | hid
  · apply check_bind_error
    simp [hrecord]
  · have hnone : q.baseTypeIdentifier = none := by simpa using hid
    simp [baseTypeIdentifierText,hnone]

theorem step_rejected (h : p.accepted = false) : parameterStep targets p = .error p.stop := by
  obtain ⟨name,pack,kind⟩ := p
  cases pack with
  | true => rfl
  | false =>
    cases kind with
    | template => rfl
    | nonType e => cases e <;> rfl
    | type declared default =>
      cases declared with
      | false => rfl
      | true =>
        cases default with
        | none => rfl
        | some q =>
          have hprinted : (extractTypeName q.printed).isEmpty = false := by simpa using q.named.1
          simp only [TemplateParameter.accepted,TemplateParameter.isTypeclassTarget,
            TemplateParameter.isImplTarget,TemplateParameter.classDefault,TemplateParameter.typeDefault,
            TemplateParameter.identifiedDefault] at h
          simp only [parameterStep,parameterType,hprinted,Bool.not_false,check_true,ok_bind]
          split
          · rename_i hname
            refine storeTypeclassTarget_rejected ?_
            cases hrecord : q.asCXXRecordDecl.isSome <;> simp_all
          · split
            · simp_all
            · rfl

end Step

section Loop

def names (tp : List TemplateParameter) : List String := tp.map TemplateParameter.name

structure Vacant (targets : InstanceTargets) (tp : List TemplateParameter) : Prop where
  typeclass : "typeclass_target" ∈ names tp → targets.typeclassQualType = []
  impl : "impl_target" ∈ names tp → targets.targetName = []

theorem vacant_empty (tp : List TemplateParameter) : Vacant .empty tp := ⟨fun _ => rfl,fun _ => rfl⟩

theorem vacant_record {targets : InstanceTargets} {p : TemplateParameter} {tp : List TemplateParameter}
    (haccepted : p.accepted = true) (hnodup : (names (p :: tp)).Nodup)
    (h : Vacant targets (p :: tp)) : Vacant (targets.record p) tp := by
  obtain ⟨q,-,hkind,hname⟩ := TemplateParameter.accepted_cases haccepted
  have hnotin : p.name ∉ names tp := (List.nodup_cons.mp hnodup).1
  have hlater {name : String} (hin : name ∈ names tp) : name ∈ names (p :: tp) :=
    List.mem_cons_of_mem _ hin
  rw [InstanceTargets.record,hkind]
  rcases hname with ⟨hname,-⟩ | hname
  · rw [hname] at hnotin
    constructor
    · intro hin
      exact absurd hin hnotin
    · intro hin
      simpa [hname] using h.impl (hlater hin)
  · rw [hname] at hnotin
    constructor
    · intro hin
      simpa [hname] using h.typeclass (hlater hin)
    · intro hin
      exact absurd hin hnotin

theorem parameterLoop_eq {tp : List TemplateParameter} : ∀ {targets : InstanceTargets},
    (names tp).Nodup → Vacant targets tp → parameterLoop targets tp =
      match tp.find? (fun p => !p.accepted) with
      | some p => .error p.stop
      | none => .ok (tp.foldl InstanceTargets.record targets) := by
  induction tp with
  | nil =>
    intro targets hnodup hvacant
    rfl
  | cons p tp ih =>
    intro targets hnodup hvacant
    rw [parameterLoop]
    cases haccepted : p.accepted with
    | false =>
      rw [step_rejected haccepted]
      simp [haccepted]
    | true =>
      have hstep := step_accepted haccepted (fun h => hvacant.typeclass (by simp [names,h]))
        (fun h => hvacant.impl (by simp [names,h]))
      rw [hstep,ok_bind,ih (List.nodup_cons.mp hnodup).2 (vacant_record haccepted hnodup hvacant)]
      simp [haccepted]

end Loop

def WellFormedParameters (tp : List TemplateParameter) : Prop :=
  ∃ t i : TemplateParameter, t.isTypeclassTarget ∧ i.isImplTarget ∧ (tp = [t,i] ∨ tp = [i,t])

def extracted : Except Stop InstanceTargets → Option (Text × Text)
  | .ok targets => some (targets.typeclassQualType,targets.targetName)
  | .error _ => none

structure AcceptsWellFormed (tp : List TemplateParameter) : Prop where
  accepts : (∃ targets, instanceTargets tp = .ok targets) ↔ WellFormedParameters tp
  rejects : ¬ WellFormedParameters tp → instanceTargets tp = .error .check
  derefs : instanceTargets tp ≠ .error .nullDereference
  unordered : ∀ tp', tp'.Perm tp → extracted (instanceTargets tp') = extracted (instanceTargets tp)

def firstRejected (tp : List TemplateParameter) : Option TemplateParameter :=
  tp.find? (fun p => !p.accepted)

section Result

variable {tp : List TemplateParameter} {p t i : TemplateParameter}

theorem instanceTargets_rejected (hnodup : (names tp).Nodup) (h : firstRejected tp = some p) :
    instanceTargets tp = .error p.stop := by
  rw [firstRejected] at h
  rw [instanceTargets,parameterLoop_eq hnodup (vacant_empty tp),h]
  rfl

theorem instanceTargets_accepted (hnodup : (names tp).Nodup) (h : firstRejected tp = none) :
    instanceTargets tp = (do
      check (!(tp.foldl InstanceTargets.record .empty).targetName.isEmpty)
      check (!(tp.foldl InstanceTargets.record .empty).typeclassQualType.isEmpty)
      .ok (tp.foldl InstanceTargets.record .empty)) := by
  rw [firstRejected] at h
  rw [instanceTargets,parameterLoop_eq hnodup (vacant_empty tp),h]
  rfl

theorem firstRejected_none : firstRejected tp = none ↔ ∀ p ∈ tp, p.accepted = true := by
  simp [firstRejected]

theorem single_stops (h : p.accepted = true) : instanceTargets [p] = .error .check := by
  rw [instanceTargets_accepted (by simp [names]) (by simpa [firstRejected] using h)]
  obtain ⟨q,-,hkind,hname⟩ := TemplateParameter.accepted_cases h
  rcases hname with ⟨hname,-⟩ | hname
  · simp [InstanceTargets.record,InstanceTargets.empty,hkind,hname]
  · apply check_bind_error
    simp [InstanceTargets.record,InstanceTargets.empty,hkind,hname]

theorem accepted_of_typeclassTarget (h : t.isTypeclassTarget) (hid : TemplateParameter.identifiedDefault t.kind) :
    t.accepted = true := by
  simp [TemplateParameter.accepted,h,hid]

theorem accepted_of_implTarget (h : i.isImplTarget) (hread : i.readsNull = false) : i.accepted = true := by
  have hparts := h
  simp only [TemplateParameter.isImplTarget,Bool.and_eq_true,Bool.or_eq_true] at hparts
  have hdefault : TemplateParameter.typeDefault i.kind = true := by
    rcases hparts.2 with htype | hvalue
    · exact htype
    · simp [TemplateParameter.readsNull,hvalue,hparts.1.2] at hread
  simp [TemplateParameter.accepted,h,hdefault]

theorem target_of_accepted (h : p.accepted = true) :
    (p.isTypeclassTarget ∧ TemplateParameter.identifiedDefault p.kind) ∨ p.isImplTarget := by
  simp only [TemplateParameter.accepted,Bool.or_eq_true,Bool.and_eq_true] at h
  exact h.imp id And.left

theorem typeclassTarget_name (h : t.isTypeclassTarget) : t.name = "typeclass_target" := by
  simp only [TemplateParameter.isTypeclassTarget,Bool.and_eq_true,decide_eq_true_eq] at h
  exact h.1.1

theorem implTarget_name (h : i.isImplTarget) : i.name = "impl_target" := by
  simp only [TemplateParameter.isImplTarget,Bool.and_eq_true,decide_eq_true_eq] at h
  exact h.1.1

theorem target_name (h : p.accepted = true) : p.name = "typeclass_target" ∨ p.name = "impl_target" := by
  obtain ⟨q,-,-,⟨hname,-⟩ | hname⟩ := TemplateParameter.accepted_cases h
  · exact .inl hname
  · exact .inr hname

-- No more than two distinct names are accepted.
theorem accepted_shapes (hnodup : (names tp).Nodup) (h : ∀ p ∈ tp, p.accepted = true) :
    tp = [] ∨ (∃ p, tp = [p]) ∨ ∃ t i : TemplateParameter, t.isTypeclassTarget ∧ i.isImplTarget ∧
      TemplateParameter.identifiedDefault t.kind ∧ (tp = [t,i] ∨ tp = [i,t]) := by
  match tp with
  | [] => exact .inl rfl
  | [p] => exact .inr (.inl ⟨p,rfl⟩)
  | [p,q] =>
    have hne : p.name ≠ q.name := by simpa [names] using hnodup
    rcases target_of_accepted (h p (by simp)) with ⟨hp,hid⟩ | hp
    · rcases target_of_accepted (h q (by simp)) with ⟨hq,-⟩ | hq
      · exact absurd ((typeclassTarget_name hp).trans (typeclassTarget_name hq).symm) hne
      · exact .inr (.inr ⟨p,q,hp,hq,hid,.inl rfl⟩)
    · rcases target_of_accepted (h q (by simp)) with ⟨hq,hid⟩ | hq
      · exact .inr (.inr ⟨q,p,hq,hp,hid,.inr rfl⟩)
      · exact absurd ((implTarget_name hp).trans (implTarget_name hq).symm) hne
  | p :: q :: r :: rest =>
    have hp := target_name (h p (by simp))
    have hq := target_name (h q (by simp))
    have hr := target_name (h r (by simp))
    simp only [names,List.map_cons,List.nodup_cons,List.mem_cons,not_or] at hnodup
    grind

theorem pair_targets (ht : t.accepted = true) (hi : i.accepted = true) (htname : t.name = "typeclass_target")
    (hiname : i.name = "impl_target") : ∃ targets,
      instanceTargets [t,i] = .ok targets ∧ instanceTargets [i,t] = .ok targets := by
  obtain ⟨q,-,htkind,-⟩ := TemplateParameter.accepted_cases ht
  obtain ⟨r,-,hikind,-⟩ := TemplateParameter.accepted_cases hi
  have hq : (extractTypeName (extractTypeName q.printed)).isEmpty = false := by simpa using q.named.2
  have hr : (extractTypeName (extractTypeName r.printed)).isEmpty = false := by simpa using r.named.2
  refine ⟨(InstanceTargets.empty.record t).record i,?_,?_⟩
  · rw [instanceTargets_accepted (by simp [names,htname,hiname]) (by simp [firstRejected,ht,hi])]
    simp [InstanceTargets.record,htkind,hikind,htname,hiname,hq,hr]
  · rw [instanceTargets_accepted (by simp [names,htname,hiname]) (by simp [firstRejected,ht,hi])]
    simp [InstanceTargets.record,htkind,hikind,htname,hiname,hq,hr]

theorem pair_generates (ht : t.isTypeclassTarget) (hi : i.isImplTarget) (haccepted : ∀ p ∈ tp, p.accepted = true)
    (htp : tp = [t,i] ∨ tp = [i,t]) :
    ∃ targets, ∀ tp', tp'.Perm tp → instanceTargets tp' = .ok targets := by
  have hboth : t.accepted = true ∧ i.accepted = true := by
    rcases htp with rfl | rfl
    · exact ⟨haccepted t (by simp),haccepted i (by simp)⟩
    · exact ⟨haccepted t (by simp),haccepted i (by simp)⟩
  obtain ⟨targets,htargets,hswapped⟩ :=
    pair_targets hboth.1 hboth.2 (typeclassTarget_name ht) (implTarget_name hi)
  refine ⟨targets,fun tp' hperm => ?_⟩
  have hpair : tp'.Perm [t,i] := by
    rcases htp with rfl | rfl
    · exact hperm
    · exact hperm.trans (List.Perm.swap t i [])
  rcases List.perm_pair.mp hpair with rfl | rfl
  · exact htargets
  · exact hswapped

theorem generates_cases (hnodup : (names tp).Nodup) :
    (∃ p, firstRejected tp = some p ∧ instanceTargets tp = .error p.stop) ∨
    (firstRejected tp = none ∧ tp.length < 2 ∧ instanceTargets tp = .error .check) ∨
    (firstRejected tp = none ∧ WellFormedParameters tp ∧
      ∃ targets, ∀ tp', tp'.Perm tp → instanceTargets tp' = .ok targets) := by
  cases hfirst : firstRejected tp with
  | some p => exact .inl ⟨p,rfl,instanceTargets_rejected hnodup hfirst⟩
  | none =>
    have haccepted := firstRejected_none.mp hfirst
    rcases accepted_shapes hnodup haccepted with rfl | ⟨p,rfl⟩ | ⟨t,i,ht,hi,-,htp⟩
    · exact .inr (.inl ⟨rfl,by simp,rfl⟩)
    · exact .inr (.inl ⟨rfl,by simp,single_stops (haccepted p (by simp))⟩)
    · exact .inr (.inr ⟨rfl,⟨t,i,ht,hi,htp⟩,pair_generates ht hi haccepted htp⟩)

theorem WellFormedParameters.length_eq (h : WellFormedParameters tp) : tp.length = 2 := by
  obtain ⟨t,i,-,-,rfl | rfl⟩ := h
  · rfl
  · rfl

theorem extracted_perm (hnodup : (names tp).Nodup) {tp' : List TemplateParameter} (hperm : tp'.Perm tp) :
    extracted (instanceTargets tp') = extracted (instanceTargets tp) := by
  have hnodup' : (names tp').Nodup := (hperm.map _).nodup_iff.mpr hnodup
  have herror (e : Stop) : extracted (.error e) = none := rfl
  have hstops {ps qs : List TemplateParameter} (hps : (names ps).Nodup) (hpq : ps.Perm qs)
      (hqs : extracted (instanceTargets qs) = none) : extracted (instanceTargets ps) = none := by
    rcases generates_cases hps with ⟨p,-,hrun⟩ | ⟨-,-,hrun⟩ | ⟨-,-,targets,hrun⟩
    · rw [hrun,herror]
    · rw [hrun,herror]
    · rw [hrun qs hpq.symm] at hqs
      cases hqs
  rcases generates_cases hnodup with ⟨p,-,hrun⟩ | ⟨-,-,hrun⟩ | ⟨-,-,targets,hrun⟩
  · rw [hrun,herror]
    exact hstops hnodup' hperm (by rw [hrun,herror])
  · rw [hrun,herror]
    exact hstops hnodup' hperm (by rw [hrun,herror])
  · rw [hrun tp' hperm,hrun tp (List.Perm.refl tp)]

theorem first_not_wellFormed (hfirst : firstRejected tp = some p) (hread : p.readsNull = false)
    (hclass : WellFormedParameters tp → ∀ t ∈ tp, t.isTypeclassTarget →
      TemplateParameter.identifiedDefault t.kind) : ¬ WellFormedParameters tp := by
  intro hwf
  have hmem : p ∈ tp := List.mem_of_find?_eq_some hfirst
  have hrejected : p.accepted = false := by simpa using List.find?_some hfirst
  have hid := hclass hwf
  obtain ⟨t,i,ht,hi,htp⟩ := hwf
  have hpti : p = t ∨ p = i := by
    rcases htp with rfl | rfl
    · simpa using hmem
    · simpa [or_comm] using hmem
  rcases hpti with rfl | rfl
  · rw [accepted_of_typeclassTarget ht (hid p hmem ht)] at hrejected
    cases hrejected
  · rw [accepted_of_implTarget hi hread] at hrejected
    cases hrejected

theorem stop_check_iff : p.stop = .check ↔ p.readsNull = false := by
  rw [TemplateParameter.stop]
  cases p.readsNull <;> simp

theorem stops_wellFormed (hrun : instanceTargets tp = .error .check) (hwf : ¬ WellFormedParameters tp)
    (hunordered : ∀ tp', tp'.Perm tp → extracted (instanceTargets tp') = extracted (instanceTargets tp)) :
    AcceptsWellFormed tp where
  accepts := by
    rw [hrun]
    exact ⟨fun ⟨_,h⟩ => (by cases h),fun h => absurd h hwf⟩
  rejects _ := hrun
  derefs h := by
    rw [hrun] at h
    cases h
  unordered := hunordered

end Result

theorem acceptsWellFormed_iff (tp : List TemplateParameter) (hnames : (names tp).Nodup) :
    AcceptsWellFormed tp ↔
      (∀ p, firstRejected tp = some p → p.readsNull = false) ∧
      (WellFormedParameters tp → ∀ t ∈ tp, t.isTypeclassTarget →
        TemplateParameter.identifiedDefault t.kind) := by
  constructor
  · rintro ⟨haccepts,-,hderefs,-⟩
    rcases generates_cases hnames with ⟨p,hfirst,hrun⟩ | ⟨hfirst,hlength,-⟩ | ⟨hfirst,-,-⟩
    · constructor
      · intro p' hp'
        obtain rfl : p = p' := Option.some.inj (hfirst.symm.trans hp')
        rw [← stop_check_iff]
        cases hstop : p.stop with
        | check => rfl
        | nullDereference => exact absurd (hstop ▸ hrun) hderefs
      · intro hwf
        obtain ⟨targets,hok⟩ := haccepts.mpr hwf
        rw [hrun] at hok
        cases hok
    · refine ⟨fun p hp => ?_,fun hwf => ?_⟩
      · rw [hfirst] at hp
        cases hp
      · exact absurd hwf.length_eq (by omega)
    · refine ⟨fun p hp => ?_,fun hwf t hmem ht => ?_⟩
      · rw [hfirst] at hp
        cases hp
      · rcases target_of_accepted (firstRejected_none.mp hfirst t hmem) with ⟨-,hid⟩ | hi
        · exact hid
        · exact absurd ((typeclassTarget_name ht).symm.trans (implTarget_name hi)) (by decide)
  · rintro ⟨hread,hclass⟩
    have hunordered (tp' : List TemplateParameter) (hperm : tp'.Perm tp) := extracted_perm hnames hperm
    rcases generates_cases hnames with ⟨p,hfirst,hrun⟩ | ⟨-,hlength,hrun⟩ | ⟨-,hwf,targets,hrun⟩
    · rw [stop_check_iff.mpr (hread p hfirst)] at hrun
      exact stops_wellFormed hrun (first_not_wellFormed hfirst (hread p hfirst) hclass) hunordered
    · exact stops_wellFormed hrun (fun hwf => absurd hwf.length_eq (by omega)) hunordered
    · have hok := hrun tp (List.Perm.refl tp)
      exact ⟨⟨fun _ => hwf,fun _ => ⟨targets,hok⟩⟩,fun h => absurd hwf h,by simp [hok],hunordered⟩

def classType (name : String) : QualType :=
  ⟨[.word name],some name,some ⟨name,[],[],[],[]⟩,List.cons_ne_nil _ _,List.cons_ne_nil _ _⟩

def typeclassTarget : TemplateParameter := ⟨"typeclass_target",false,.type true (some (classType "IntSummable"))⟩

def implTarget : TemplateParameter := ⟨"impl_target",false,.type true (some (classType "FireSpell"))⟩

def implTargetValue : TemplateParameter := ⟨"impl_target",false,.nonType (some [.word "0"])⟩

theorem acceptsWellFormed_pair : AcceptsWellFormed [implTarget,typeclassTarget] := by
  refine (acceptsWellFormed_iff [implTarget,typeclassTarget] (by decide)).mpr ⟨?_,?_⟩
  · intro p hp
    cases hp
  · intro _ t ht htarget
    rw [List.mem_cons,List.mem_singleton] at ht
    rcases ht with rfl | rfl
    · exact absurd htarget (by decide)
    · rfl

theorem nonType_reads_null : WellFormedParameters [typeclassTarget,implTargetValue] ∧
    instanceTargets [typeclassTarget,implTargetValue] = .error .nullDereference ∧
    ¬ AcceptsWellFormed [typeclassTarget,implTargetValue] := by
  have hrun : instanceTargets [typeclassTarget,implTargetValue] = .error .nullDereference := rfl
  exact ⟨⟨typeclassTarget,implTargetValue,rfl,rfl,.inl rfl⟩,hrun,fun h => h.derefs hrun⟩

end FlexTypeclass.Codegen
