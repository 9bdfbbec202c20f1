import FlexTypeclass.Codegen.MoveOnly

namespace FlexTypeclass.Codegen

structure Signature where
  name : String
  params : List MethodParamInfo
  const : Bool
  noexcept : Bool
  deriving DecidableEq, Repr

def MethodDecl.signature (d : MethodDecl) : Signature :=
  ⟨d.name,d.params,d.trailing.const,d.trailing.noexcept⟩

def declaredVirtual : Member → Option Signature
  | .method d => if d.forwarding.virtual then some d.signature else none
  | _ => none

def overriddenFinal : Member → Option Signature
  | .method d => if d.overrideFinal then some d.signature else none
  | _ => none

def MethodInfo.implSignature (m : MethodInfo) : Signature :=
  ⟨"__" ++ m.name,m.params,m.isConst,m.isNoExcept⟩

section Templates

variable {moveOnly : Bool} {methods : List MethodInfo}

theorem filterMap_methods {f : Member → Option Signature} {emit : MethodInfo → MethodDecl}
    {keep : MethodInfo → Bool} (h : ∀ m, f (.method (emit m)) =
      if keep m then some m.implSignature else none) :
    (methodLoop methods (fun m => Member.method (emit m))).filterMap f =
      ((methods.filter isTypeclassMethod).filter keep).map MethodInfo.implSignature := by
  rw [methodLoop,List.filterMap_map]
  induction methods.filter isTypeclassMethod with
  | nil => rfl
  | cons m ms ih =>
    rw [List.filterMap_cons,Function.comp,h,List.filter_cons]
    split
    · split at * <;> simp_all
    · split at * <;> simp_all

theorem implBase_declared (clone moveClone : String) :
    (implBaseMembers clone moveClone moveOnly methods).filterMap declaredVirtual =
      ((methods.filter isTypeclassMethod).filter MethodInfo.isVirtual).map
        MethodInfo.implSignature := by
  have hemit : ∀ m, declaredVirtual (.method (implBaseMethod m)) =
      if m.isVirtual then some m.implSignature else none := by
    intro m
    cases hv : m.isVirtual <;>
      simp [declaredVirtual,implBaseMethod,printMethodForwarding,ForwardingOptions.all,hv,
        MethodDecl.signature,printMethodTrailing,TrailingOptions.all,MethodInfo.implSignature]
  rw [implBaseMembers,List.filterMap_append,filterMap_methods hemit]
  cases moveOnly <;> rfl

theorem impl_overridden (clone moveClone : String) :
    (implMembers clone moveClone moveOnly methods).filterMap overriddenFinal =
      (methods.filter isTypeclassMethod).map MethodInfo.implSignature := by
  have hemit : ∀ m, overriddenFinal (.method (implMethod m)) =
      if true then some m.implSignature else none := by
    intro m
    simp [overriddenFinal,implMethod,MethodDecl.signature,printMethodTrailing,
      TrailingOptions.constNoexcept,MethodInfo.implSignature]
  rw [implMembers,List.filterMap_append,List.filterMap_append,
    filterMap_methods hemit,List.filter_eq_self.mpr (by simp)]
  cases moveOnly <;> exact List.append_nil _

end Templates

structure OverridesMatch (tc : GeneratedTypeclass) (inst : GeneratedInstance) : Prop where
  heap : tc.typeclassImplBase.filterMap declaredVirtual =
    inst.typeclassImpl.filterMap overriddenFinal
  inplace : tc.inplaceTypeclassImplBase.filterMap declaredVirtual =
    inst.inplaceTypeclassImpl.filterMap overriddenFinal

theorem overridesMatch_iff {args : List Arg} {decl : RecordDecl} {tc : GeneratedTypeclass}
    {inst : GeneratedInstance} (htc : typeclass args decl = some tc)
    (hinst : typeclass_instance decl = some inst) :
    OverridesMatch tc inst ↔
      (((baseMethods decl.bases).filter isTypeclassMethod).filter MethodInfo.isVirtual).map
          MethodInfo.implSignature =
        ((decl.methods ++ baseMethods decl.bases).filter isTypeclassMethod).map
          MethodInfo.implSignature := by
  have hdata (ms : List Member) : (Member.data kIsMoveOnlyFieldName :: ms).filterMap overriddenFinal =
      ms.filterMap overriddenFinal := rfl
  rw [typeclass_file htc,instance_file hinst]
  constructor
  · intro h
    have hheap := h.heap
    simpa only [typeclassFile,instanceFile,TypeclassImplBase,TypeclassImpl,hdata,implBase_declared,
      impl_overridden] using hheap
  · intro h
    constructor
    · simpa only [typeclassFile,instanceFile,TypeclassImplBase,TypeclassImpl,hdata,
        implBase_declared,impl_overridden] using h
    · simpa only [typeclassFile,instanceFile,InplaceTypeclassImplBase,InplaceTypeclassImpl,
        implBase_declared,impl_overridden] using h

theorem filtered_map_eq_iff {α β : Type} {f : α → β} {keep : α → Bool} (own all : List α) :
    (all.filter keep).map f = (own ++ all).map f ↔ own = [] ∧ ∀ a ∈ all, keep a = true := by
  constructor
  · intro h
    have hlen := congrArg List.length h
    have hle := List.length_filter_le keep all
    simp only [List.length_map,List.length_append] at hlen
    have hown : own = [] := List.eq_nil_of_length_eq_zero (by omega)
    have hall : (all.filter keep).length = all.length := by omega
    exact ⟨hown,List.length_filter_eq_length_iff.mp hall⟩
  · rintro ⟨rfl,hall⟩
    rw [List.filter_eq_self.mpr hall,List.nil_append]

theorem instances_concrete_iff (args : List Arg) (decl : RecordDecl) (tc : GeneratedTypeclass)
    (inst : GeneratedInstance) (htc : typeclass args decl = some tc)
    (hinst : typeclass_instance decl = some inst) :
    OverridesMatch tc inst ↔ (∀ m ∈ decl.methods, isTypeclassMethod m = false) ∧
      ∀ b ∈ decl.bases, ∀ m ∈ b.methods, isTypeclassMethod m = true → m.isVirtual = true := by
  rw [overridesMatch_iff htc hinst,List.filter_append,filtered_map_eq_iff,List.filter_eq_nil_iff]
  refine and_congr (forall₂_congr fun m _ => Bool.not_eq_true _ ▸ Iff.rfl) ?_
  simp only [List.mem_filter,baseMethods,List.mem_flatMap]
  constructor
  · intro h b hb m hm hacc
    exact h m ⟨⟨b,hb,hm⟩,hacc⟩
  · rintro h m ⟨⟨b,hb,hm⟩,hacc⟩
    exact h b hb m hm hacc

theorem instances_concrete_magicItem :
    OverridesMatch (magicItemTypeclass []) (magicItemInstance []) :=
  (instances_concrete_iff [] (magicItem []) _ _ rfl rfl).mpr ⟨by decide,by decide⟩

def castSpell : MethodInfo := { hasEnoughMana with name := "cast" }

def magicItemWithOwnMethod : RecordDecl := { magicItem [] with methods := [castSpell] }

theorem own_method_overrides_nothing :
    ∃ tc inst, typeclass [] magicItemWithOwnMethod = some tc ∧
      typeclass_instance magicItemWithOwnMethod = some inst ∧
      tc.typeclassImplBase.filterMap declaredVirtual = [hasEnoughMana.implSignature] ∧
      inst.typeclassImpl.filterMap overriddenFinal =
        [castSpell.implSignature,hasEnoughMana.implSignature] ∧ ¬ OverridesMatch tc inst :=
  ⟨_,_,rfl,rfl,rfl,rfl,fun h => absurd h.heap (by decide)⟩

end FlexTypeclass.Codegen
