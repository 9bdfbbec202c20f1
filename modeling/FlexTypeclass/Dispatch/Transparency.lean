import FlexTypeclass.Dispatch.CrossTalk
import FlexTypeclass.Runtime.Refinement

namespace FlexTypeclass.Dispatch
open Lib FlexTypeclass.Runtime

-- What the user writes: the values of the concrete types, and the explicit specializations.
structure UserCode (K B : Type) where
  Val : B → Type
  Result : Type
  movedFrom : ∀ I, Val I → Val I
  interrupted : ∀ I, Val I → Val I
  run : K → Method B → (I : B) → List (Sigma Val) → Val I → Result × Val I

structure MethodCall {K B : Type} (U : UserCode K B) (tc : TypeclassDecl K B) where
  method : Method B
  args : List (Sigma U.Val)
  declared : method ∈ tc.methods
  typed : args.map Sigma.fst = method.params.map fun p => p.type.base

def select {α : Type} (args : List α) : List Nat → Option (List α)
  | [] => some []
  | i :: indices => args[i]?.bind fun a => (select args indices).map (a :: ·)

abbrev TypeclassDecl.Instance {K B : Type} (P : Program K B) (tc : TypeclassDecl K B) : Type :=
  { I : B // (tc.key,I) ∈ P.instances }

namespace UserCode

variable {K B : Type} (U : UserCode K B) (P : Program K B) (tc : TypeclassDecl K B)

abbrev Calls : Type :=
  (t : tc.Instance P) → MethodCall U tc → U.Val t.1 → Option U.Result × U.Val t.1

def concrete (calls : U.Calls P tc) : Concrete where
  Ty := tc.Instance P
  Val t := U.Val t.1
  Method := MethodCall U tc
  Result := Option U.Result
  movedFrom t := U.movedFrom t.1
  interrupted t := U.interrupted t.1
  call := calls

def direct : U.Calls P tc := fun t c v =>
  let out := U.run tc.key c.method t.1 c.args v
  (some out.1,out.2)

variable [DecidableEq B]

-- No result stands for a call that does not compile, or that is no call of a specialization.
def execute (I : B) (args : List (Sigma U.Val)) (v : U.Val I) : Outcome K B → Option U.Result × U.Val I
  | .runs e =>
    match select args e.args with
    | none => (none,v)
    | some passed =>
      match e.data with
      | .held =>
        if e.impl = I then
          let out := U.run e.key e.method I passed v
          (some out.1,out.2)
        else (none,v)
      | .param i =>
        match args[i]? with
        | some w => (some (U.run e.key e.method w.1 passed w.2).1,v)
        | none => (none,v)
  | .onParameter _ => (none,v)
  | .rejected => (none,v)

variable [DecidableEq K] (L : Language B) (s : Storage)

def through : U.Calls P tc := fun t c v => U.execute t.1 c.args v (call L P s tc t.1 c.method)

end UserCode

section Clients

variable {K B : Type} {U : UserCode K B} {P : Program K B} {tc : TypeclassDecl K B}

abbrev Client (U : UserCode K B) (P : Program K B) (tc : TypeclassDecl K B) : Type :=
  List (Op (U.concrete P tc (U.direct P tc)) × Throw)

-- The same program, its calls going elsewhere.
def recast (calls : U.Calls P tc) : Op (U.concrete P tc (U.direct P tc)) → Op (U.concrete P tc calls)
  | .defaultConstruct x => .defaultConstruct x
  | .convertConstruct x d => .convertConstruct x ⟨d.ty,d.val⟩
  | .copyConstruct x rhs => .copyConstruct x rhs
  | .moveConstruct x rhs => .moveConstruct x rhs
  | .convertAssign x d => .convertAssign x ⟨d.ty,d.val⟩
  | .copyAssign x rhs => .copyAssign x rhs
  | .moveAssign x rhs => .moveAssign x rhs
  | .call x m => .call x m
  | .endOfLife x => .endOfLife x

def Client.recast (calls : U.Calls P tc) (es : Client U P tc) :
    List (Op (U.concrete P tc calls) × Throw) :=
  es.map fun e => (Dispatch.recast calls e.1,e.2)

def copies {C : Concrete} : Op C → Bool
  | .copyConstruct _ _ => true
  | .copyAssign _ _ => true
  | _ => false

-- The wrappers of a move-only typeclass have no copy operations.
def Client.Compiles (es : Client U P tc) : Prop :=
  tc.moveOnly = true → ∀ e ∈ es, copies e.1 = false

abbrev Trace (U : UserCode K B) : Type := List (Obs (Option (Option U.Result))) × Option Runtime.Stop

-- The program with plain values in place of the wrappers.
def Client.meaning (es : Client U P tc) : Trace U :=
  observe (run (Reference.eventStep false) es Reference.init)

def Client.NeverThrows (es : Client U P tc) : Prop := ∀ e ∈ es, e.2 = .never

-- Where the program assigns to an unset variable or from a variable to itself, it faults anyway.
def Client.Portable (es : Client U P tc) : Prop :=
  ForallReached (Reference.eventStep false) Reference.init es fun e s =>
    Reference.refusesInPlace e s = true → Reference.eventStep false e s = .stop .fault

def referenceTrace (strict : Bool) (calls : U.Calls P tc) (es : Client U P tc) : Trace U :=
  observe (run (Reference.eventStep strict) (es.recast calls) Reference.init)

def heapTrace (calls : U.Calls P tc) (es : Client U P tc) : Trace U :=
  observe (run Typeclass.eventStep (es.recast calls) Typeclass.init)

def inplaceTrace (build : InplaceTypeclass.Build) (calls : U.Calls P tc) (es : Client U P tc) : Trace U :=
  observe (run (InplaceTypeclass.eventStep build) (es.recast calls) InplaceTypeclass.init)

theorem heapTrace_eq (calls : U.Calls P tc) (es : Client U P tc) :
    heapTrace calls es = referenceTrace false calls es :=
  (Typeclass.run_events (es.recast calls)).observe

theorem inplaceTrace_eq (build : InplaceTypeclass.Build) (calls : U.Calls P tc) (es : Client U P tc) :
    inplaceTrace build calls es = referenceTrace true calls es :=
  (InplaceTypeclass.run_events build (es.recast calls)).observe

end Clients

section Selection

variable {α : Type}

theorem select_map {β : Type} (f : α → β) (args : List α) (indices : List Nat) :
    select (args.map f) indices = (select args indices).map (List.map f) := by
  induction indices with
  | nil => rfl
  | cons i indices ih =>
    rw [select,select,ih,List.getElem?_map]
    cases args[i]? with
    | none => rfl
    | some a => cases select args indices <;> rfl

theorem select_succ (a : α) (args : List α) (indices : List Nat) :
    select (a :: args) (indices.map Nat.succ) = select args indices := by
  induction indices with
  | nil => rfl
  | cons i indices ih => rw [List.map_cons,select,select,ih,List.getElem?_cons_succ]

theorem select_range (args : List α) : select args (List.range args.length) = some args := by
  induction args with
  | nil => rfl
  | cons a args ih =>
    rw [List.length_cons,List.range_succ_eq_map,select,select_succ,ih]
    rfl

theorem select_indices {n : Nat} {indices chosen : List Nat}
    (h : select (List.range n) indices = some chosen) : chosen = indices := by
  induction indices generalizing chosen with
  | nil => exact (Option.some.inj h).symm
  | cons i indices ih =>
    obtain ⟨a,ha,hrest⟩ := Option.bind_eq_some_iff.mp h
    obtain ⟨rest,hselect,rfl⟩ := Option.map_eq_some_iff.mp hrest
    obtain ⟨-,rfl⟩ := List.getElem?_eq_some_iff.mp ha
    rw [ih hselect,List.getElem_range]

end Selection

section Clean

variable {K B : Type} [DecidableEq K] [DecidableEq B] {L : Language B} {U : UserCode K B} {P : Program K B}
  {tc : TypeclassDecl K B}

omit [DecidableEq K] [DecidableEq B] in
theorem recast_direct (es : Client U P tc) : es.recast (U.direct P tc) = es := by
  have hself (op : Op (U.concrete P tc (U.direct P tc))) : recast (U.direct P tc) op = op := by
    cases op <;> rfl
  rw [Client.recast]
  simp [hself]

omit [DecidableEq K] [DecidableEq B] in
theorem referenceTrace_direct (strict : Bool) (es : Client U P tc) :
    referenceTrace strict (U.direct P tc) es =
      observe (run (Reference.eventStep strict) es Reference.init) := by
  rw [referenceTrace,recast_direct]
  rfl

omit [DecidableEq K] in
theorem execute_some {I : B} {args : List (Sigma U.Val)} {v : U.Val I} {outcome : Outcome K B} {r : U.Result}
    (h : (U.execute I args v outcome).1 = some r) :
    ∃ e passed, outcome = .runs e ∧ select args e.args = some passed ∧
      ((e.data = .held ∧ e.impl = I ∧ r = (U.run e.key e.method I passed v).1) ∨
        ∃ i w, e.data = .param i ∧ args[i]? = some w ∧ r = (U.run e.key e.method w.1 passed w.2).1) := by
  cases outcome with
  | onParameter i => cases h
  | rejected => cases h
  | runs e =>
    rw [UserCode.execute] at h
    split at h
    · cases h
    · rename_i passed hselect
      refine ⟨e,passed,rfl,hselect,?_⟩
      split at h
      · rename_i hdata
        split at h
        · rename_i himpl
          exact .inl ⟨hdata,himpl,(Option.some.inj h).symm⟩
        · cases h
      · rename_i i hdata
        split at h
        · rename_i w hplace
          exact .inr ⟨i,w,hdata,hplace,(Option.some.inj h).symm⟩
        · cases h

omit [DecidableEq K] in
theorem execute_exact (t : tc.Instance P) (c : MethodCall U tc) (v : U.Val t.1) :
    U.execute t.1 c.args v (.runs (exactCall tc t.1 c.method)) = U.direct P tc t c v := by
  have hlength : c.method.params.length = c.args.length := by
    have htyped := congrArg List.length c.typed
    rw [List.length_map,List.length_map] at htyped
    exact htyped.symm
  simp only [UserCode.execute,exactCall,hlength,select_range,if_pos,UserCode.direct]

theorem clean_through (hL : Forwards L) (htc : tc ∈ P.typeclasses) (s : Storage)
    (hc : ∀ m ∈ tc.methods, P.Compiles L ∧ Clean L P tc s m) : U.through P tc L s = U.direct P tc := by
  funext t c v
  obtain ⟨hP,hclean⟩ := hc c.method c.declared
  rw [UserCode.through,clean_call hL htc t.2 hP c.declared hclean,execute_exact]

end Clean

section Recorder

variable {K B : Type}

-- Each value stands for its own place: the wrapped one is 0, the arguments count from 1.
abbrev recorder (K B : Type) : UserCode K B where
  Val _ := Nat
  Result := K × Method B × B × List Nat × Nat
  movedFrom _ v := v
  interrupted _ v := v
  run key m I args v := ((key,m,I,args.map Sigma.snd,v),v)

def places (params : List (Param B)) : List (Sigma (recorder K B).Val) :=
  params.zipIdx.map fun e => ⟨e.1.type.base,e.2 + 1⟩

theorem places_typed (params : List (Param B)) :
    (places (K := K) params).map Sigma.fst = params.map fun p => p.type.base := by
  have hfst := congrArg (List.map fun p : Param B => p.type.base) (List.zipIdx_map_fst 0 params)
  rw [List.map_map] at hfst
  rw [places,List.map_map]
  exact hfst

theorem places_snd (params : List (Param B)) :
    (places (K := K) params).map Sigma.snd = (List.range params.length).map Nat.succ := by
  have hsnd := congrArg (List.map Nat.succ) (List.zipIdx_map_snd 0 params)
  rw [List.map_map,← List.range_eq_range'] at hsnd
  rw [places,List.map_map]
  exact hsnd

theorem select_places {params : List (Param B)} {indices : List Nat}
    {passed : List (Sigma (recorder K B).Val)} (h : select (places (K := K) params) indices = some passed) :
    passed.map Sigma.snd = indices.map Nat.succ := by
  have hsnd := select_map Sigma.snd (places (K := K) params) indices
  rw [h,places_snd,select_map,Option.map_some] at hsnd
  obtain ⟨chosen,hchosen,heq⟩ := Option.map_eq_some_iff.mp hsnd
  rw [← heq,select_indices hchosen]

variable [DecidableEq B] {tc : TypeclassDecl K B}

def placesCall {m : Method B} (hm : m ∈ tc.methods) : MethodCall (recorder K B) tc where
  method := m
  args := places m.params
  declared := hm
  typed := places_typed m.params

theorem execute_recorded {P : Program K B} {t : tc.Instance P} {m : Method B} (hm : m ∈ tc.methods)
    {outcome : Outcome K B}
    (h : ((recorder K B).execute t.1 (places m.params) (0 : Nat) outcome).1 =
      ((recorder K B).direct P tc t (placesCall hm) (0 : Nat)).1) :
    outcome = .runs (exactCall tc t.1 m) := by
  have hdirect : ((recorder K B).direct P tc t (placesCall hm) (0 : Nat)).1 =
      some (tc.key,m,t.1,(List.range m.params.length).map Nat.succ,0) := by
    rw [← places_snd]
    rfl
  obtain ⟨⟨key,method,impl,data,indices⟩,passed,rfl,hselect,hran⟩ := execute_some (h.trans hdirect)
  rcases hran with ⟨rfl,rfl,hresult⟩ | ⟨i,w,-,hplace,hresult⟩
  · simp only [Prod.mk.injEq] at hresult
    obtain ⟨rfl,rfl,-,hargs,-⟩ := hresult
    rw [select_places hselect] at hargs
    obtain rfl : List.range m.params.length = indices :=
      List.map_injective_iff.mpr Nat.succ_injective hargs
    rfl
  · obtain ⟨a,-,rfl⟩ := List.mem_map.mp (List.mem_of_getElem? hplace)
    simp only [Prod.mk.injEq] at hresult
    exact absurd hresult.2.2.2.2 (Nat.succ_ne_zero a.2).symm

end Recorder

section Transparency

variable {K B : Type} [DecidableEq K] [DecidableEq B]

-- A client cannot tell the generated wrappers from values whose methods are called directly.
structure Transparent (L : Language B) (P : Program K B) (tc : TypeclassDecl K B) : Prop where
  heap : ∀ (U : UserCode K B) (es : Client U P tc), es.Compiles →
    heapTrace (U.through P tc L .heap) es = es.meaning
  inplace : ∀ (U : UserCode K B) (build : InplaceTypeclass.Build) (es : Client U P tc), es.Compiles →
    es.NeverThrows → (inplaceTrace build (U.through P tc L .inplace) es = es.meaning ↔ es.Portable)

variable {L : Language B} {P : Program K B} {tc : TypeclassDecl K B}

def probe {t : tc.Instance P} {m : Method B} (hm : m ∈ tc.methods) : Client (recorder K B) P tc :=
  [(.convertConstruct 0 ⟨t,(0 : Nat)⟩,.never),(.call 0 (placesCall hm),.never)]

section Probe

variable {t : tc.Instance P} {m : Method B} (hm : m ∈ tc.methods)

omit [DecidableEq K] [DecidableEq B] in
theorem probe_cases {e : Op ((recorder K B).concrete P tc ((recorder K B).direct P tc)) × Throw}
    (h : e ∈ probe (t := t) hm) :
    e = (.convertConstruct 0 ⟨t,(0 : Nat)⟩,.never) ∨ e = (.call 0 (placesCall hm),.never) := by
  rwa [probe,List.mem_cons,List.mem_singleton] at h

omit [DecidableEq K] [DecidableEq B] in
theorem probe_compiles : (probe (t := t) hm).Compiles := by
  intro _ e he
  rcases probe_cases hm he with rfl | rfl <;> rfl

omit [DecidableEq K] [DecidableEq B] in
theorem probe_neverThrows : (probe (t := t) hm).NeverThrows := by
  intro e he
  rcases probe_cases hm he with rfl | rfl <;> rfl

omit [DecidableEq K] [DecidableEq B] in
theorem probe_portable : (probe (t := t) hm).Portable := by
  intro pre e post s heq _ hrefused
  have he : e ∈ probe (t := t) hm := by rw [heq]; simp
  rcases probe_cases hm he with rfl | rfl <;>
    simp [Reference.refusesInPlace,Reference.refuses,Op.assigns,Op.selfAssigns,Reference.emptyAt] at hrefused

omit [DecidableEq K] [DecidableEq B] in
theorem probe_trace (strict : Bool) (calls : (recorder K B).Calls P tc) :
    referenceTrace strict calls (probe (t := t) hm) =
      ([.done none,.done (some (calls t (placesCall hm) (0 : Nat)).1)],none) := by
  cases strict <;> rfl

end Probe

end Transparency

end FlexTypeclass.Dispatch
