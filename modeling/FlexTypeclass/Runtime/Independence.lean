import FlexTypeclass.Lib.Locality
import FlexTypeclass.Runtime.Refinement

namespace FlexTypeclass.Runtime
open Lib

variable {C : Concrete}

def Op.mentions (op : Op C) : Set Var := { x | x ∈ op.touches ∨ op.reads = some x }

namespace Reference

section Local

variable {X : Set Var} {x : Var}

theorem localTo_put (hx : x ∈ X) (v : Option (Option (Data C))) : LocalTo X (put x v) :=
  localTo_update hx v

theorem localTo_read (hx : x ∈ X) : LocalTo X (read (C := C) x) := by
  intro s t hst
  rw [read,read,hst hx]
  rcases t x with _ | _ | d
  · exact .stop _
  · exact .stop _
  · exact .ok ⟨hst,Set.eqOn_refl s _,Set.eqOn_refl t _⟩

theorem localTo_clear (strict : Bool) (hx : x ∈ X) : LocalTo X (clear (C := C) strict x) := by
  cases strict with
  | true => exact localTo_put hx _
  | false => exact localTo_pure ()

theorem localTo_interrupt (t : Throw) (hx : x ∈ X) (d : Data C) : LocalTo X (interrupt t x d) := by
  cases t with
  | construct => exact localTo_put hx _
  | never => exact localTo_pure ()
  | alloc => exact localTo_pure ()

theorem localTo_body {op : Op C} (h : op.mentions ⊆ X) : LocalTo X (body op) := by
  have hput {y : Var} (hy : y ∈ X) (v : Option (Option (Data C))) (r : Option C.Result) :
      LocalTo X (put y v >>= fun _ => pure r) :=
    localTo_bind (localTo_put hy v) fun _ => localTo_pure r
  cases op with
  | defaultConstruct x => exact hput (h (by simp [Op.mentions,Op.touches])) _ _
  | convertConstruct x d => exact hput (h (by simp [Op.mentions,Op.touches])) _ _
  | convertAssign x d => exact hput (h (by simp [Op.mentions,Op.touches])) _ _
  | endOfLife x => exact hput (h (by simp [Op.mentions,Op.touches])) _ _
  | copyConstruct x rhs =>
    exact localTo_bind (localTo_read (h (.inr rfl))) fun d => hput (h (by simp [Op.mentions,Op.touches])) _ _
  | copyAssign x rhs =>
    exact localTo_bind (localTo_read (h (.inr rfl))) fun d => hput (h (by simp [Op.mentions,Op.touches])) _ _
  | moveConstruct x rhs =>
    refine localTo_bind (localTo_read (h (.inr rfl))) fun d => ?_
    exact localTo_bind (localTo_put (h (.inr rfl)) _) fun _ => hput (h (by simp [Op.mentions,Op.touches])) _ _
  | moveAssign x rhs =>
    refine localTo_bind (localTo_read (h (.inr rfl))) fun d => ?_
    exact localTo_bind (localTo_put (h (.inr rfl)) _) fun _ => hput (h (by simp [Op.mentions,Op.touches])) _ _
  | call x m =>
    refine localTo_bind (localTo_read (h (.inr rfl))) fun d => ?_
    exact localTo_bind (localTo_put (h (.inr rfl)) _) fun _ => localTo_pure _

theorem localTo_failing (strict : Bool) (t : Throw) {op : Op C} (h : op.mentions ⊆ X) :
    LocalTo X (failing strict t op) := by
  cases op with
  | defaultConstruct x => exact localTo_body h
  | call x m => exact localTo_body h
  | endOfLife x => exact localTo_body h
  | convertConstruct x d => exact localTo_throw
  | convertAssign x d =>
    exact localTo_bind (localTo_clear strict (h (by simp [Op.mentions,Op.touches]))) fun _ => localTo_throw
  | copyConstruct x rhs => exact localTo_bind (localTo_read (h (.inr rfl))) fun _ => localTo_throw
  | copyAssign x rhs =>
    refine localTo_bind (localTo_read (h (.inr rfl))) fun _ => ?_
    exact localTo_bind (localTo_clear strict (h (by simp [Op.mentions,Op.touches]))) fun _ => localTo_throw
  | moveConstruct x rhs =>
    refine localTo_bind (localTo_read (h (.inr rfl))) fun d => ?_
    exact localTo_bind (localTo_interrupt t (h (.inr rfl)) d) fun _ => localTo_throw
  | moveAssign x rhs =>
    refine localTo_bind (localTo_read (h (.inr rfl))) fun d => ?_
    refine localTo_bind (localTo_clear strict (h (by simp [Op.mentions,Op.touches]))) fun _ => ?_
    exact localTo_bind (localTo_interrupt t (h (.inr rfl)) d) fun _ => localTo_throw

theorem inScope_congr {op : Op C} {s t : State C} (h : Set.EqOn s t op.mentions) :
    op.inScope (alive s) = op.inScope (alive t) := by
  have hwrite {y : Var} (hy : y ∈ op.touches) : alive s y = alive t y := by
    rw [alive,alive,h (.inl hy)]
  have hread {y : Var} (hy : op.reads = some y) : alive s y = alive t y := by
    rw [alive,alive,h (.inr hy)]
  cases op <;> simp_all [Op.inScope,Op.touches,Op.reads]

theorem refuses_congr {op : Op C} {s t : State C} (strict : Bool) (h : Set.EqOn s t op.mentions) :
    refuses strict op s = refuses strict op t := by
  have hempty : emptyAt s op.assigns = emptyAt t op.assigns := by
    cases op <;> simp only [Op.assigns,emptyAt] <;>
      rw [h (show _ ∈ Op.mentions _ from .inl (by simp [Op.touches]))]
  rw [refuses,refuses,hempty]

theorem localTo_eventStep (strict : Bool) (e : Op C × Throw) :
    LocalTo e.1.mentions (eventStep strict e) := by
  refine localTo_ite (fun s t h => by rw [inScope_congr h]) ?_ (localTo_stop Stop.illFormed)
  refine localTo_ite (fun s t h => by rw [refuses_congr strict h]) (localTo_stop Stop.fault) ?_
  exact localTo_ite (fun _ _ _ => Iff.rfl) (localTo_failing strict e.2 subset_rfl) (localTo_body subset_rfl)

end Local

theorem run_independent (strict : Bool) {mine : Op C × Throw → Bool} {X : Set Var}
    {es : List (Op C × Throw)} (hin : ∀ e ∈ es, mine e = true → e.1.mentions ⊆ X)
    (hout : ∀ e ∈ es, mine e = false → e.1.mentions ⊆ Xᶜ) :
    Separates mine X es (run (eventStep strict) es init) (run (eventStep strict) (es.filter mine) init)
      (run (eventStep strict) (es.filter fun e => !mine e) init) :=
  run_separates (localTo_eventStep strict) es hin hout (Set.eqOn_refl _ _) (Set.eqOn_refl _ _)

end Reference

theorem heap_interleavings (mine : Op C × Throw → Bool) (X : Set Var) (es : List (Op C × Throw))
    (hin : ∀ e ∈ es, mine e = true → e.1.mentions ⊆ X)
    (hout : ∀ e ∈ es, mine e = false → e.1.mentions ⊆ Xᶜ) :
    Separates mine X es (view Typeclass.abs (run Typeclass.eventStep es Typeclass.init))
      (view Typeclass.abs (run Typeclass.eventStep (es.filter mine) Typeclass.init))
      (view Typeclass.abs (run Typeclass.eventStep (es.filter fun e => !mine e) Typeclass.init)) := by
  rw [view_of_matches (Typeclass.run_events es),view_of_matches (Typeclass.run_events (es.filter mine)),
    view_of_matches (Typeclass.run_events (es.filter fun e => !mine e))]
  exact Reference.run_independent false hin hout

theorem inplace_interleavings (b : InplaceTypeclass.Build) (mine : Op C × Throw → Bool) (X : Set Var)
    (es : List (Op C × Throw)) (hin : ∀ e ∈ es, mine e = true → e.1.mentions ⊆ X)
    (hout : ∀ e ∈ es, mine e = false → e.1.mentions ⊆ Xᶜ) :
    Separates mine X es
      (view InplaceTypeclass.abs (run (InplaceTypeclass.eventStep b) es InplaceTypeclass.init))
      (view InplaceTypeclass.abs
        (run (InplaceTypeclass.eventStep b) (es.filter mine) InplaceTypeclass.init))
      (view InplaceTypeclass.abs
        (run (InplaceTypeclass.eventStep b) (es.filter fun e => !mine e) InplaceTypeclass.init)) := by
  rw [view_of_matches (InplaceTypeclass.run_events b es),
    view_of_matches (InplaceTypeclass.run_events b (es.filter mine)),
    view_of_matches (InplaceTypeclass.run_events b (es.filter fun e => !mine e))]
  exact Reference.run_independent true hin hout

def interleaved : List (Op Concrete.counter × Throw) :=
  [(.convertConstruct 0 (.count 7),.never),(.convertConstruct 1 (.count 9),.never),(.call 0 (),.never),
    (.convertAssign 1 (.count 3),.construct),(.endOfLife 0,.never)]

def onFirst (e : Op Concrete.counter × Throw) : Bool := e.1.touches.contains 0

theorem interleaved_own : ∀ e ∈ interleaved, onFirst e = true → e.1.mentions ⊆ {0} := by
  simp [interleaved,onFirst,Op.touches,Op.mentions,Op.reads]

theorem interleaved_other : ∀ e ∈ interleaved, onFirst e = false → e.1.mentions ⊆ {0}ᶜ := by
  simp [interleaved,onFirst,Op.touches,Op.mentions,Op.reads]

theorem heap_interleavings_interleaved :
    Separates onFirst {0} interleaved
      (view Typeclass.abs (run Typeclass.eventStep interleaved Typeclass.init))
      (view Typeclass.abs (run Typeclass.eventStep (interleaved.filter onFirst) Typeclass.init))
      (view Typeclass.abs
        (run Typeclass.eventStep (interleaved.filter fun e => !onFirst e) Typeclass.init)) :=
  heap_interleavings onFirst {0} interleaved interleaved_own interleaved_other

theorem inplace_interleavings_interleaved :
    Separates onFirst {0} interleaved
      (view InplaceTypeclass.abs
        (run (InplaceTypeclass.eventStep ⟨true,false⟩) interleaved InplaceTypeclass.init))
      (view InplaceTypeclass.abs
        (run (InplaceTypeclass.eventStep ⟨true,false⟩) (interleaved.filter onFirst) InplaceTypeclass.init))
      (view InplaceTypeclass.abs (run (InplaceTypeclass.eventStep ⟨true,false⟩)
        (interleaved.filter fun e => !onFirst e) InplaceTypeclass.init)) :=
  inplace_interleavings ⟨true,false⟩ onFirst {0} interleaved interleaved_own interleaved_other

end FlexTypeclass.Runtime
