import FlexTypeclass.Runtime.HeapSimulation

namespace FlexTypeclass.Runtime.Typeclass
open Lib

variable {C : Concrete}

structure ValueSemantics (C : Concrete) : Prop where
  agrees : ∀ ops : List (Op C),
    observe (run (step .never) ops init) = observe (run Reference.step ops Reference.init)
  states : ∀ {ops : List (Op C)} {s}, Reaches (step .never) init ops s →
    Reaches Reference.step Reference.init ops (abs s)
  effects : ∀ {ops : List (Op C)} {op s t r}, Reaches (step .never) init ops s →
    step .never op s = .ok r t → Reference.Effect (abs s) (abs t) r op
  selfCopy : ∀ {ops : List (Op C)} {x s t r}, Reaches (step .never) init ops s →
    step .never (.copyAssign x x) s = .ok r t → abs t = abs s
  selfMove : ∀ {ops : List (Op C)} {x s t r}, Reaches (step .never) init ops s →
    step .never (.moveAssign x x) s = .ok r t → abs t = abs s
  independent : ∀ {ops later : List (Op C)} {s t y}, Reaches (step .never) init ops s →
    Reaches (step .never) s later t → (∀ op ∈ later, y ∉ op.touches) → abs t y = abs s y
  neverEmptied : ∀ {ops later : List (Op C)} {s t y}, Reaches (step .never) init ops s →
    Reference.Held (abs s) y → Reaches (step .never) s later t →
    (∀ op ∈ later, op.ends ≠ some y) → Reference.Held (abs t) y
  faults : ∀ ops : List (Op C), (run (step .never) ops init).2 = .error .fault ↔
    ∃ pre op post s, ops = pre ++ op :: post ∧ Reaches (step .never) init pre s ∧
      op.inScope (alive s) = true ∧ ∃ y, op.reads = some y ∧ abs s y = some none

theorem owned_reaches {ops : List (Op C)} {s : State C} (h : Reaches (step .never) init ops s) :
    Owned s ∧ Reaches Reference.step Reference.init ops (abs s) := by
  obtain ⟨t,ht,hs,rfl⟩ := (run_simulates ops).of_ok h
  exact ⟨hs,ht⟩

theorem step_ok_reference {op : Op C} {s t : State C} {r : Option C.Result} (hs : Owned s)
    (h : step .never op s = .ok r t) : Owned t ∧ Reference.step op (abs s) = .ok r (abs t) := by
  have hm := step_matches op ⟨hs,rfl⟩
  rw [h] at hm
  obtain ⟨q,hq,ht,rfl⟩ := hm.of_ok
  exact ⟨ht,hq⟩

theorem step_never_threw {op : Op C} {s t : State C} (hs : Owned s) :
    step .never op s ≠ .threw t := by
  intro h
  have hm := step_matches op ⟨hs,rfl⟩
  rw [h] at hm
  obtain ⟨q,hq,-⟩ := hm.of_threw
  exact Reference.noThrow_step op _ _ hq

theorem step_stop_reference {op : Op C} {s : State C} {e : Stop} (hs : Owned s) :
    step .never op s = .stop e ↔ Reference.step op (abs s) = .stop e :=
  (step_matches op ⟨hs,rfl⟩).stop_iff

theorem reaches_later {P : Reference.State C → Prop} {Q : Op C → Prop} {s t : State C}
    {later : List (Op C)} (hs : Owned s) (hP : P (abs s)) (hr : Reaches (step .never) s later t)
    (hQ : ∀ op ∈ later, Q op)
    (hstep : ∀ {op u v r}, Q op → P u → Reference.step op u = .ok r v → P v) : P (abs t) := by
  have hpres : Preserved (step .never) Q (fun u : State C => Owned u ∧ P (abs u)) := by
    constructor
    · rintro op u r v hop ⟨hu,hPu⟩ hok
      obtain ⟨hv,href⟩ := step_ok_reference hu hok
      exact ⟨hv,hstep hop hPu href⟩
    · rintro op u v - ⟨hu,-⟩ hthrew
      exact absurd hthrew (step_never_threw hu)
  exact (hpres.reaches hQ ⟨hs,hP⟩ hr).2

theorem heap_value_semantics (C : Concrete) : ValueSemantics C where
  agrees ops := (run_simulates ops).observe
  states h := (owned_reaches h).2
  effects h hstep := Reference.step_effect (step_ok_reference (owned_reaches h).1 hstep).2
  selfCopy h hstep := by
    obtain ⟨d,hd,ht⟩ := Reference.step_effect (step_ok_reference (owned_reaches h).1 hstep).2
    rw [ht,← hd,Function.update_eq_self]
  selfMove h hstep := by
    obtain ⟨d,hd,ht⟩ := Reference.step_effect (step_ok_reference (owned_reaches h).1 hstep).2
    rw [ht,Function.update_idem,← hd,Function.update_eq_self]
  independent {ops later s t y} h hr hlater :=
    reaches_later (P := fun u => u y = abs s y) (Q := fun op => y ∉ op.touches) (owned_reaches h).1
      rfl hr hlater (fun hy hu hstep => (Reference.step_frame hstep hy).trans hu)
  neverEmptied h hheld hr hlater :=
    reaches_later (owned_reaches h).1 hheld hr hlater
      (fun hy hu hstep => Reference.step_held hstep hu hy)
  faults ops := by
    rw [run_error_iff]
    constructor
    · rintro ⟨pre,op,post,s,rfl,hr,hstop⟩
      have hs := (owned_reaches hr).1
      have hf := Reference.step_fault_iff.mp ((step_stop_reference hs).mp hstop)
      rw [alive_abs] at hf
      exact ⟨pre,op,post,s,rfl,hr,hf⟩
    · rintro ⟨pre,op,post,s,rfl,hr,hf⟩
      have hs := (owned_reaches hr).1
      rw [← alive_abs] at hf
      exact ⟨pre,op,post,s,rfl,hr,(step_stop_reference hs).mpr (Reference.step_fault_iff.mpr hf)⟩

end FlexTypeclass.Runtime.Typeclass
