import FlexTypeclass.Lib.Tally
import FlexTypeclass.Runtime.SelfContainment

namespace FlexTypeclass.Runtime.InplaceTypeclass
open Lib

variable {C : Concrete} {b : Build}

def built (e : Op C × Throw) : Obs (Option C.Result) → Nat
  | .done _ => births e.1
  | .threw => 0

def lost (e : Op C × Throw) : Obs (Option C.Result) → Nat
  | .done _ => 0
  | .threw => if e.1.assigns.isSome then 1 else 0

section Steps

variable {s u : State C} {t : Throw} {op : Op C} {r : Option C.Result}

theorem ok_never (hs : SelfContained b s) (h : step b t op s = .ok r u) :
    step b .never op s = .ok r u := by
  have hscope : op.inScope (alive s) = true := by
    rw [step] at h
    split at h
    · assumption
    · cases h
  rw [step,if_pos hscope] at h ⊢
  by_cases ht : t = .construct
  · subst ht
    rcases body_construct hs op hscope with hsame | ⟨v,hv,-⟩
    · rw [← hsame,h]
    · rw [hv] at h
      cases h
  · have hcases : t = .never ∨ t = .alloc := by cases t <;> simp_all
    rcases hcases with rfl | rfl
    · exact h
    · cases op <;> exact h

theorem alive_threw (h : ThrowEffect s u op) :
    u.impls.alive + (if op.assigns.isSome then 1 else 0) = s.impls.alive := by
  cases op with
  | defaultConstruct x => exact h.elim
  | call x m => exact h.elim
  | endOfLife x => exact h.elim
  | convertConstruct x d => obtain rfl := h; rfl
  | copyConstruct x rhs => obtain ⟨-,rfl⟩ := h; rfl
  | moveConstruct x rhs =>
    obtain ⟨v,i,e,-,rfl⟩ := h
    exact alive_overwrite (s.enter x) i _
  | convertAssign x d =>
    obtain ⟨w,o,c,hx,rfl⟩ := h
    exact alive_kill hx
  | copyAssign x rhs =>
    obtain ⟨-,-,w,o,c,hx,rfl⟩ := h
    exact alive_kill hx
  | moveAssign x rhs =>
    obtain ⟨-,w,o,c,v,i,e,hx,-,rfl⟩ := h
    rw [alive_overwrite]
    exact alive_kill hx

end Steps

theorem events_account (b : Build) :
    Accounts (eventStep (C := C) b) (SelfContained b) (fun s => s.impls.alive) built lost where
  kept := selfContained_events b
  ok hs h := alive_effect (step_effect hs (by decide) (ok_never hs h))
  threw hs h := alive_threw (event_threw hs h).2

theorem inplace_accounting (b : Build) (es : List (Op C × Throw)) (s : State C)
    (h : Reaches (eventStep b) init es s) :
    s.impls.alive + tally lost es (run (eventStep b) es init).1 =
      tally built es (run (eventStep b) es init).1 := by
  have hbalance := (events_account b).run (selfContained_init b) h
  have hnone : (init : State C).impls.alive = 0 := rfl
  rwa [hnone,Nat.zero_add] at hbalance

theorem inplace_accounting_held :
    (heldState ⟨true,false⟩).impls.alive +
      tally lost [(.convertConstruct 0 (.count 7),.never)]
        (run (eventStep ⟨true,false⟩) [(.convertConstruct 0 (.count 7),.never)] init).1 =
      tally built [(.convertConstruct 0 (.count 7),.never)]
        (run (eventStep ⟨true,false⟩) [(.convertConstruct 0 (.count 7),.never)] init).1 :=
  inplace_accounting ⟨true,false⟩ _ _ (heldState_reached _)

end FlexTypeclass.Runtime.InplaceTypeclass
