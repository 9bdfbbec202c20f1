import FlexTypeclass.Runtime.ValueSemantics

namespace FlexTypeclass.Runtime.Typeclass
open Lib

variable {C : Concrete}

def eventStep (e : Op C × Throw) : M C (Option C.Result) := step e.2 e.1

def ReadThrows (t : Throw) (s u : State C) (rhs : Var) : Prop :=
  (t = .alloc ∧ u = s) ∨ (t = .construct ∧
    ∃ o d, s.vars rhs = some (some o) ∧ s.impls.value? o = some d ∧ u = s.overwrite o d.interrupted)

def ThrowEffect (t : Throw) (s u : State C) : Op C → Prop
  | .convertConstruct _ _ => u = s
  | .copyConstruct _ _ => u = s
  | .moveConstruct _ rhs => ReadThrows t s u rhs
  | .convertAssign _ _ => u = s
  | .copyAssign _ _ => u = s
  | .moveAssign _ rhs => ReadThrows t s u rhs
  | _ => False

section Bodies

variable {s : State C} {t : Throw} (ht : t ≠ .never)
include ht

theorem makeUnique_throws (d : Data C) : makeUnique t d s = .threw s := by
  cases t with
  | never => exact absurd rfl ht
  | alloc => rfl
  | construct => rfl

variable {y : Var} {o : ObjId} {d : Data C} (hy : s.vars y = some (some o))
  (hd : s.impls.value? o = some d)
include hy hd

theorem clone_throws {β : Type} (k : ObjId → M C β) :
    (do let p ← implBase y; let q ← cloneAsUniquePtr t p; k q) s = .threw s := by
  rw [Exec.bind_ok (implBase_ok hy)]
  apply Exec.bind_threw
  rw [cloneAsUniquePtr,Exec.bind_ok (deref_ok hd)]
  exact makeUnique_throws ht d

theorem moveClone_throws {β : Type} (k : ObjId → M C β) :
    ∃ u, (do let p ← implBase y; let q ← moveCloneAsUniquePtr t p; k q) s = .threw u ∧
      ReadThrows t s u y := by
  cases t with
  | never => exact absurd rfl ht
  | alloc =>
    refine ⟨s,?_,.inl ⟨rfl,rfl⟩⟩
    rw [Exec.bind_ok (implBase_ok hy)]
    apply Exec.bind_threw
    rw [moveCloneAsUniquePtr,Exec.bind_ok (deref_ok hd)]
    rfl
  | construct =>
    refine ⟨s.overwrite o d.interrupted,?_,.inr ⟨rfl,o,d,hy,hd,rfl⟩⟩
    rw [Exec.bind_ok (implBase_ok hy)]
    apply Exec.bind_threw
    rw [moveCloneAsUniquePtr,Exec.bind_ok (deref_ok hd)]
    rfl

end Bodies

section Steps

variable {s u : State C} (hs : Owned s)
include hs

theorem body_throws {t : Throw} (ht : t ≠ .never) (op : Op C) (hscope : op.inScope (alive s) = true) :
    body t op s = body .never op s ∨ ∃ u, body t op s = .threw u ∧ ThrowEffect t s u op := by
  have hread {y : Var} (hop : op.reads = some y) :
      body t op s = body .never op s ∨
        ∃ o d, s.vars y = some (some o) ∧ s.impls.value? o = some d := by
    rcases hv : abs s y with _ | _ | d
    · have hy := Op.reads_alive hscope hop
      simp [alive,abs_none.mp hv] at hy
    · exact .inl (by rw [body_reads_empty hs hop hv,body_reads_empty hs hop hv])
    · obtain ⟨o,ho,hd⟩ := abs_held hv
      exact .inr ⟨o,d,ho,hd⟩
  cases op with
  | defaultConstruct x => exact .inl rfl
  | call x m => exact .inl rfl
  | endOfLife x => exact .inl rfl
  | convertConstruct x d =>
    exact .inr ⟨s,Exec.bind_threw (Exec.bind_threw (makeUnique_throws ht d)),rfl⟩
  | convertAssign x d =>
    exact .inr ⟨s,Exec.bind_threw (Exec.bind_threw (makeUnique_throws ht d)),rfl⟩
  | copyConstruct x rhs =>
    rcases hread rfl with hsame | ⟨o,d,ho,hd⟩
    · exact .inl hsame
    · exact .inr ⟨s,Exec.bind_threw (clone_throws ht ho hd _),rfl⟩
  | copyAssign x rhs =>
    rcases hread rfl with hsame | ⟨o,d,ho,hd⟩
    · exact .inl hsame
    · exact .inr ⟨s,Exec.bind_threw (clone_throws ht ho hd _),rfl⟩
  | moveConstruct x rhs =>
    rcases hread rfl with hsame | ⟨o,d,ho,hd⟩
    · exact .inl hsame
    · obtain ⟨u,hu,heff⟩ := moveClone_throws ht ho hd (fun q => setImplBase x (some (some q)))
      exact .inr ⟨u,Exec.bind_threw hu,heff⟩
  | moveAssign x rhs =>
    rcases hread rfl with hsame | ⟨o,d,ho,hd⟩
    · exact .inl hsame
    · obtain ⟨u,hu,heff⟩ := moveClone_throws ht ho hd (reset x)
      exact .inr ⟨u,Exec.bind_threw hu,heff⟩

theorem step_events (t : Throw) (op : Op C) :
    step t op s = step .never op s ∨ ∃ u, step t op s = .threw u ∧ ThrowEffect t s u op := by
  by_cases ht : t = .never
  · exact .inl (by rw [ht])
  · rw [step,step]
    split
    · exact body_throws hs ht op ‹_›
    · exact .inl rfl

theorem event_ok {t : Throw} {op : Op C} {r : Option C.Result} (h : step t op s = .ok r u) :
    step .never op s = .ok r u := by
  rcases step_events hs t op with hsame | ⟨v,hv,-⟩
  · exact hsame ▸ h
  · rw [hv] at h
    cases h

theorem event_threw {t : Throw} {op : Op C} (h : step t op s = .threw u) : ThrowEffect t s u op := by
  rcases step_events hs t op with hsame | ⟨v,hv,heff⟩
  · rw [hsame] at h
    exact absurd h (step_never_threw hs)
  · rw [hv] at h
    cases h
    exact heff

theorem readThrows_owned {t : Throw} {rhs : Var} (h : ReadThrows t s u rhs) : Owned u := by
  rcases h with ⟨-,rfl⟩ | ⟨-,o,d,ho,-,rfl⟩
  · exact hs
  · exact owned_overwrite hs ho _

theorem threw_owned {t : Throw} {op : Op C} (h : ThrowEffect t s u op) : Owned u := by
  cases op with
  | defaultConstruct x => exact h.elim
  | call x m => exact h.elim
  | endOfLife x => exact h.elim
  | convertConstruct x d => exact h ▸ hs
  | copyConstruct x rhs => exact h ▸ hs
  | convertAssign x d => exact h ▸ hs
  | copyAssign x rhs => exact h ▸ hs
  | moveConstruct x rhs => exact readThrows_owned hs h
  | moveAssign x rhs => exact readThrows_owned hs h

end Steps

theorem owned_events : Preserved (eventStep (C := C)) (fun _ => True) Owned where
  ok _ hs h := (step_ok_reference hs (event_ok hs h)).1
  threw _ hs h := threw_owned hs (event_threw hs h)

-- The objects alive are one-to-one with the variables that hold one.
structure OneToOne (s : State C) : Prop extends Owned s where
  noneLeft : (∀ x, s.vars x = none) → s.impls.alive = 0

theorem oneToOne_of_owned {s : State C} (hs : Owned s) : OneToOne s where
  toOwned := hs
  noneLeft hgone := by
    rw [Ledger.alive,List.countP_eq_zero]
    intro c hc hlive
    obtain ⟨o,ho,rfl⟩ := List.getElem_of_mem hc
    have hvalue : s.impls.value? o = some s.impls[o].value := by
      simpa [Ledger.value?,List.getElem?_eq_getElem ho] using hlive
    obtain ⟨x,hx⟩ := hs.owner hvalue
    rw [hgone x] at hx
    cases hx

structure Kept (s u : State C) (x : Var) : Prop where
  object : u.vars x = s.vars x
  value : abs u x = abs s x

structure StrongGuarantee (t : Throw) (op : Op C) (s u : State C) (x : Var) : Prop where
  object : u.vars x = s.vars x
  target : ¬ (op = .moveAssign x x ∧ t = .construct) → Kept s u x
  source : ∀ rhs, op = .copyAssign x rhs → Kept s u rhs
  interrupted : op = .moveAssign x x → t = .construct →
    ∃ d, abs s x = some (some d) ∧ abs u x = some (some d.interrupted)

theorem strongGuarantee_same {t : Throw} {op : Op C} (s : State C) {x : Var}
    (h : ∀ rhs, op ≠ .moveAssign x rhs) : StrongGuarantee t op s s x :=
  ⟨rfl,fun _ => ⟨rfl,rfl⟩,fun _ _ => ⟨rfl,rfl⟩,fun hop => absurd hop (h x)⟩

theorem strongGuarantee_move {t : Throw} {s u : State C} (hs : Owned s) {x rhs : Var}
    (h : ReadThrows t s u rhs) : StrongGuarantee t (.moveAssign x rhs) s u x := by
  rcases h with ⟨rfl,rfl⟩ | ⟨rfl,o,d,ho,hd,rfl⟩
  · exact ⟨rfl,fun _ => ⟨rfl,rfl⟩,fun _ _ => ⟨rfl,rfl⟩,fun _ ht => by cases ht⟩
  · have habs := abs_overwrite hs ho d.interrupted
    refine ⟨rfl,fun hself => ⟨rfl,?_⟩,?_,?_⟩
    · have hx : x ≠ rhs := by
        rintro rfl
        exact hself ⟨rfl,rfl⟩
      rw [habs,Function.update_of_ne hx]
    · intro y hop
      cases hop
    · intro hop _
      cases hop
      exact ⟨d,abs_of_held ho hd,by rw [habs,Function.update_self]⟩

theorem failed_assignment_keeps {t : Throw} {op : Op C} {s u : State C} {x : Var} (hs : Owned s)
    (hop : op.assigns = some x) (h : step t op s = .threw u) : StrongGuarantee t op s u x := by
  have heff := event_threw hs h
  cases op <;> simp only [Op.assigns,Option.some.injEq,reduceCtorEq] at hop <;> subst hop
  · obtain rfl := heff
    exact strongGuarantee_same u (by simp)
  · obtain rfl := heff
    exact strongGuarantee_same u (by simp)
  · exact strongGuarantee_move hs heff

theorem heap_ownership (es : List (Op C × Throw)) (s : State C) (h : Reaches eventStep init es s) :
    OneToOne s ∧ ∀ op t u x, op.assigns = some x → step t op s = .threw u →
      StrongGuarantee t op s u x := by
  have hs := owned_events.reaches (fun _ _ => trivial) owned_init h
  exact ⟨oneToOne_of_owned hs,fun _ _ _ _ hop hthrew => failed_assignment_keeps hs hop hthrew⟩

def heldState : State Concrete.counter := init.attach 0 (.count 7)

theorem heap_ownership_held :
    OneToOne heldState ∧ ∀ op t u x, op.assigns = some x → step t op heldState = .threw u →
      StrongGuarantee t op heldState u x :=
  heap_ownership [(.convertConstruct 0 (.count 7),.never)] heldState rfl

theorem self_move_throws :
    ∃ s u : State Concrete.counter,
      Reaches eventStep init [(.convertConstruct 0 (.count 7),.never)] s ∧
      step .construct (.moveAssign 0 0) s = .threw u ∧
      abs s 0 = some (some (.count 7)) ∧ abs u 0 = some (some (.count 0)) :=
  ⟨heldState,heldState.overwrite 0 (.count 0),rfl,rfl,rfl,rfl⟩

end FlexTypeclass.Runtime.Typeclass
