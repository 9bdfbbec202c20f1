import FlexTypeclass.Runtime.Lifetime

namespace FlexTypeclass.Runtime.InplaceTypeclass
open Lib

variable {C : Concrete} {b : Build}

def eventStep (b : Build) (e : Op C × Throw) : M C (Option C.Result) := step b e.2 e.1

def ThrowEffect (s u : State C) : Op C → Prop
  | .convertConstruct x _ => u = (s.enter x).leave x
  | .copyConstruct x rhs => Holds s rhs ∧ u = (s.enter x).leave x
  | .moveConstruct x rhs =>
      ∃ v i e, Stores s rhs v i e ∧ u = ((s.enter x).overwrite i e.interrupted).leave x
  | .convertAssign x _ => ∃ w o c, Stores s x w o c ∧ u = s.kill o
  | .copyAssign x rhs => x ≠ rhs ∧ Holds s rhs ∧ ∃ w o c, Stores s x w o c ∧ u = s.kill o
  | .moveAssign x rhs =>
      x ≠ rhs ∧ ∃ w o c v i e, Stores s x w o c ∧ Stores s rhs v i e ∧
        u = (s.kill o).overwrite i e.interrupted
  | _ => False

section Bodies

variable {s : State C} (hs : SelfContained b s) {x y : Var} {w v : Wrapper} {o i : ObjId}
  {d e : Data C}
include hs

theorem clone_throws (hy : Stores s y v i e) {β : Type} (k : Addr → M C β) :
    (do let p ← implBase b y; let q ← cloneAsRawPtr .construct p x; k q) s = .threw s := by
  rw [Exec.bind_ok (implBase_stores hs hy)]
  apply Exec.bind_threw
  rw [cloneAsRawPtr,Exec.bind_ok (deref_stores hy)]
  rfl

theorem moveClone_throws (hy : Stores s y v i e) {β : Type} (k : Addr → M C β) :
    (do let p ← implBase b y; let q ← moveCloneAsRawPtr .construct p x; k q) s =
      .threw (s.overwrite i e.interrupted) := by
  rw [Exec.bind_ok (implBase_stores hs hy)]
  apply Exec.bind_threw
  rw [moveCloneAsRawPtr,Exec.bind_ok (deref_stores hy)]
  rfl

omit hs in
theorem body_convertConstruct_throws (x : Var) (d : Data C) :
    body b .construct (.convertConstruct x d) s = .threw ((s.enter x).leave x) :=
  Exec.bind_threw (constructing_threw (u := s.enter x) rfl)

theorem body_copyConstruct_throws (hyx : y ≠ x) (hy : Stores s y v i e) :
    body b .construct (.copyConstruct x y) s = .threw ((s.enter x).leave x) :=
  Exec.bind_threw (constructing_threw
    (clone_throws (selfContained_enter hs x) (stores_enter hyx hy) _))

theorem body_moveConstruct_throws (hyx : y ≠ x) (hy : Stores s y v i e) :
    body b .construct (.moveConstruct x y) s =
      .threw (((s.enter x).overwrite i e.interrupted).leave x) :=
  Exec.bind_threw (constructing_threw
    (moveClone_throws (selfContained_enter hs x) (stores_enter hyx hy) _))

theorem body_convertAssign_throws (hx : Stores s x w o d) (e : Data C) :
    body b .construct (.convertAssign x e) s = .threw (s.kill o) := by
  apply Exec.bind_threw
  rw [convertingAssignment,replace_stores hs hx]
  rfl

theorem body_copyAssign_throws (hyx : y ≠ x) (hx : Stores s x w o d) (hy : Stores s y v i e) :
    body b .construct (.copyAssign x y) s = .threw (s.kill o) := by
  apply Exec.bind_threw
  rw [copyAssignment,replace_stores hs hx]
  exact clone_throws (selfContained_kill hs o) (stores_kill hs hyx hx hy) _

theorem body_moveAssign_throws (hyx : y ≠ x) (hx : Stores s x w o d) (hy : Stores s y v i e) :
    body b .construct (.moveAssign x y) s = .threw ((s.kill o).overwrite i e.interrupted) := by
  apply Exec.bind_threw
  rw [moveAssignment,replace_stores hs hx]
  exact moveClone_throws (selfContained_kill hs o) (stores_kill hs hyx hx hy) _

theorem body_construct (op : Op C) (hscope : op.inScope (alive s) = true) :
    body b .construct op s = body b .never op s ∨
      ∃ u, body b .construct op s = .threw u ∧ ThrowEffect s u op := by
  have hread {y : Var} (hop : op.reads = some y) :
      body b .construct op s = body b .never op s ∨ Holds s y :=
    (alive_cases (Op.reads_alive hscope hop)).imp_left fun h => by
      rw [body_reads_empty hs hop hscope h,body_reads_empty hs hop hscope h]
  have htarget {x : Var} (hop : op.assigns = some x) :
      body b .construct op s = body b .never op s ∨ Holds s x :=
    (alive_cases (Op.assigns_alive hscope hop)).imp_left fun h => by
      rw [body_assigns_empty hs hop h,body_assigns_empty hs hop h]
  have hself (hop : op.selfAssigns = true) : body b .construct op s = body b .never op s := by
    rw [body_selfAssigns hs hop hscope,body_selfAssigns hs hop hscope]
  cases op with
  | defaultConstruct x => exact .inl rfl
  | call x m => exact .inl rfl
  | endOfLife x => exact .inl rfl
  | convertConstruct x d => exact .inr ⟨_,body_convertConstruct_throws x d,rfl⟩
  | copyConstruct x rhs =>
    have hyx := fresh_ne (Op.constructs_dead hscope rfl) (Op.reads_alive hscope rfl)
    rcases hread rfl with hsame | ⟨v,i,e,hy⟩
    · exact .inl hsame
    · exact .inr ⟨_,body_copyConstruct_throws hs hyx hy,⟨v,i,e,hy⟩,rfl⟩
  | moveConstruct x rhs =>
    have hyx := fresh_ne (Op.constructs_dead hscope rfl) (Op.reads_alive hscope rfl)
    rcases hread rfl with hsame | ⟨v,i,e,hy⟩
    · exact .inl hsame
    · exact .inr ⟨_,body_moveConstruct_throws hs hyx hy,v,i,e,hy,rfl⟩
  | convertAssign x d =>
    rcases htarget rfl with hsame | ⟨w,o,c,hx⟩
    · exact .inl hsame
    · exact .inr ⟨_,body_convertAssign_throws hs hx d,w,o,c,hx,rfl⟩
  | copyAssign x rhs =>
    by_cases hxy : x = rhs
    · exact .inl (hself (beq_iff_eq.mpr hxy))
    rcases htarget rfl with hsame | ⟨w,o,c,hx⟩
    · exact .inl hsame
    rcases hread rfl with hsame | ⟨v,i,e,hy⟩
    · exact .inl hsame
    exact .inr ⟨_,body_copyAssign_throws hs (Ne.symm hxy) hx hy,hxy,⟨v,i,e,hy⟩,w,o,c,hx,rfl⟩
  | moveAssign x rhs =>
    by_cases hxy : x = rhs
    · exact .inl (hself (beq_iff_eq.mpr hxy))
    rcases htarget rfl with hsame | ⟨w,o,c,hx⟩
    · exact .inl hsame
    rcases hread rfl with hsame | ⟨v,i,e,hy⟩
    · exact .inl hsame
    exact .inr ⟨_,body_moveAssign_throws hs (Ne.symm hxy) hx hy,hxy,w,o,c,v,i,e,hx,hy,rfl⟩

end Bodies

section Events

variable {s u : State C} {t : Throw} {op : Op C} {r : Option C.Result} (hs : SelfContained b s)
include hs

theorem step_events (t : Throw) (op : Op C) :
    Matches (Simulates b) (step b t op s) (Reference.strictStep op (abs s)) ∨
      ∃ u, step b t op s = .threw u ∧ op.inScope (alive s) = true ∧ ThrowEffect s u op := by
  by_cases ht : t = .construct
  · have hnever : Matches (Simulates b) (step b .never op s) (Reference.strictStep op (abs s)) :=
      step_matches (by decide) op ⟨hs,rfl⟩
    rw [ht]
    rw [step] at hnever ⊢
    split
    · rename_i hscope
      rw [if_pos hscope] at hnever
      rcases body_construct hs op hscope with hsame | ⟨v,hv,heff⟩
      · exact .inl (hsame ▸ hnever)
      · exact .inr ⟨v,hv,hscope,heff⟩
    · rename_i hscope
      rw [if_neg hscope] at hnever
      exact .inl hnever
  · exact .inl (step_matches ht op ⟨hs,rfl⟩)

theorem event_ok (h : step b t op s = .ok r u) :
    SelfContained b u ∧ Reference.strictStep op (abs s) = .ok r (abs u) := by
  rcases step_events hs t op with hm | ⟨v,hv,-⟩
  · rw [h] at hm
    obtain ⟨q,hq,hu,rfl⟩ := hm.of_ok
    exact ⟨hu,hq⟩
  · rw [hv] at h
    cases h

theorem event_threw (h : step b t op s = .threw u) :
    op.inScope (alive s) = true ∧ ThrowEffect s u op := by
  rcases step_events hs t op with hm | ⟨v,hv,heff⟩
  · rw [h] at hm
    obtain ⟨q,hq,-⟩ := hm.of_threw
    exact absurd hq (Reference.noThrow_strictStep op _ _)
  · rw [hv] at h
    cases h
    exact heff

theorem threw_selfContained (h : ThrowEffect s u op) : SelfContained b u := by
  cases op with
  | defaultConstruct x => exact h.elim
  | call x m => exact h.elim
  | endOfLife x => exact h.elim
  | convertConstruct x d =>
    obtain rfl := h
    exact selfContained_leave (selfContained_enter hs x) x
  | copyConstruct x rhs =>
    obtain ⟨-,rfl⟩ := h
    exact selfContained_leave (selfContained_enter hs x) x
  | moveConstruct x rhs =>
    obtain ⟨v,i,e,-,rfl⟩ := h
    exact selfContained_leave (selfContained_overwrite (selfContained_enter hs x) i _) x
  | convertAssign x d =>
    obtain ⟨w,o,c,-,rfl⟩ := h
    exact selfContained_kill hs o
  | copyAssign x rhs =>
    obtain ⟨-,-,w,o,c,-,rfl⟩ := h
    exact selfContained_kill hs o
  | moveAssign x rhs =>
    obtain ⟨-,w,o,c,v,i,e,-,-,rfl⟩ := h
    exact selfContained_overwrite (selfContained_kill hs o) i _

theorem threw_empties {x : Var} (hop : op.assigns = some x) (h : ThrowEffect s u op) :
    abs u x = some none := by
  cases op <;> simp only [Op.assigns,Option.some.injEq,reduceCtorEq] at hop <;> subst hop
  · obtain ⟨w,o,c,hx,rfl⟩ := h
    rw [abs_kill hs hx,Function.update_self]
  · obtain ⟨-,-,w,o,c,hx,rfl⟩ := h
    rw [abs_kill hs hx,Function.update_self]
  · obtain ⟨hself,w,o,c,v,i,e,hx,hy,rfl⟩ := h
    rw [abs_overwrite (selfContained_kill hs o) (stores_kill hs (Ne.symm hself) hx hy),
      Function.update_of_ne hself,abs_kill hs hx,Function.update_self]

theorem threw_keeps_empty {y : Var} (hscope : op.inScope (alive s) = true)
    (h : ThrowEffect s u op) (hy : abs s y = some none) : abs u y = some none := by
  have hheld {z : Var} {w : Wrapper} {o : ObjId} {c : Data C} (hz : Stores s z w o c) : y ≠ z := by
    rintro rfl
    exact empty_not_holds hy ⟨w,o,c,hz⟩
  have hfresh {x : Var} (hop : op.constructs = some x) : y ≠ x :=
    fresh_ne (Op.constructs_dead hscope hop) (empty_alive hy)
  cases op with
  | defaultConstruct x => exact h.elim
  | call x m => exact h.elim
  | endOfLife x => exact h.elim
  | convertConstruct x d =>
    obtain rfl := h
    have hyx := hfresh rfl
    rw [abs_leave,abs_enter,Function.update_of_ne hyx,Function.update_of_ne hyx,hy]
  | copyConstruct x rhs =>
    obtain ⟨-,rfl⟩ := h
    have hyx := hfresh rfl
    rw [abs_leave,abs_enter,Function.update_of_ne hyx,Function.update_of_ne hyx,hy]
  | moveConstruct x rhs =>
    obtain ⟨v,i,e,hrhs,rfl⟩ := h
    have hyx := hfresh rfl
    have hrx : rhs ≠ x := fresh_ne (Op.constructs_dead hscope rfl) (Op.reads_alive hscope rfl)
    rw [abs_leave,abs_overwrite (selfContained_enter hs x) (stores_enter hrx hrhs),abs_enter,
      Function.update_of_ne hyx,Function.update_of_ne (hheld hrhs),Function.update_of_ne hyx,hy]
  | convertAssign x d =>
    obtain ⟨w,o,c,hx,rfl⟩ := h
    rw [abs_kill hs hx,Function.update_of_ne (hheld hx),hy]
  | copyAssign x rhs =>
    obtain ⟨-,-,w,o,c,hx,rfl⟩ := h
    rw [abs_kill hs hx,Function.update_of_ne (hheld hx),hy]
  | moveAssign x rhs =>
    obtain ⟨hself,w,o,c,v,i,e,hx,hrhs,rfl⟩ := h
    rw [abs_overwrite (selfContained_kill hs o) (stores_kill hs (Ne.symm hself) hx hrhs),
      Function.update_of_ne (hheld hrhs),abs_kill hs hx,Function.update_of_ne (hheld hx),hy]

end Events

theorem selfContained_events (b : Build) :
    Preserved (eventStep (C := C) b) (fun _ => True) (SelfContained b) where
  ok _ hs h := (event_ok hs h).1
  threw _ hs h := threw_selfContained hs (event_threw hs h).2

theorem selfContained_reaches {es : List (Op C × Throw)} {s : State C}
    (h : Reaches (eventStep b) init es s) : SelfContained b s :=
  (selfContained_events b).reaches (fun _ _ => trivial) (selfContained_init b) h

theorem empty_events (b : Build) (x : Var) :
    Preserved (eventStep (C := C) b) (fun e => e.1.ends ≠ some x)
      (fun s => SelfContained b s ∧ abs s x = some none) where
  ok hend hs h := by
    obtain ⟨ht,href⟩ := event_ok hs.1 h
    exact ⟨ht,Reference.strict_keeps_empty href hs.2 hend⟩
  threw _ hs h := by
    obtain ⟨hscope,heff⟩ := event_threw hs.1 h
    exact ⟨threw_selfContained hs.1 heff,threw_keeps_empty hs.1 hscope heff hs.2⟩

theorem empty_faults {s : State C} {x : Var} {op : Op C} (hs : SelfContained b s)
    (hx : abs s x = some none) (hscope : op.inScope (alive s) = true)
    (hop : op.reads = some x ∨ op.assigns = some x) (t : Throw) :
    step b t op s = .stop .fault := by
  rw [step,if_pos hscope]
  rcases hop with hop | hop
  · exact body_reads_empty hs hop hscope hx t
  · exact body_assigns_empty hs hop hx t

theorem failed_assignment_unusable (b : Build) (es : List (Op C × Throw)) (s u : State C)
    (op : Op C) (x : Var) (hs : Reaches (eventStep b) init es s) (hop : op.assigns = some x)
    (h : step b .construct op s = .threw u) :
    ¬ Holds u x ∧ ∀ (later : List (Op C × Throw)) (t : State C), Reaches (eventStep b) u later t →
      (∀ e ∈ later, e.1.ends ≠ some x) →
        ¬ Holds t x ∧ ∀ op' th, op'.reads = some x ∨ op'.assigns = some x →
          op'.inScope (alive t) = true → step b th op' t = .stop .fault := by
  have hself := selfContained_reaches hs
  have heff := (event_threw hself h).2
  have hu : SelfContained b u ∧ abs u x = some none :=
    ⟨threw_selfContained hself heff,threw_empties hself hop heff⟩
  refine ⟨empty_not_holds hu.2,fun later t hr hlater => ?_⟩
  obtain ⟨ht,hx⟩ := (empty_events b x).reaches hlater hu hr
  exact ⟨empty_not_holds hx,fun op' th hop' hscope => empty_faults ht hx hscope hop' th⟩

def heldState (b : Build) : State Concrete.counter :=
  (init.enter 0).attach b 0 emptyWrapper (.count 7)

theorem heldState_reached (b : Build) :
    Reaches (eventStep b) init [(.convertConstruct 0 (.count 7),.never)] (heldState b) :=
  reaches_cons.mpr ⟨_,.inl ⟨none,body_convertConstruct (by decide) 0 _⟩,reaches_nil.mpr rfl⟩

theorem heldState_holds (b : Build) : Holds (heldState b) 0 := ⟨_,_,_,rfl,rfl,rfl⟩

theorem failed_assignment_unusable_convert :
    ¬ Holds ((heldState ⟨true,false⟩).kill 0) 0 :=
  (failed_assignment_unusable ⟨true,false⟩ [(.convertConstruct 0 (.count 7),.never)]
    (heldState ⟨true,false⟩) ((heldState ⟨true,false⟩).kill 0) (.convertAssign 0 (.count 9)) 0
    (heldState_reached _) rfl rfl).1

theorem failed_assignment_then_call :
    ∃ s u : State Concrete.counter,
      Reaches (eventStep ⟨true,false⟩) init [(.convertConstruct 0 (.count 7),.never)] s ∧
      Holds s 0 ∧ step ⟨true,false⟩ .construct (.convertAssign 0 (.count 9)) s = .threw u ∧
      ¬ Holds u 0 ∧ step ⟨true,false⟩ .never (.call 0 ()) u = .stop .fault :=
  ⟨heldState ⟨true,false⟩,(heldState ⟨true,false⟩).kill 0,heldState_reached _,heldState_holds _,rfl,
    empty_not_holds rfl,rfl⟩

end FlexTypeclass.Runtime.InplaceTypeclass
