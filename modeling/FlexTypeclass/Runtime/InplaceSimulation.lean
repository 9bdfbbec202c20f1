import FlexTypeclass.Runtime.Storage

namespace FlexTypeclass.Runtime.InplaceTypeclass
open Lib

variable {C : Concrete} {b : Build} {s : State C}

theorem wrapper_ok {x : Var} {w : Wrapper} (h : s.vars x = some w) : wrapper x s = .ok w s := by
  simp [wrapper,h]

theorem implBase_ok {x : Var} {w : Wrapper} (h : s.vars x = some w) :
    implBase b x s = .ok (if b.launder then some x else w.implBase) s := by
  rw [implBase,Exec.bind_ok (wrapper_ok h)]
  rfl

theorem implBase_stores (hs : SelfContained b s) {x : Var} {w : Wrapper} {o : ObjId} {d : Data C}
    (h : Stores s x w o d) : implBase b x s = .ok (some x) s := by
  rw [implBase_ok h.1]
  cases hb : b.launder with
  | true => rfl
  | false =>
    cases hp : w.implBase with
    | none =>
      have hnone := (hs.saved h.1 hb).mp hp
      rw [h.2.1] at hnone
      cases hnone
    | some y => rw [hs.self h.1 hp]; rfl

theorem deref_stores {x : Var} {w : Wrapper} {o : ObjId} {d : Data C} (h : Stores s x w o d) :
    deref (some x) s = .ok (o,d) s := by
  simp [deref,h.1,h.2.1,h.2.2]

theorem deref_empty (hs : SelfContained b s) {x : Var} (h : abs s x = some none) :
    ∃ p, implBase b x s = .ok p s ∧ deref p s = .stop .fault := by
  obtain ⟨w,hw⟩ := alive_wrapper (empty_alive h)
  refine ⟨_,implBase_ok hw,?_⟩
  have hown : deref (some x) s = .stop .fault := by
    simp only [deref,hw,Option.bind_some]
    cases ho : w.storage with
    | none => rfl
    | some o =>
      have hdead : s.impls.value? o = none := by simpa [abs,hw,ho] using h
      simp [hdead]
  split
  · exact hown
  · cases hp : w.implBase with
    | none => rfl
    | some y => rw [hs.self hw hp]; exact hown

theorem assertSet_stores (hs : SelfContained b s) {x : Var} {w : Wrapper} {o : ObjId} {d : Data C}
    (h : Stores s x w o d) : assertSet b x s = .ok () s := by
  rw [assertSet]
  split
  · rfl
  · rw [Exec.bind_ok (implBase_stores hs h)]
    rfl

theorem assertSet_alive {x : Var} (h : alive s x = true) :
    assertSet b x s = .ok () s ∨ assertSet b x s = .stop .fault := by
  obtain ⟨w,hw⟩ := alive_wrapper h
  rw [assertSet]
  split
  · exact .inl rfl
  · rw [Exec.bind_ok (implBase_ok hw)]
    generalize (if b.launder then some x else w.implBase) = p
    cases p with
    | none => exact .inr rfl
    | some q => exact .inl rfl

theorem replace_stores (hs : SelfContained b s) {x : Var} {w : Wrapper} {o : ObjId} {d : Data C}
    (h : Stores s x w o d) {β : Type} (k : M C β) :
    (do assertSet b x; destroyImpl b x; k) s = k (s.kill o) := by
  rw [Exec.bind_ok (assertSet_stores hs h)]
  have hd : destroyImpl b x s = .ok () (s.kill o) := by
    rw [destroyImpl,Exec.bind_ok (implBase_stores hs h),Exec.bind_ok (deref_stores h)]
    rfl
  exact Exec.bind_ok hd

theorem replace_empty (hs : SelfContained b s) {x : Var} (h : abs s x = some none) {β : Type}
    (k : M C β) : (do assertSet b x; destroyImpl b x; k) s = .stop .fault := by
  rcases assertSet_alive (b := b) (empty_alive h) with ha | ha
  · rw [Exec.bind_ok ha]
    obtain ⟨p,hp,hfault⟩ := deref_empty hs h
    have hd : destroyImpl b x s = .stop .fault := by
      rw [destroyImpl,Exec.bind_ok hp,Exec.bind_stop hfault]
    exact Exec.bind_stop hd
  · exact Exec.bind_stop ha

theorem construct_ok {x : Var} {w : Wrapper} (h : s.vars x = some w) (d : Data C) :
    construct x d s = .ok x ⟨Function.update s.vars x
      (some { w with storage := some s.impls.length }),s.impls.construct d⟩ := by
  rw [construct,Exec.bind_ok (wrapper_ok h)]
  rfl

theorem saveImplBase_attach {x : Var} (w : Wrapper) (d : Data C) :
    saveImplBase b x x ⟨Function.update s.vars x
      (some { w with storage := some s.impls.length }),s.impls.construct d⟩ =
      .ok () (s.attach b x w d) := by
  rw [saveImplBase,State.attach,placed]
  cases b.launder with
  | true => rfl
  | false =>
    simp only [Bool.false_eq_true,if_false]
    rw [Exec.bind_ok (wrapper_ok (w := { w with storage := some s.impls.length }) (by simp))]
    simp [setWrapper,Function.update_idem]

theorem placementNew_save {t : Throw} (ht : t ≠ .construct) {x : Var} {w : Wrapper}
    (h : s.vars x = some w) (d : Data C) :
    (do let q ← placementNew t x d; saveImplBase b x q) s = .ok () (s.attach b x w d) := by
  have hnew : placementNew t x d = construct x d := by
    cases t with
    | construct => exact absurd rfl ht
    | _ => rfl
  rw [hnew,Exec.bind_ok (construct_ok h d)]
  exact saveImplBase_attach w d

theorem clone_stores (hs : SelfContained b s) {t : Throw} (ht : t ≠ .construct) {x y : Var}
    {w v : Wrapper} {o : ObjId} {d : Data C} (hx : s.vars x = some w) (hy : Stores s y v o d) :
    (do let p ← implBase b y; let q ← cloneAsRawPtr t p x; saveImplBase b x q) s =
      .ok () (s.attach b x w d) := by
  rw [Exec.bind_ok (implBase_stores hs hy)]
  have hclone : cloneAsRawPtr t (some y) x s = placementNew t x d s := by
    rw [cloneAsRawPtr,Exec.bind_ok (deref_stores hy)]
  have hnew := placementNew_save (b := b) ht hx d
  rw [Exec.bind_apply] at hnew ⊢
  rw [hclone]
  exact hnew

theorem moveClone_stores (hs : SelfContained b s) {t : Throw} (ht : t ≠ .construct) {x y : Var}
    {w v : Wrapper} {o : ObjId} {d : Data C} (hx : s.vars x = some w) (hy : Stores s y v o d) :
    (do let p ← implBase b y; let q ← moveCloneAsRawPtr t p x; saveImplBase b x q) s =
      .ok () ((s.overwrite o d.movedFrom).attach b x w d) := by
  rw [Exec.bind_ok (implBase_stores hs hy)]
  have hclone : moveCloneAsRawPtr t (some y) x s =
      (do let q ← construct x d; writeConcrete o d.movedFrom; pure q : M C Addr) s := by
    rw [moveCloneAsRawPtr,Exec.bind_ok (deref_stores hy)]
    cases t with
    | construct => exact absurd rfl ht
    | _ => rfl
  have hsave := saveImplBase_attach (b := b) (s := s.overwrite o d.movedFrom) (x := x) w d
  rw [Exec.bind_apply,hclone,Exec.bind_ok (construct_ok hx d)]
  simp only [writeConcrete,Exec.modify_bind,Exec.pure_apply,
    Ledger.construct_write (Ledger.value?_lt hy.2.2)]
  simpa [State.overwrite] using hsave

theorem clone_empty (hs : SelfContained b s) {y : Var} (h : abs s y = some none) {β : Type}
    (t : Throw) (x : Var) (k : Addr → M C β) :
    (do let p ← implBase b y; let q ← cloneAsRawPtr t p x; k q) s = .stop .fault := by
  obtain ⟨p,hp,hfault⟩ := deref_empty hs h
  rw [Exec.bind_ok hp]
  apply Exec.bind_stop
  rw [cloneAsRawPtr,Exec.bind_stop hfault]

theorem moveClone_empty (hs : SelfContained b s) {y : Var} (h : abs s y = some none) {β : Type}
    (t : Throw) (x : Var) (k : Addr → M C β) :
    (do let p ← implBase b y; let q ← moveCloneAsRawPtr t p x; k q) s = .stop .fault := by
  obtain ⟨p,hp,hfault⟩ := deref_empty hs h
  rw [Exec.bind_ok hp]
  apply Exec.bind_stop
  rw [moveCloneAsRawPtr,Exec.bind_stop hfault]

theorem stores_enter {x y : Var} {w : Wrapper} {o : ObjId} {d : Data C} (hyx : y ≠ x)
    (h : Stores s y w o d) : Stores (s.enter x) y w o d :=
  ⟨by simpa [State.enter,hyx] using h.1,h.2.1,h.2.2⟩

theorem stores_kill (hs : SelfContained b s) {x y : Var} {w v : Wrapper} {o i : ObjId}
    {d e : Data C} (hyx : y ≠ x) (hx : Stores s x w o d) (hy : Stores s y v i e) :
    Stores (s.kill o) y v i e := by
  have hio : i ≠ o := fun h => hyx (hs.unique hy.1 hx.1 (h ▸ hy.2.1) hx.2.1)
  exact ⟨hy.1,hy.2.1,by simpa [State.kill,Ledger.value?_destroy,hio] using hy.2.2⟩

theorem constructing_ok {x : Var} {ctor : M C Unit} {u : State C}
    (h : ctor (s.enter x) = .ok () u) : constructing x ctor s = .ok () u := by
  rw [State.enter] at h
  simp [constructing,h]

theorem constructing_stop {x : Var} {ctor : M C Unit} {e : Stop}
    (h : ctor (s.enter x) = .stop e) : constructing x ctor s = .stop e := by
  rw [State.enter] at h
  simp [constructing,h]

theorem constructing_threw {x : Var} {ctor : M C Unit} {u : State C}
    (h : ctor (s.enter x) = .threw u) : constructing x ctor s = .threw (u.leave x) := by
  rw [State.enter] at h
  simp [constructing,h,State.leave]

theorem enter_vars (x : Var) : (s.enter x).vars x = some emptyWrapper := by simp [State.enter]

section Bodies

variable {t : Throw} (ht : t ≠ .construct) (hs : SelfContained b s) {x y : Var} {w v : Wrapper}
  {o i : ObjId} {d e : Data C}

include ht

theorem body_convertConstruct (x : Var) (d : Data C) :
    body b t (.convertConstruct x d) s = .ok none ((s.enter x).attach b x emptyWrapper d) := by
  have h := constructing_ok (placementNew_save (b := b) ht (enter_vars (s := s) x) d)
  exact Exec.bind_ok h

include hs

theorem body_copyConstruct (hyx : y ≠ x) (hy : Stores s y v i e) :
    body b t (.copyConstruct x y) s = .ok none ((s.enter x).attach b x emptyWrapper e) := by
  have h := constructing_ok
    (clone_stores (selfContained_enter hs x) ht (enter_vars x) (stores_enter hyx hy))
  exact Exec.bind_ok h

theorem body_moveConstruct (hyx : y ≠ x) (hy : Stores s y v i e) :
    body b t (.moveConstruct x y) s =
      .ok none (((s.enter x).overwrite i e.movedFrom).attach b x emptyWrapper e) := by
  have h := constructing_ok
    (moveClone_stores (selfContained_enter hs x) ht (enter_vars x) (stores_enter hyx hy))
  exact Exec.bind_ok h

theorem body_convertAssign (hx : Stores s x w o d) (e : Data C) :
    body b t (.convertAssign x e) s = .ok none ((s.kill o).attach b x w e) := by
  have h : convertingAssignment b t x e s = .ok () ((s.kill o).attach b x w e) := by
    rw [convertingAssignment,replace_stores hs hx]
    exact placementNew_save ht (s := s.kill o) hx.1 e
  exact Exec.bind_ok h

theorem body_copyAssign (hyx : y ≠ x) (hx : Stores s x w o d) (hy : Stores s y v i e) :
    body b t (.copyAssign x y) s = .ok none ((s.kill o).attach b x w e) := by
  have h : copyAssignment b t x y s = .ok () ((s.kill o).attach b x w e) := by
    rw [copyAssignment,replace_stores hs hx]
    exact clone_stores (s := s.kill o) (selfContained_kill hs o) ht hx.1 (stores_kill hs hyx hx hy)
  exact Exec.bind_ok h

theorem body_moveAssign (hyx : y ≠ x) (hx : Stores s x w o d) (hy : Stores s y v i e) :
    body b t (.moveAssign x y) s =
      .ok none (((s.kill o).overwrite i e.movedFrom).attach b x w e) := by
  have h : moveAssignment b t x y s =
      .ok () (((s.kill o).overwrite i e.movedFrom).attach b x w e) := by
    rw [moveAssignment,replace_stores hs hx]
    exact moveClone_stores (s := s.kill o) (selfContained_kill hs o) ht hx.1
      (stores_kill hs hyx hx hy)
  exact Exec.bind_ok h

omit ht

theorem body_call (hx : Stores s x w o d) (m : C.Method) (t : Throw) :
    body b t (.call x m) s = .ok (some (d.result m)) (s.overwrite o (d.after m)) := by
  have h : callMethod b x m s = .ok (d.result m) (s.overwrite o (d.after m)) := by
    rw [callMethod,Exec.bind_ok (implBase_stores hs hx),Exec.bind_ok (deref_stores hx)]
    rfl
  exact Exec.bind_ok h

theorem body_assigns_empty {op : Op C} (hop : op.assigns = some x) (h : abs s x = some none)
    (t : Throw) : body b t op s = .stop .fault := by
  cases op <;> simp only [Op.assigns,Option.some.injEq,reduceCtorEq] at hop <;> subst hop
  · exact Exec.bind_stop (replace_empty hs h _)
  · exact Exec.bind_stop (replace_empty hs h _)
  · exact Exec.bind_stop (replace_empty hs h _)

-- The target's object is destroyed before the right-hand side is read.
theorem target_kill (hx : alive s x = true) (hy : y = x ∨ abs s y = some none) :
    abs s x = some none ∨ ∃ w o d, Stores s x w o d ∧ abs (s.kill o) y = some none := by
  rcases alive_cases hx with hx | ⟨w,o,d,hx⟩
  · exact .inl hx
  · refine .inr ⟨w,o,d,hx,?_⟩
    rw [abs_kill hs hx,Function.update_apply]
    split
    · rfl
    · exact hy.resolve_left ‹_›

theorem body_assigns_dead {op : Op C} (hop : op = .copyAssign x y ∨ op = .moveAssign x y)
    (hx : alive s x = true) (hy : y = x ∨ abs s y = some none) (t : Throw) :
    body b t op s = .stop .fault := by
  rcases target_kill hs hx hy with hx | ⟨w,o,d,hx,hy⟩
  · rcases hop with rfl | rfl <;> exact body_assigns_empty hs rfl hx t
  · rcases hop with rfl | rfl <;> apply Exec.bind_stop
    · rw [copyAssignment,replace_stores hs hx]
      exact clone_empty (selfContained_kill hs o) hy t _ _
    · rw [moveAssignment,replace_stores hs hx]
      exact moveClone_empty (selfContained_kill hs o) hy t _ _

theorem body_reads_empty {op : Op C} (hop : op.reads = some y)
    (hscope : op.inScope (alive s) = true) (h : abs s y = some none) (t : Throw) :
    body b t op s = .stop .fault := by
  have henter {x : Var} (hx : alive s x = false) : abs (s.enter x) y = some none := by
    rw [abs_enter,Function.update_of_ne (fresh_ne hx (empty_alive h)),h]
  cases op <;> simp only [Op.reads,Option.some.injEq,reduceCtorEq] at hop <;> subst hop <;>
    simp only [Op.inScope,Bool.and_eq_true,Bool.not_eq_true'] at hscope
  · exact Exec.bind_stop (constructing_stop
      (clone_empty (selfContained_enter hs _) (henter hscope.1) t _ _))
  · exact Exec.bind_stop (constructing_stop
      (moveClone_empty (selfContained_enter hs _) (henter hscope.1) t _ _))
  · exact body_assigns_dead hs (.inl rfl) hscope.1 (.inr h) t
  · exact body_assigns_dead hs (.inr rfl) hscope.1 (.inr h) t
  · obtain ⟨p,hp,hfault⟩ := deref_empty hs h
    apply Exec.bind_stop
    rw [callMethod,Exec.bind_ok hp,Exec.bind_stop hfault]

theorem body_selfAssigns {op : Op C} (hop : op.selfAssigns = true)
    (hscope : op.inScope (alive s) = true) (t : Throw) : body b t op s = .stop .fault := by
  cases op <;> simp only [Op.selfAssigns,Bool.false_eq_true,beq_iff_eq] at hop <;> subst hop <;>
    simp only [Op.inScope,Bool.and_eq_true] at hscope
  · exact body_assigns_dead hs (.inl rfl) hscope.1 (.inl rfl) t
  · exact body_assigns_dead hs (.inr rfl) hscope.1 (.inl rfl) t

end Bodies

def Simulates (b : Build) (s : State C) (r : Reference.State C) : Prop :=
  SelfContained b s ∧ abs s = r

theorem update_shadow (r : Reference.State C) (x : Var) (v v' : Option (Option (Data C))) :
    Function.update (Function.update r x v) x v' = Function.update r x v' :=
  Function.update_idem ..

theorem update_swap (r : Reference.State C) {x y : Var} (hyx : y ≠ x)
    (u v v' : Option (Option (Data C))) :
    Function.update (Function.update (Function.update r x u) y v) x v' =
      Function.update (Function.update r y v) x v' := by
  rw [Function.update_comm hyx.symm,Function.update_idem]

section Steps

variable {t : Throw} (hs : SelfContained b s) {x y : Var} {w v : Wrapper} {o i : ObjId} {d e : Data C}
include hs

theorem simulates_enter (x : Var) (d : Data C) :
    Simulates b ((s.enter x).attach b x emptyWrapper d)
      (Function.update (abs s) x (some (some d))) := by
  have he := selfContained_enter hs x
  refine ⟨selfContained_attach he (enter_vars x) d,?_⟩
  rw [abs_attach he,abs_enter,update_shadow]

theorem simulates_enter_move (hyx : y ≠ x) (hy : Stores s y v i e) :
    Simulates b (((s.enter x).overwrite i e.movedFrom).attach b x emptyWrapper e)
      (Function.update (Function.update (abs s) y (some (some e.movedFrom))) x (some (some e))) := by
  have he := selfContained_enter hs x
  have ho := selfContained_overwrite he i e.movedFrom
  refine ⟨selfContained_attach ho (enter_vars x) e,?_⟩
  rw [abs_attach ho,abs_overwrite he (stores_enter hyx hy),abs_enter,update_swap _ hyx]

theorem simulates_kill (hx : Stores s x w o d) (e : Data C) :
    Simulates b ((s.kill o).attach b x w e) (Function.update (abs s) x (some (some e))) := by
  have hk := selfContained_kill hs o
  refine ⟨selfContained_attach (s := s.kill o) hk hx.1 e,?_⟩
  rw [abs_attach hk,abs_kill hs hx,update_shadow]

theorem simulates_kill_move (hyx : y ≠ x) (hx : Stores s x w o d) (hy : Stores s y v i e) :
    Simulates b (((s.kill o).overwrite i e.movedFrom).attach b x w e)
      (Function.update (Function.update (abs s) y (some (some e.movedFrom))) x (some (some e))) := by
  have hk := selfContained_kill hs o
  have ho := selfContained_overwrite hk i e.movedFrom
  refine ⟨selfContained_attach (s := (s.kill o).overwrite i e.movedFrom) ho hx.1 e,?_⟩
  rw [abs_attach ho,abs_overwrite hk (stores_kill hs hyx hx hy),abs_kill hs hx,update_swap _ hyx]

theorem matches_reads {op : Op C} (hop : op.reads = some y) (hscope : op.inScope (alive s) = true)
    (hheld : ∀ v i e, Stores s y v i e →
      Matches (Simulates b) (body b t op s) (Reference.body op (abs s))) :
    Matches (Simulates b) (body b t op s) (Reference.body op (abs s)) := by
  rcases alive_cases (Op.reads_alive hscope hop) with hv | ⟨v,i,e,hy⟩
  · rw [body_reads_empty hs hop hscope hv,Reference.body_reads_empty hop hv]
    exact .stop _
  · exact hheld v i e hy

omit hs in
theorem target_stores {op : Op C} (hop : op.assigns = some x)
    (hscope : op.inScope (alive s) = true) (hfull : Reference.emptyAt (abs s) op.assigns = false) :
    ∃ w o d, Stores s x w o d := by
  rcases alive_cases (Op.assigns_alive hscope hop) with hv | hheld
  · rw [hop,Reference.emptyAt_some.mpr hv] at hfull
    cases hfull
  · exact hheld

theorem body_matches (ht : t ≠ .construct) (op : Op C) (hscope : op.inScope (alive s) = true)
    (hfull : Reference.emptyAt (abs s) op.assigns = false) (hself : op.selfAssigns = false) :
    Matches (Simulates b) (body b t op s) (Reference.body op (abs s)) := by
  have htarget (x : Var) (hx : op.assigns = some x) : ∃ w o d, Stores s x w o d :=
    target_stores hx hscope hfull
  cases op with
  | defaultConstruct x => exact .ok ⟨selfContained_enter hs x,abs_enter x⟩
  | convertConstruct x d =>
    rw [body_convertConstruct ht]
    exact .ok (simulates_enter hs x d)
  | copyConstruct x rhs =>
    have hyx := fresh_ne (Op.constructs_dead hscope rfl) (Op.reads_alive hscope rfl)
    refine matches_reads hs (y := rhs) rfl hscope fun v i e hy => ?_
    rw [body_copyConstruct ht hs hyx hy,Reference.body_copyConstruct (abs_stores hy)]
    exact .ok (simulates_enter hs x e)
  | moveConstruct x rhs =>
    have hyx := fresh_ne (Op.constructs_dead hscope rfl) (Op.reads_alive hscope rfl)
    refine matches_reads hs (y := rhs) rfl hscope fun v i e hy => ?_
    rw [body_moveConstruct ht hs hyx hy,Reference.body_moveConstruct (abs_stores hy)]
    exact .ok (simulates_enter_move hs hyx hy)
  | convertAssign x d =>
    obtain ⟨w,o,c,hx⟩ := htarget x rfl
    rw [body_convertAssign ht hs hx]
    exact .ok (simulates_kill hs hx d)
  | copyAssign x rhs =>
    obtain ⟨w,o,d,hx⟩ := htarget x rfl
    have hyx : rhs ≠ x := (beq_eq_false_iff_ne.mp hself).symm
    refine matches_reads hs (y := rhs) rfl hscope fun v i e hy => ?_
    rw [body_copyAssign ht hs hyx hx hy,Reference.body_copyAssign (abs_stores hy)]
    exact .ok (simulates_kill hs hx e)
  | moveAssign x rhs =>
    obtain ⟨w,o,d,hx⟩ := htarget x rfl
    have hyx : rhs ≠ x := (beq_eq_false_iff_ne.mp hself).symm
    refine matches_reads hs (y := rhs) rfl hscope fun v i e hy => ?_
    rw [body_moveAssign ht hs hyx hx hy,Reference.body_moveAssign (abs_stores hy)]
    exact .ok (simulates_kill_move hs hyx hx hy)
  | call x m =>
    refine matches_reads hs (y := x) rfl hscope fun v i e hy => ?_
    rw [body_call hs hy,Reference.body_call (abs_stores hy),← abs_overwrite hs hy]
    exact .ok ⟨selfContained_overwrite hs _ _,rfl⟩
  | endOfLife x => exact .ok ⟨selfContained_leave hs x,abs_leave x⟩

end Steps

theorem step_matches {t : Throw} (ht : t ≠ .construct) (op : Op C) {s : State C}
    {r : Reference.State C} (h : Simulates b s r) :
    Matches (Simulates b) (step b t op s) (Reference.strictStep op r) := by
  obtain ⟨hs,rfl⟩ := h
  simp only [step,Reference.strictStep,alive_abs]
  by_cases hscope : op.inScope (alive s) = true
  · rw [if_pos hscope,if_pos hscope]
    cases hfull : Reference.emptyAt (abs s) op.assigns with
    | true =>
      obtain ⟨x,hx⟩ : ∃ x, op.assigns = some x := by
        cases hop : op.assigns with
        | none => simp [hop,Reference.emptyAt] at hfull
        | some x => exact ⟨x,rfl⟩
      rw [hx] at hfull
      rw [body_assigns_empty hs hx (Reference.emptyAt_some.mp hfull)]
      exact .stop _
    | false =>
      cases hself : op.selfAssigns with
      | true =>
        rw [body_selfAssigns hs hself hscope]
        exact .stop _
      | false => exact body_matches hs ht op hscope hfull hself
  · rw [if_neg hscope,if_neg hscope]
    exact .stop _

theorem run_simulates (b : Build) (ops : List (Op C)) :
    RunMatches (Simulates b) (run (step b .never) ops init)
      (run Reference.strictStep ops Reference.init) :=
  run_matches ops (fun op _ _ _ h => step_matches (by decide) op h) ⟨selfContained_init b,abs_init⟩

end FlexTypeclass.Runtime.InplaceTypeclass
