import FlexTypeclass.Runtime.InplaceSimulation

namespace FlexTypeclass.Runtime.InplaceTypeclass
open Lib

variable {C : Concrete} {b : Build}

def Effect (b : Build) (s u : State C) : Op C → Prop
  | .defaultConstruct x => u = s.enter x
  | .convertConstruct x d => u = (s.enter x).attach b x emptyWrapper d
  | .copyConstruct x rhs =>
      ∃ v i e, Stores s rhs v i e ∧ u = (s.enter x).attach b x emptyWrapper e
  | .moveConstruct x rhs =>
      ∃ v i e, Stores s rhs v i e ∧
        u = ((s.enter x).overwrite i e.movedFrom).attach b x emptyWrapper e
  | .convertAssign x d => ∃ w o c, Stores s x w o c ∧ u = (s.kill o).attach b x w d
  | .copyAssign x rhs =>
      ∃ w o c v i e, Stores s x w o c ∧ Stores s rhs v i e ∧ u = (s.kill o).attach b x w e
  | .moveAssign x rhs =>
      ∃ w o c v i e, Stores s x w o c ∧ Stores s rhs v i e ∧
        u = ((s.kill o).overwrite i e.movedFrom).attach b x w e
  | .call x m => ∃ w o d, Stores s x w o d ∧ u = s.overwrite o (d.after m)
  | .endOfLife x => u = s.leave x

section Steps

variable {s u : State C} {t : Throw} {op : Op C} {r : Option C.Result} (hs : SelfContained b s)
include hs

theorem reads_stores {y : Var} (hop : op.reads = some y) (hscope : op.inScope (alive s) = true)
    (h : body b t op s = .ok r u) : ∃ v i e, Stores s y v i e := by
  rcases alive_cases (Op.reads_alive hscope hop) with hy | hheld
  · rw [body_reads_empty hs hop hscope hy] at h
    cases h
  · exact hheld

theorem assigns_stores {x : Var} (hop : op.assigns = some x) (hscope : op.inScope (alive s) = true)
    (h : body b t op s = .ok r u) : ∃ w o c, Stores s x w o c := by
  refine target_stores hop hscope (Bool.eq_false_iff.mpr fun he => ?_)
  rw [hop] at he
  rw [body_assigns_empty hs hop (Reference.emptyAt_some.mp he)] at h
  cases h

theorem step_effect (ht : t ≠ .construct) (h : step b t op s = .ok r u) : Effect b s u op := by
  rw [step] at h
  split at h
  · rename_i hscope
    have hread (y : Var) (hop : op.reads = some y) : ∃ v i e, Stores s y v i e :=
      reads_stores hs hop hscope h
    have htarget (x : Var) (hop : op.assigns = some x) : ∃ w o c, Stores s x w o c :=
      assigns_stores hs hop hscope h
    have hself : op.selfAssigns = false := by
      refine Bool.eq_false_iff.mpr fun hself => ?_
      rw [body_selfAssigns hs hself hscope] at h
      cases h
    cases op with
    | defaultConstruct x => cases h; rfl
    | convertConstruct x d => rw [body_convertConstruct ht] at h; cases h; rfl
    | endOfLife x => cases h; rfl
    | copyConstruct x rhs =>
      have hyx := fresh_ne (Op.constructs_dead hscope rfl) (Op.reads_alive hscope rfl)
      obtain ⟨v,i,e,hy⟩ := hread rhs rfl
      rw [body_copyConstruct ht hs hyx hy] at h
      cases h
      exact ⟨v,i,e,hy,rfl⟩
    | moveConstruct x rhs =>
      have hyx := fresh_ne (Op.constructs_dead hscope rfl) (Op.reads_alive hscope rfl)
      obtain ⟨v,i,e,hy⟩ := hread rhs rfl
      rw [body_moveConstruct ht hs hyx hy] at h
      cases h
      exact ⟨v,i,e,hy,rfl⟩
    | convertAssign x d =>
      obtain ⟨w,o,c,hx⟩ := htarget x rfl
      rw [body_convertAssign ht hs hx] at h
      cases h
      exact ⟨w,o,c,hx,rfl⟩
    | copyAssign x rhs =>
      obtain ⟨w,o,c,hx⟩ := htarget x rfl
      obtain ⟨v,i,e,hy⟩ := hread rhs rfl
      rw [body_copyAssign ht hs (beq_eq_false_iff_ne.mp hself).symm hx hy] at h
      cases h
      exact ⟨w,o,c,v,i,e,hx,hy,rfl⟩
    | moveAssign x rhs =>
      obtain ⟨w,o,c,hx⟩ := htarget x rfl
      obtain ⟨v,i,e,hy⟩ := hread rhs rfl
      rw [body_moveAssign ht hs (beq_eq_false_iff_ne.mp hself).symm hx hy] at h
      cases h
      exact ⟨w,o,c,v,i,e,hx,hy,rfl⟩
    | call x m =>
      obtain ⟨w,o,d,hx⟩ := hread x rfl
      rw [body_call hs hx] at h
      cases h
      exact ⟨w,o,d,hx,rfl⟩
  · cases h

theorem step_ok_strict (ht : t ≠ .construct) (h : step b t op s = .ok r u) :
    SelfContained b u ∧ Reference.strictStep op (abs s) = .ok r (abs u) := by
  have hm := step_matches ht op ⟨hs,rfl⟩
  rw [h] at hm
  obtain ⟨q,hq,hu,rfl⟩ := hm.of_ok
  exact ⟨hu,hq⟩

theorem step_never_threw (ht : t ≠ .construct) : step b t op s ≠ .threw u := by
  intro h
  have hm := step_matches ht op ⟨hs,rfl⟩
  rw [h] at hm
  obtain ⟨q,hq,-⟩ := hm.of_threw
  exact Reference.noThrow_strictStep op _ _ hq

end Steps

def births (op : Op C) : Nat := if op.constructs.isSome && !op.isDefault then 1 else 0

def totalBirths : List (Op C) → Nat
  | [] => 0
  | op :: ops => births op + totalBirths ops

theorem alive_attach (s : State C) (x : Var) (w : Wrapper) (d : Data C) :
    (s.attach b x w d).impls.alive = s.impls.alive + 1 := Ledger.alive_construct _ _

theorem alive_kill {s : State C} {x : Var} {w : Wrapper} {o : ObjId} {d : Data C}
    (h : Stores s x w o d) : (s.kill o).impls.alive + 1 = s.impls.alive :=
  Ledger.alive_destroy h.2.2

theorem alive_overwrite (s : State C) (o : ObjId) (d : Data C) :
    (s.overwrite o d).impls.alive = s.impls.alive := Ledger.alive_write _ _ _

theorem alive_effect {s u : State C} {op : Op C} (h : Effect b s u op) :
    u.impls.alive = s.impls.alive + births op := by
  cases op with
  | defaultConstruct x => obtain rfl := h; rfl
  | convertConstruct x d => obtain rfl := h; exact alive_attach _ x _ d
  | copyConstruct x rhs => obtain ⟨v,i,e,-,rfl⟩ := h; exact alive_attach _ x _ e
  | moveConstruct x rhs =>
    obtain ⟨v,i,e,-,rfl⟩ := h
    rw [alive_attach,alive_overwrite]
    rfl
  | convertAssign x d =>
    obtain ⟨w,o,c,hx,rfl⟩ := h
    rw [alive_attach,alive_kill hx]
    rfl
  | copyAssign x rhs =>
    obtain ⟨w,o,c,v,i,e,hx,-,rfl⟩ := h
    rw [alive_attach,alive_kill hx]
    rfl
  | moveAssign x rhs =>
    obtain ⟨w,o,c,v,i,e,hx,-,rfl⟩ := h
    rw [alive_attach,alive_overwrite,alive_kill hx]
    rfl
  | call x m => obtain ⟨w,o,d,-,rfl⟩ := h; exact alive_overwrite s o _
  | endOfLife x => obtain rfl := h; rfl

-- No operation lowers the number of live objects: an assignment destroys one and builds one.
theorem alive_run {ops : List (Op C)} {s u : State C} (hs : SelfContained b s)
    (h : Reaches (step b .never) s ops u) :
    u.impls.alive = s.impls.alive + totalBirths ops := by
  induction ops generalizing s with
  | nil => rw [reaches_nil.mp h,totalBirths,Nat.add_zero]
  | cons op ops ih =>
    obtain ⟨v,⟨r,hv⟩ | hv,hrest⟩ := reaches_cons.mp h
    · have hstep := alive_effect (step_effect hs (by decide) hv)
      have htail := ih (step_ok_strict hs (by decide) hv).1 hrest
      rw [htail,hstep,totalBirths,Nat.add_assoc]
    · exact absurd hv (step_never_threw hs (by decide))

structure CompleteRun (ops : List (Op C)) : Prop where
  valued : ∀ op ∈ ops, op.isDefault = false
  ended : scopeRun ops ∅ = some ∅

structure Disciplined (b : Build) (ops : List (Op C)) (s : State C) : Prop where
  finishes : Reaches (step b .never) init ops s
  destroyedOnce : ∀ c ∈ s.impls, c.deaths = 1
  noneAlive : s.impls.alive = 0

theorem complete_nil {ops : List (Op C)} (h : CompleteRun ops) (hb : totalBirths ops = 0) :
    ops = [] := by
  cases ops with
  | nil => rfl
  | cons op ops =>
    have hdef := h.valued op (by simp)
    have hbirth : op.constructs = none := by
      rw [totalBirths,Nat.add_eq_zero_iff] at hb
      simpa [births,hdef] using hb.1
    have hend := h.ended
    simp only [scopeRun,Op.scopeNext] at hend
    cases op <;> simp_all [Op.constructs,Op.inScope]

theorem reaches_strict {ops : List (Op C)} :
    (∃ s, Reaches (step b .never) init ops s) ↔
      ∃ r, Reaches Reference.strictStep Reference.init ops r :=
  (run_simulates b ops).ok_iff

theorem strict_run {ops : List (Op C)} {r : Reference.State C} {A B : Finset Var}
    (hfull : Reference.Full r) (hA : Reference.Scoped r A)
    (hdef : ∀ op ∈ ops, op.isDefault = false) (hB : scopeRun ops A = some B)
    (hself : ∀ op ∈ ops, op.selfAssigns = false) :
    ∃ q, Reaches Reference.strictStep r ops q := by
  induction ops generalizing r A with
  | nil => exact ⟨r,reaches_nil.mpr rfl⟩
  | cons op ops ih =>
    obtain ⟨A',hA',hrest⟩ := Option.bind_eq_some_iff.mp hB
    have hscope : op.inScope (Reference.alive r) = true := by
      rw [← Reference.scoped_eq hA]
      rw [Op.scopeNext] at hA'
      split at hA'
      · assumption
      · cases hA'
    obtain ⟨o,q,hq⟩ := Reference.strict_progress hfull hscope (hself op (by simp))
    have hstep := (Reference.strict_ok hq).1
    obtain ⟨p,hp⟩ := ih (Reference.step_full hfull (hdef op (by simp)) hstep)
      (Reference.step_scoped hA hA' hstep) (fun o ho => hdef o (by simp [ho])) hrest
      (fun o ho => hself o (by simp [ho]))
    exact ⟨p,reaches_cons.mpr ⟨q,.inl ⟨o,hq⟩,hp⟩⟩

theorem strict_run_selfAssigns {ops : List (Op C)} {r q : Reference.State C}
    (h : Reaches Reference.strictStep r ops q) : ∀ op ∈ ops, op.selfAssigns = false := by
  induction ops generalizing r with
  | nil => simp
  | cons op ops ih =>
    obtain ⟨p,⟨o,hp⟩ | hp,hrest⟩ := reaches_cons.mp h
    · exact List.forall_mem_cons.mpr ⟨(Reference.strict_ok hp).2.2,ih hrest⟩
    · exact absurd hp (Reference.noThrow_strictStep op _ _)

theorem inplace_lifetimes (b : Build) (ops : List (Op C)) (h : CompleteRun ops) :
    ((∃ s, Disciplined b ops s) ↔ ops = []) ∧
    ((∃ s, Reaches (step b .never) init ops s) ↔ ∀ op ∈ ops, op.selfAssigns = false) := by
  constructor
  · constructor
    · rintro ⟨s,hd⟩
      have hcount := alive_run (selfContained_init b) hd.finishes
      rw [hd.noneAlive] at hcount
      exact complete_nil h (Nat.eq_zero_of_add_eq_zero_left hcount.symm)
    · rintro rfl
      exact ⟨init,reaches_nil.mpr rfl,by simp [init],rfl⟩
  · rw [reaches_strict]
    constructor
    · rintro ⟨r,hr⟩
      exact strict_run_selfAssigns hr
    · exact strict_run Reference.full_init Reference.scoped_init h.valued h.ended

def constructThenEnd : List (Op Concrete.counter) :=
  [.convertConstruct 0 (.count 7),.call 0 (),.endOfLife 0]

theorem constructThenEnd_complete : CompleteRun constructThenEnd := ⟨by decide,by decide⟩

theorem inplace_lifetimes_constructThenEnd :
    ((∃ s, Disciplined ⟨true,false⟩ constructThenEnd s) ↔ constructThenEnd = []) ∧
    ((∃ s, Reaches (step ⟨true,false⟩ .never) init constructThenEnd s) ↔
      ∀ op ∈ constructThenEnd, op.selfAssigns = false) :=
  inplace_lifetimes ⟨true,false⟩ constructThenEnd constructThenEnd_complete

theorem construct_then_end_leaks :
    CompleteRun constructThenEnd ∧ ∀ launder ndebug,
      (∃ s, Reaches (step ⟨launder,ndebug⟩ .never) init constructThenEnd s ∧
        s.vars 0 = none ∧ s.impls = [⟨.count 8,0⟩]) ∧
      ¬ ∃ s, Disciplined ⟨launder,ndebug⟩ constructThenEnd s := by
  refine ⟨⟨by decide,by decide⟩,fun launder ndebug => ?_⟩
  have hrun : ∃ s : State Concrete.counter, Reaches (step ⟨launder,ndebug⟩ .never) init
      constructThenEnd s ∧ s.vars 0 = none ∧ s.impls = [⟨.count 8,0⟩] := by
    cases launder <;> cases ndebug <;> exact ⟨_,rfl,rfl,rfl⟩
  refine ⟨hrun,?_⟩
  rintro ⟨t,ht⟩
  obtain ⟨s,hs,-,himpls⟩ := hrun
  obtain rfl : s = t := Except.ok.inj (hs.symm.trans ht.finishes)
  simpa using ht.destroyedOnce ⟨.count 8,0⟩ (by rw [himpls]; simp)

end FlexTypeclass.Runtime.InplaceTypeclass
