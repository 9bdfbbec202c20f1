import FlexTypeclass.Runtime.Ownership

namespace FlexTypeclass.Runtime.Typeclass
open Lib

variable {C : Concrete}

def State.release (s : State C) (x : Var) : State C :=
  match s.vars x with
  | some (some o) => s.detach x o (some none)
  | _ => s

theorem release_not_held (s : State C) (x : Var) (o : ObjId) :
    (s.release x).vars x ≠ some (some o) := by
  rw [State.release]
  rcases hx : s.vars x with _ | _ | i
  · simp [hx]
  · simp [hx]
  · simp [State.detach]

theorem owned_release {s : State C} (hs : Owned s) (x : Var) : Owned (s.release x) := by
  rw [State.release]
  split
  · exact owned_detach hs ‹_› rfl
  · exact hs

theorem abs_release {s : State C} (hs : Owned s) (x : Var) (v : Option (Option (Data C))) :
    Function.update (abs (s.release x)) x v = Function.update (abs s) x v := by
  rw [State.release]
  split
  · rw [abs_detach hs ‹_› rfl,Function.update_idem]
  · rfl

theorem implBase_ok {s : State C} {x : Var} {p : Option ObjId} (h : s.vars x = some p) :
    implBase x s = .ok p s := by simp [implBase,h]

theorem deref_ok {s : State C} {o : ObjId} {d : Data C} (h : s.impls.value? o = some d) :
    deref (some o) s = .ok (o,d) s := by simp [deref,h]

theorem deref_null (s : State C) : deref none s = .stop .fault := rfl

theorem makeUnique_ok (s : State C) (d : Data C) :
    makeUnique .never d s = .ok s.impls.length { s with impls := s.impls.construct d } := rfl

theorem cloneAsUniquePtr_ok {s : State C} {o : ObjId} {d : Data C} (h : s.impls.value? o = some d) :
    cloneAsUniquePtr .never (some o) s =
      .ok s.impls.length { s with impls := s.impls.construct d } := by
  rw [cloneAsUniquePtr,Exec.bind_ok (deref_ok h)]
  rfl

theorem moveCloneAsUniquePtr_ok {s : State C} {o : ObjId} {d : Data C}
    (h : s.impls.value? o = some d) :
    moveCloneAsUniquePtr .never (some o) s =
      .ok s.impls.length
        { s.overwrite o d.movedFrom with impls := (s.overwrite o d.movedFrom).impls.construct d } := by
  rw [moveCloneAsUniquePtr,Exec.bind_ok (deref_ok h)]
  change Outcome.ok _ { s with impls := (s.impls.construct d).write o d.movedFrom } = _
  rw [Ledger.construct_write (Ledger.value?_lt h)]
  rfl

theorem reset_ok {s : State C} (hs : Owned s) {x : Var} {p : Option ObjId} (hx : s.vars x = some p)
    (d : Data C) :
    reset x s.impls.length { s with impls := s.impls.construct d } =
      .ok () ((s.release x).attach x d) := by
  rw [reset,Exec.bind_ok (implBase_ok (s := ⟨s.vars,s.impls.construct d⟩) hx),setImplBase,
    Exec.modify_bind]
  cases p with
  | none => simp [deleteImpl,State.release,hx,State.attach]
  | some o =>
    obtain ⟨e,he⟩ := hs.live hx
    have hlive : (s.impls.construct d).value? o = some e := by
      simp [Ledger.value?_construct,he,(held_lt hs hx).ne]
    rw [deleteImpl,Exec.bind_ok (deref_ok hlive)]
    simp [State.release,hx,State.attach,State.detach,Ledger.construct_destroy (held_lt hs hx),
      Function.update_idem]

section Bodies

variable {s : State C}

theorem alive_vars {x : Var} (h : alive s x = true) : ∃ p, s.vars x = some p :=
  Option.isSome_iff_exists.mp h

theorem body_copyConstruct {x rhs : Var} {d : Data C} (hv : abs s rhs = some (some d)) :
    body .never (.copyConstruct x rhs) s = .ok none (s.attach x d) := by
  obtain ⟨o,ho,hd⟩ := abs_held hv
  simp only [body,copyConstructor]
  simp [Exec.bind_apply,implBase_ok ho,cloneAsUniquePtr_ok hd,setImplBase,State.attach]

theorem body_moveConstruct {x rhs : Var} {o : ObjId} {d : Data C} (ho : s.vars rhs = some (some o))
    (hd : s.impls.value? o = some d) :
    body .never (.moveConstruct x rhs) s = .ok none ((s.overwrite o d.movedFrom).attach x d) := by
  simp only [body,moveConstructor]
  simp [Exec.bind_apply,implBase_ok ho,moveCloneAsUniquePtr_ok hd,setImplBase,State.attach,
    State.overwrite]

theorem body_convertAssign (hs : Owned s) {x : Var} (hx : alive s x = true) (d : Data C) :
    body .never (.convertAssign x d) s = .ok none ((s.release x).attach x d) := by
  obtain ⟨p,hp⟩ := alive_vars hx
  simp only [body,convertingAssignment]
  simp [Exec.bind_apply,makeUnique_ok,reset_ok hs hp]

theorem body_copyAssign (hs : Owned s) {x rhs : Var} {d : Data C} (hx : alive s x = true)
    (hv : abs s rhs = some (some d)) :
    body .never (.copyAssign x rhs) s = .ok none ((s.release x).attach x d) := by
  obtain ⟨p,hp⟩ := alive_vars hx
  obtain ⟨o,ho,hd⟩ := abs_held hv
  simp only [body,copyAssignment]
  simp [Exec.bind_apply,implBase_ok ho,cloneAsUniquePtr_ok hd,reset_ok hs hp]

-- For `x = rhs` the moved-from object is the one that `reset` deletes.
theorem body_moveAssign (hs : Owned s) {x rhs : Var} {o : ObjId} {d : Data C}
    (hx : alive s x = true) (ho : s.vars rhs = some (some o)) (hd : s.impls.value? o = some d) :
    body .never (.moveAssign x rhs) s =
      .ok none (((s.overwrite o d.movedFrom).release x).attach x d) := by
  obtain ⟨p,hp⟩ := alive_vars hx
  have hs' := owned_overwrite hs ho d.movedFrom
  have hlen : (s.overwrite o d.movedFrom).impls.length = s.impls.length := by
    simp [State.overwrite]
  have hreset := reset_ok hs' (x := x) (p := p) hp d
  rw [hlen] at hreset
  simp only [body,moveAssignment]
  simp [Exec.bind_apply,implBase_ok ho,moveCloneAsUniquePtr_ok hd,hreset]

theorem body_call {x : Var} {o : ObjId} {d : Data C} (ho : s.vars x = some (some o))
    (hd : s.impls.value? o = some d) (m : C.Method) (t : Throw) :
    body t (.call x m) s = .ok (some (d.result m)) (s.overwrite o (d.after m)) := by
  simp only [body,callMethod]
  simp [Exec.bind_apply,implBase_ok ho,deref_ok hd,writeConcrete,State.overwrite]

theorem body_endOfLife_held {x : Var} {o : ObjId} {d : Data C} (ho : s.vars x = some (some o))
    (hd : s.impls.value? o = some d) (t : Throw) :
    body t (.endOfLife x) s = .ok none (s.detach x o none) := by
  simp only [body,destructor]
  simp [Exec.bind_apply,implBase_ok ho,deleteImpl,setImplBase,State.detach,deref,hd]

theorem body_endOfLife_empty {x : Var} (ho : s.vars x = some none) (t : Throw) :
    body t (.endOfLife x) s = .ok none (s.clear x none) := by
  simp only [body,destructor]
  simp [Exec.bind_apply,implBase_ok ho,deleteImpl,setImplBase,State.clear]

theorem body_reads_empty (hs : Owned s) {op : Op C} {y : Var} (hop : op.reads = some y)
    (hv : abs s y = some none) (t : Throw) : body t op s = .stop .fault := by
  have hy := implBase_ok (abs_empty hs hv)
  cases op <;> simp only [Op.reads,Option.some.injEq,reduceCtorEq] at hop <;> subst hop <;>
    simp [body,copyConstructor,moveConstructor,copyAssignment,moveAssignment,callMethod,
      Exec.bind_apply,hy,cloneAsUniquePtr,moveCloneAsUniquePtr,deref_null]

end Bodies

def Simulates (s : State C) (r : Reference.State C) : Prop := Owned s ∧ abs s = r

section Steps

variable {s : State C} (hs : Owned s)
include hs

theorem simulates_attach {x : Var} (hx : alive s x = false) (d : Data C) :
    Simulates (s.attach x d) (Function.update (abs s) x (some (some d))) :=
  ⟨owned_attach hs (fresh_not_held hx) d,abs_attach hs x d⟩

theorem simulates_replace (x : Var) (d : Data C) :
    Simulates ((s.release x).attach x d) (Function.update (abs s) x (some (some d))) := by
  have hr := owned_release hs x
  refine ⟨owned_attach hr (release_not_held s x) d,?_⟩
  rw [abs_attach hr,abs_release hs]

theorem step_matches_reads {op : Op C} {y : Var} (hop : op.reads = some y)
    (hscope : op.inScope (alive s) = true)
    (hheld : ∀ o d, s.vars y = some (some o) → s.impls.value? o = some d →
      Matches Simulates (body .never op s) (Reference.body op (abs s))) :
    Matches Simulates (body .never op s) (Reference.body op (abs s)) := by
  have hy := Op.reads_alive hscope hop
  rcases hv : abs s y with _ | _ | d
  · simp [alive,abs_none.mp hv] at hy
  · rw [body_reads_empty hs hop hv,Reference.body_reads_empty hop hv]
    exact .stop _
  · obtain ⟨o,ho,hd⟩ := abs_held hv
    exact hheld o d ho hd

theorem body_matches (op : Op C) (hscope : op.inScope (alive s) = true) :
    Matches Simulates (body .never op s) (Reference.body op (abs s)) := by
  cases op with
  | defaultConstruct x =>
    have ho := fresh_not_held (Op.constructs_dead hscope rfl)
    exact .ok ⟨owned_clear hs ho rfl,abs_clear rfl⟩
  | convertConstruct x d =>
    have hx : alive s x = false := Op.constructs_dead hscope rfl
    exact .ok (simulates_attach hs hx d)
  | copyConstruct x rhs =>
    have hx : alive s x = false := Op.constructs_dead hscope rfl
    refine step_matches_reads hs (y := rhs) rfl hscope fun o d ho hd => ?_
    have hv := abs_of_held ho hd
    rw [body_copyConstruct hv,Reference.body_copyConstruct hv]
    exact .ok (simulates_attach hs hx d)
  | moveConstruct x rhs =>
    have hx : alive s x = false := Op.constructs_dead hscope rfl
    refine step_matches_reads hs (y := rhs) rfl hscope fun o d ho hd => ?_
    rw [body_moveConstruct ho hd,Reference.body_moveConstruct (abs_of_held ho hd),
      ← abs_overwrite hs ho]
    exact .ok (simulates_attach (owned_overwrite hs ho _) hx d)
  | convertAssign x d =>
    rw [body_convertAssign hs (Op.assigns_alive hscope rfl)]
    exact .ok (simulates_replace hs x d)
  | copyAssign x rhs =>
    have hx : alive s x = true := Op.assigns_alive hscope rfl
    refine step_matches_reads hs (y := rhs) rfl hscope fun o d ho hd => ?_
    have hv := abs_of_held ho hd
    rw [body_copyAssign hs hx hv,Reference.body_copyAssign hv]
    exact .ok (simulates_replace hs x d)
  | moveAssign x rhs =>
    have hx : alive s x = true := Op.assigns_alive hscope rfl
    refine step_matches_reads hs (y := rhs) rfl hscope fun o d ho hd => ?_
    rw [body_moveAssign hs hx ho hd,Reference.body_moveAssign (abs_of_held ho hd),
      ← abs_overwrite hs ho]
    exact .ok (simulates_replace (owned_overwrite hs ho _) x d)
  | call x m =>
    refine step_matches_reads hs (y := x) rfl hscope fun o d ho hd => ?_
    rw [body_call ho hd,Reference.body_call (abs_of_held ho hd),← abs_overwrite hs ho]
    exact .ok ⟨owned_overwrite hs ho _,rfl⟩
  | endOfLife x =>
    obtain ⟨p,hp⟩ := alive_vars (by simpa [Op.inScope] using hscope)
    cases p with
    | none =>
      have ho : ∀ o, s.vars x ≠ some (some o) := by simp [hp]
      rw [body_endOfLife_empty hp]
      exact .ok ⟨owned_clear hs ho rfl,abs_clear rfl⟩
    | some o =>
      obtain ⟨d,hd⟩ := hs.live hp
      rw [body_endOfLife_held hp hd]
      exact .ok ⟨owned_detach hs hp rfl,abs_detach hs hp rfl⟩

end Steps

theorem step_matches (op : Op C) {s : State C} {r : Reference.State C} (h : Simulates s r) :
    Matches Simulates (step .never op s) (Reference.step op r) := by
  obtain ⟨hs,rfl⟩ := h
  simp only [step,Reference.step,alive_abs]
  split
  · exact body_matches hs op ‹_›
  · exact .stop _

theorem run_simulates (ops : List (Op C)) :
    RunMatches Simulates (run (step .never) ops init) (run Reference.step ops Reference.init) :=
  run_matches ops (fun op _ _ _ h => step_matches op h) ⟨owned_init,abs_init⟩

end FlexTypeclass.Runtime.Typeclass
