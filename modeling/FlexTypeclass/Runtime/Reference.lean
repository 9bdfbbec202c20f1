import FlexTypeclass.Runtime.Program
import Mathlib.Logic.Function.Basic

namespace FlexTypeclass.Runtime.Reference
open Lib

variable {C : Concrete}

abbrev State (C : Concrete) := Var → Option (Option (Data C))

def init : State C := fun _ => none

def alive (s : State C) (x : Var) : Bool := (s x).isSome

def read (x : Var) : Exec Stop (State C) (Data C) := fun s =>
  match s x with
  | some (some d) => .ok d s
  | some none => .stop .fault
  | none => .stop .illFormed

theorem read_ok {s : State C} {x : Var} {d : Data C} (h : s x = some (some d)) :
    read x s = .ok d s := by simp [read,h]

theorem read_empty {s : State C} {x : Var} (h : s x = some none) :
    read x s = .stop .fault := by simp [read,h]

def put (x : Var) (v : Option (Option (Data C))) : Exec Stop (State C) Unit :=
  Exec.modify (fun s => Function.update s x v)

def hold (x : Var) (d : Data C) : Exec Stop (State C) Unit := put x (some (some d))

def body : Op C → Exec Stop (State C) (Option C.Result)
  | .defaultConstruct x => do put x (some none); pure none
  | .convertConstruct x d => do hold x d; pure none
  | .copyConstruct x rhs => do
      let d ← read rhs
      hold x d
      pure none
  | .moveConstruct x rhs => do
      let d ← read rhs
      hold rhs d.movedFrom
      hold x d
      pure none
  | .convertAssign x d => do hold x d; pure none
  | .copyAssign x rhs => do
      let d ← read rhs
      hold x d
      pure none
  | .moveAssign x rhs => do
      let d ← read rhs
      hold rhs d.movedFrom
      hold x d
      pure none
  | .call x m => do
      let d ← read x
      hold x (d.after m)
      pure (some (d.result m))
  | .endOfLife x => do put x none; pure none

section Bodies

variable {s : State C} {x rhs : Var} {d : Data C}

theorem body_copyConstruct (h : s rhs = some (some d)) :
    body (.copyConstruct x rhs) s = .ok none (Function.update s x (some (some d))) := by
  simp [body,Exec.bind_apply,read_ok h,hold,put]

theorem body_moveConstruct (h : s rhs = some (some d)) :
    body (.moveConstruct x rhs) s =
      .ok none (Function.update (Function.update s rhs (some (some d.movedFrom))) x (some (some d))) := by
  simp [body,Exec.bind_apply,read_ok h,hold,put]

theorem body_copyAssign (h : s rhs = some (some d)) :
    body (.copyAssign x rhs) s = .ok none (Function.update s x (some (some d))) := by
  simp [body,Exec.bind_apply,read_ok h,hold,put]

theorem body_moveAssign (h : s rhs = some (some d)) :
    body (.moveAssign x rhs) s =
      .ok none (Function.update (Function.update s rhs (some (some d.movedFrom))) x (some (some d))) := by
  simp [body,Exec.bind_apply,read_ok h,hold,put]

theorem body_call (h : s x = some (some d)) (m : C.Method) :
    body (.call x m) s = .ok (some (d.result m)) (Function.update s x (some (some (d.after m)))) := by
  simp [body,Exec.bind_apply,read_ok h,hold,put]

theorem body_reads_empty {op : Op C} {y : Var} (hop : op.reads = some y) (h : s y = some none) :
    body op s = .stop .fault := by
  cases op <;> simp only [Op.reads,Option.some.injEq,reduceCtorEq] at hop <;> subst hop <;>
    simp [body,Exec.bind_apply,read_empty h]

end Bodies

def step (op : Op C) : Exec Stop (State C) (Option C.Result) := fun s =>
  if op.inScope (alive s) then body op s else .stop .illFormed

theorem step_ok {op : Op C} {s t : State C} {r : Option C.Result} (h : step op s = .ok r t) :
    op.inScope (alive s) = true ∧ body op s = .ok r t := by
  rw [step] at h
  split at h
  · exact ⟨‹_›,h⟩
  · cases h

theorem noThrow_read (x : Var) : Exec.NoThrow (read (C := C) x) := by
  intro s t h
  rw [read] at h
  split at h <;> cases h

theorem noThrow_put (x : Var) (v : Option (Option (Data C))) : Exec.NoThrow (put x v) :=
  Exec.noThrow_modify _

theorem noThrow_body (op : Op C) : Exec.NoThrow (body op) := by
  have done (x v) (r : Option C.Result) : Exec.NoThrow (put (C := C) x v >>= fun _ => pure r) :=
    Exec.noThrow_bind (noThrow_put x v) (fun _ => Exec.noThrow_pure r)
  cases op with
  | defaultConstruct x => exact done _ _ _
  | convertConstruct x d => exact done _ _ _
  | convertAssign x d => exact done _ _ _
  | endOfLife x => exact done _ _ _
  | copyConstruct x rhs => exact Exec.noThrow_bind (noThrow_read rhs) (fun d => done _ _ _)
  | copyAssign x rhs => exact Exec.noThrow_bind (noThrow_read rhs) (fun d => done _ _ _)
  | moveConstruct x rhs =>
    exact Exec.noThrow_bind (noThrow_read rhs)
      (fun d => Exec.noThrow_bind (noThrow_put _ _) (fun _ => done _ _ _))
  | moveAssign x rhs =>
    exact Exec.noThrow_bind (noThrow_read rhs)
      (fun d => Exec.noThrow_bind (noThrow_put _ _) (fun _ => done _ _ _))
  | call x m => exact Exec.noThrow_bind (noThrow_read x) (fun d => done _ _ _)

theorem noThrow_step (op : Op C) : Exec.NoThrow (step op) := by
  intro s t h
  rw [step] at h
  split at h
  · exact noThrow_body op s t h
  · cases h

theorem reads_held {op : Op C} {y : Var} {s t : State C} {r : Option C.Result}
    (hop : op.reads = some y) (h : step op s = .ok r t) : ∃ d, s y = some (some d) := by
  obtain ⟨hscope,hb⟩ := step_ok h
  have halive := Op.reads_alive hscope hop
  rcases hy : s y with _ | _ | d
  · simp [alive,hy] at halive
  · rw [body_reads_empty hop hy] at hb
    cases hb
  · exact ⟨d,rfl⟩

def Effect (s t : State C) (r : Option C.Result) : Op C → Prop
  | .defaultConstruct x => t = Function.update s x (some none)
  | .convertConstruct x d => t = Function.update s x (some (some d))
  | .convertAssign x d => t = Function.update s x (some (some d))
  | .copyConstruct x rhs =>
      ∃ d, s rhs = some (some d) ∧ t = Function.update s x (some (some d))
  | .copyAssign x rhs =>
      ∃ d, s rhs = some (some d) ∧ t = Function.update s x (some (some d))
  | .moveConstruct x rhs =>
      ∃ d, s rhs = some (some d) ∧
        t = Function.update (Function.update s rhs (some (some d.movedFrom))) x (some (some d))
  | .moveAssign x rhs =>
      ∃ d, s rhs = some (some d) ∧
        t = Function.update (Function.update s rhs (some (some d.movedFrom))) x (some (some d))
  | .call x m =>
      ∃ d, s x = some (some d) ∧ t = Function.update s x (some (some (d.after m))) ∧
        r = some (d.result m)
  | .endOfLife x => t = Function.update s x none

theorem step_effect {op : Op C} {s t : State C} {r : Option C.Result} (h : step op s = .ok r t) :
    Effect s t r op := by
  have hb := (step_ok h).2
  have hr (y : Var) (hy : op.reads = some y) : ∃ d, s y = some (some d) := reads_held hy h
  cases op with
  | defaultConstruct x => cases hb; rfl
  | convertConstruct x d => cases hb; rfl
  | convertAssign x d => cases hb; rfl
  | endOfLife x => cases hb; rfl
  | copyConstruct x rhs =>
    obtain ⟨d,hd⟩ := hr rhs rfl
    rw [body_copyConstruct hd] at hb
    cases hb
    exact ⟨d,hd,rfl⟩
  | copyAssign x rhs =>
    obtain ⟨d,hd⟩ := hr rhs rfl
    rw [body_copyAssign hd] at hb
    cases hb
    exact ⟨d,hd,rfl⟩
  | moveConstruct x rhs =>
    obtain ⟨d,hd⟩ := hr rhs rfl
    rw [body_moveConstruct hd] at hb
    cases hb
    exact ⟨d,hd,rfl⟩
  | moveAssign x rhs =>
    obtain ⟨d,hd⟩ := hr rhs rfl
    rw [body_moveAssign hd] at hb
    cases hb
    exact ⟨d,hd,rfl⟩
  | call x m =>
    obtain ⟨d,hd⟩ := hr x rfl
    rw [body_call hd] at hb
    cases hb
    exact ⟨d,hd,rfl,rfl⟩

theorem step_frame {op : Op C} {s t : State C} {r : Option C.Result} {y : Var}
    (h : step op s = .ok r t) (hy : y ∉ op.touches) : t y = s y := by
  have hres := step_effect h
  cases op with
  | defaultConstruct x => obtain rfl := hres; simp_all [Op.touches]
  | convertConstruct x d => obtain rfl := hres; simp_all [Op.touches]
  | convertAssign x d => obtain rfl := hres; simp_all [Op.touches]
  | endOfLife x => obtain rfl := hres; simp_all [Op.touches]
  | copyConstruct x rhs => obtain ⟨d,-,rfl⟩ := hres; simp_all [Op.touches]
  | copyAssign x rhs => obtain ⟨d,-,rfl⟩ := hres; simp_all [Op.touches]
  | moveConstruct x rhs => obtain ⟨d,-,rfl⟩ := hres; simp_all [Op.touches]
  | moveAssign x rhs => obtain ⟨d,-,rfl⟩ := hres; simp_all [Op.touches]
  | call x m => obtain ⟨d,-,rfl,-⟩ := hres; simp_all [Op.touches]

def Held (s : State C) (y : Var) : Prop := ∃ d, s y = some (some d)

theorem held_update {s : State C} {y : Var} (h : Held s y) (x : Var) (d : Data C) :
    Held (Function.update s x (some (some d))) y := by
  by_cases hyx : y = x
  · exact ⟨d,by simp [hyx]⟩
  · simpa [Held,hyx] using h

theorem step_held {op : Op C} {s t : State C} {r : Option C.Result} {y : Var}
    (h : step op s = .ok r t) (hy : Held s y) (hend : op.ends ≠ some y) : Held t y := by
  have hres := step_effect h
  cases op with
  | defaultConstruct x =>
    obtain ⟨d,hd⟩ := hy
    have hyx : y ≠ x := by
      rintro rfl
      simpa [Op.inScope,alive,hd] using (step_ok h).1
    obtain rfl := hres
    exact ⟨d,by simpa [hyx] using hd⟩
  | convertConstruct x d => obtain rfl := hres; exact held_update hy x d
  | convertAssign x d => obtain rfl := hres; exact held_update hy x d
  | endOfLife x =>
    obtain rfl := hres
    have hyx : y ≠ x := fun e => hend (by simp [Op.ends,e])
    simpa [Held,hyx] using hy
  | copyConstruct x rhs => obtain ⟨d,-,rfl⟩ := hres; exact held_update hy x d
  | copyAssign x rhs => obtain ⟨d,-,rfl⟩ := hres; exact held_update hy x d
  | moveConstruct x rhs => obtain ⟨d,-,rfl⟩ := hres; exact held_update (held_update hy rhs _) x d
  | moveAssign x rhs => obtain ⟨d,-,rfl⟩ := hres; exact held_update (held_update hy rhs _) x d
  | call x m => obtain ⟨d,-,rfl,-⟩ := hres; exact held_update hy x _

theorem step_fault_iff {op : Op C} {s : State C} :
    step op s = .stop .fault ↔
      op.inScope (alive s) = true ∧ ∃ y, op.reads = some y ∧ s y = some none := by
  rw [step]
  split
  · rename_i hscope
    constructor
    · intro hb
      refine ⟨hscope,?_⟩
      have hread {y : Var} {k : Data C → Exec Stop (State C) (Option C.Result)}
          (hk : ∀ d u, k d u ≠ .stop .fault) (h : (read y >>= k) s = .stop .fault) :
          s y = some none := by
        rcases hy : s y with _ | _ | d
        · simp [Exec.bind_apply,read,hy] at h
        · rfl
        · rw [Exec.bind_ok (read_ok hy)] at h
          exact absurd h (hk d s)
      cases op with
      | defaultConstruct x => cases hb
      | convertConstruct x d => cases hb
      | convertAssign x d => cases hb
      | endOfLife x => cases hb
      | copyConstruct x rhs => exact ⟨rhs,rfl,hread (fun d u h => by cases h) hb⟩
      | copyAssign x rhs => exact ⟨rhs,rfl,hread (fun d u h => by cases h) hb⟩
      | moveConstruct x rhs => exact ⟨rhs,rfl,hread (fun d u h => by cases h) hb⟩
      | moveAssign x rhs => exact ⟨rhs,rfl,hread (fun d u h => by cases h) hb⟩
      | call x m => exact ⟨x,rfl,hread (fun d u h => by cases h) hb⟩
    · rintro ⟨-,y,hop,hy⟩
      exact body_reads_empty hop hy
  · rename_i hscope
    simp [hscope]

def emptyAt (s : State C) : Option Var → Bool
  | some x => (s x).any Option.isNone
  | none => false

theorem emptyAt_some {s : State C} {x : Var} : emptyAt s (some x) = true ↔ s x = some none := by
  unfold emptyAt
  rcases h : s x with _ | _ | d <;> simp [h]

-- An in-place assignment destroys its target first, so the target must hold a value.
def strictStep (op : Op C) : Exec Stop (State C) (Option C.Result) := fun s =>
  if op.inScope (alive s) then
    if emptyAt s op.assigns || op.selfAssigns then .stop .fault else body op s
  else .stop .illFormed

section Strict

variable {op : Op C} {s t : State C} {r : Option C.Result} {x y : Var}

theorem strict_ok (h : strictStep op s = .ok r t) :
    step op s = .ok r t ∧ emptyAt s op.assigns = false ∧ op.selfAssigns = false := by
  rw [strictStep] at h
  split at h
  · rename_i hscope
    split at h
    · cases h
    · rename_i hguard
      simp only [Bool.or_eq_true,not_or,Bool.not_eq_true] at hguard
      exact ⟨by simpa [step,hscope] using h,hguard⟩
  · cases h

theorem noThrow_strictStep (op : Op C) : Exec.NoThrow (strictStep op) := by
  intro s t h
  rw [strictStep] at h
  split at h
  · split at h
    · cases h
    · exact noThrow_body op s t h
  · cases h

theorem body_progress (h : ∀ y, op.reads = some y → Held s y) : ∃ r t, body op s = .ok r t := by
  cases op with
  | defaultConstruct x => exact ⟨_,_,rfl⟩
  | convertConstruct x d => exact ⟨_,_,rfl⟩
  | convertAssign x d => exact ⟨_,_,rfl⟩
  | endOfLife x => exact ⟨_,_,rfl⟩
  | copyConstruct x rhs => obtain ⟨d,hd⟩ := h rhs rfl; exact ⟨_,_,body_copyConstruct hd⟩
  | copyAssign x rhs => obtain ⟨d,hd⟩ := h rhs rfl; exact ⟨_,_,body_copyAssign hd⟩
  | moveConstruct x rhs => obtain ⟨d,hd⟩ := h rhs rfl; exact ⟨_,_,body_moveConstruct hd⟩
  | moveAssign x rhs => obtain ⟨d,hd⟩ := h rhs rfl; exact ⟨_,_,body_moveAssign hd⟩
  | call x m => obtain ⟨d,hd⟩ := h x rfl; exact ⟨_,_,body_call hd m⟩

def Full (s : State C) : Prop := ∀ x, s x ≠ some none

theorem full_init : Full (init : State C) := fun _ h => by cases h

theorem full_update {v : Option (Option (Data C))} (hs : Full s) (hv : v ≠ some none) (x : Var) :
    Full (Function.update s x v) := by
  intro y
  by_cases hyx : y = x
  · simpa [hyx] using hv
  · simpa [hyx] using hs y

theorem full_held (hs : Full s) (hy : alive s y = true) : Held s y := by
  rcases h : s y with _ | _ | d
  · simp [alive,h] at hy
  · exact absurd h (hs y)
  · exact ⟨d,h⟩

theorem strict_progress (hs : Full s) (hscope : op.inScope (alive s) = true)
    (hself : op.selfAssigns = false) : ∃ r t, strictStep op s = .ok r t := by
  have hfull : emptyAt s op.assigns = false := by
    cases hop : op.assigns with
    | none => rfl
    | some x => exact Bool.eq_false_iff.mpr fun he => hs x (emptyAt_some.mp he)
  obtain ⟨r,t,hb⟩ := body_progress fun y hop => full_held hs (Op.reads_alive hscope hop)
  exact ⟨r,t,by simp [strictStep,hscope,hfull,hself,hb]⟩

theorem step_full (hs : Full s) (hdef : op.isDefault = false) (h : step op s = .ok r t) :
    Full t := by
  have hres := step_effect h
  cases op with
  | defaultConstruct x => cases hdef
  | convertConstruct x d => obtain rfl := hres; exact full_update hs (by simp) x
  | convertAssign x d => obtain rfl := hres; exact full_update hs (by simp) x
  | endOfLife x => obtain rfl := hres; exact full_update hs (by simp) x
  | copyConstruct x rhs => obtain ⟨d,-,rfl⟩ := hres; exact full_update hs (by simp) x
  | copyAssign x rhs => obtain ⟨d,-,rfl⟩ := hres; exact full_update hs (by simp) x
  | moveConstruct x rhs =>
    obtain ⟨d,-,rfl⟩ := hres
    exact full_update (full_update hs (by simp) rhs) (by simp) x
  | moveAssign x rhs =>
    obtain ⟨d,-,rfl⟩ := hres
    exact full_update (full_update hs (by simp) rhs) (by simp) x
  | call x m => obtain ⟨d,-,rfl,-⟩ := hres; exact full_update hs (by simp) x

theorem alive_update (x : Var) (v : Option (Option (Data C))) (y : Var) :
    alive (Function.update s x v) y = if y = x then v.isSome else alive s y := by
  rw [alive]
  rw [Function.update_apply]
  split <;> rfl

def Scoped (s : State C) (A : Finset Var) : Prop := ∀ y, y ∈ A ↔ alive s y = true

theorem scoped_init : Scoped (init : State C) ∅ := by
  intro y
  simp [alive,init]

theorem scoped_eq {A : Finset Var} (h : Scoped s A) : (fun x => decide (x ∈ A)) = alive s := by
  funext x
  rw [Bool.eq_iff_iff,decide_eq_true_iff]
  exact h x

theorem step_scoped {A B : Finset Var} (hA : Scoped s A) (hB : op.scopeNext A = some B)
    (h : step op s = .ok r t) : Scoped t B := by
  have hscope := (step_ok h).1
  have hread (y : Var) (hy : op.reads = some y) : alive s y = true := Op.reads_alive hscope hy
  have hres := step_effect h
  rw [Op.scopeNext,scoped_eq hA,if_pos hscope] at hB
  rw [Scoped] at hA
  intro y
  cases op with
  | defaultConstruct x => cases hB; obtain rfl := hres; rw [alive_update]; split <;> simp_all
  | convertConstruct x d => cases hB; obtain rfl := hres; rw [alive_update]; split <;> simp_all
  | convertAssign x d =>
    cases hB; obtain rfl := hres; rw [alive_update]; split <;> simp_all [Op.inScope]
  | endOfLife x => cases hB; obtain rfl := hres; rw [alive_update]; split <;> simp_all
  | copyConstruct x rhs =>
    cases hB; obtain ⟨d,-,rfl⟩ := hres; rw [alive_update]; split <;> simp_all
  | copyAssign x rhs =>
    cases hB; obtain ⟨d,-,rfl⟩ := hres; rw [alive_update]; split <;> simp_all [Op.inScope]
  | moveConstruct x rhs =>
    cases hB
    obtain ⟨d,-,rfl⟩ := hres
    have hrhs := hread rhs rfl
    rw [alive_update,alive_update]
    split <;> [skip;split] <;> simp_all
  | moveAssign x rhs =>
    cases hB
    obtain ⟨d,-,rfl⟩ := hres
    have hrhs := hread rhs rfl
    rw [alive_update,alive_update]
    split <;> [skip;split] <;> simp_all [Op.inScope]
  | call x m =>
    cases hB; obtain ⟨d,-,rfl,-⟩ := hres; rw [alive_update]; split <;> simp_all [Op.inScope]

theorem strict_keeps_empty (h : strictStep op s = .ok r t) (hy : s y = some none)
    (hend : op.ends ≠ some y) : t y = some none := by
  obtain ⟨hstep,hfull,-⟩ := strict_ok h
  rw [← hy]
  refine step_frame hstep fun hmem => ?_
  rcases Op.touches_cases hmem with hop | hop | hop | hop
  · have hdead := Op.constructs_dead (step_ok hstep).1 hop
    simp [alive,hy] at hdead
  · rw [hop,emptyAt_some.mpr hy] at hfull
    cases hfull
  · obtain ⟨d,hd⟩ := reads_held hop hstep
    rw [hy] at hd
    cases hd
  · exact hend hop

end Strict

end FlexTypeclass.Runtime.Reference
