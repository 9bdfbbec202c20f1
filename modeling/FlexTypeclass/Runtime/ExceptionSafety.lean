import FlexTypeclass.Runtime.Refinement

namespace FlexTypeclass.Runtime
open Lib

variable {C : Concrete}

namespace Op

def among (unset : Finset Var) : Option Var → Bool
  | some x => decide (x ∈ unset)
  | none => false

def guarded (strict : Bool) (unset : Finset Var) (op : Op C) : Bool :=
  !among unset op.reads && !(strict && (among unset op.assigns || op.selfAssigns))

-- The variables that may hold nothing afterwards, whatever throws.
def unsetNext (strict : Bool) (unset : Finset Var) : Op C → Finset Var
  | .defaultConstruct x => insert x unset
  | .convertConstruct _ _ => unset
  | .copyConstruct _ _ => unset
  | .moveConstruct _ _ => unset
  | .convertAssign x _ => if strict then insert x unset else unset
  | .copyAssign x _ => if strict then insert x unset else unset
  | .moveAssign x _ => if strict then insert x unset else unset
  | .call _ _ => unset
  | .endOfLife x => unset.erase x

def leavesUnset (y : Var) (unset : Prop) : Op C → Prop
  | .defaultConstruct x => unset ∨ y = x
  | .convertConstruct _ _ => unset
  | .copyConstruct _ _ => unset
  | .moveConstruct _ _ => unset
  | .convertAssign x _ => unset ∧ y ≠ x
  | .copyAssign x _ => unset ∧ y ≠ x
  | .moveAssign x _ => unset ∧ y ≠ x
  | .call _ _ => unset
  | .endOfLife x => unset ∧ y ≠ x

end Op

def exceptionSafe (strict : Bool) : List (Op C) → Finset Var → Bool
  | [], _ => true
  | op :: ops, unset => op.guarded strict unset && exceptionSafe strict ops (op.unsetNext strict unset)

namespace Reference

def UnsetIn (s : State C) (unset : Finset Var) : Prop := ∀ x, s x = some none → x ∈ unset

def UnsetExactly (s : State C) (unset : Finset Var) : Prop := ∀ x, s x = some none ↔ x ∈ unset

section Steps

variable {strict : Bool} {t : Throw} {op : Op C} {s u : State C} {r : Option C.Result}
  {unset : Finset Var} {x y : Var}

theorem guarded_iff : op.guarded strict unset = true ↔ (∀ y, op.reads = some y → y ∉ unset) ∧
    (strict = true → (∀ x, op.assigns = some x → x ∉ unset) ∧ op.selfAssigns = false) := by
  rw [Op.guarded]
  cases hr : op.reads <;> cases ha : op.assigns <;> cases strict <;>
    cases op.selfAssigns <;> simp [Op.among]

theorem refuses_iff : refuses strict op s = true ↔
    strict = true ∧ ((∃ x, op.assigns = some x ∧ s x = some none) ∨ op.selfAssigns = true) := by
  rw [refuses,Bool.and_eq_true,Bool.or_eq_true]
  cases ha : op.assigns with
  | none => simp [emptyAt]
  | some x => simp [emptyAt_some]

theorem unset_update_held {d : Data C} : Function.update s x (some (some d)) y = some none ↔
    s y = some none ∧ y ≠ x := by
  by_cases hyx : y = x
  · simp [hyx]
  · simp [hyx]

theorem unset_update_unset : Function.update s x (some none) y = some none ↔
    s y = some none ∨ y = x := by
  by_cases hyx : y = x
  · simp [hyx]
  · simp [hyx]

theorem unset_update_gone : Function.update s x none y = some none ↔ s y = some none ∧ y ≠ x := by
  by_cases hyx : y = x
  · simp [hyx]
  · simp [hyx]

theorem unset_cleared : cleared strict x s y = some none ↔ s y = some none ∨ (strict = true ∧ y = x) := by
  cases strict with
  | false => simp [cleared]
  | true => simp [cleared,unset_update_unset]

theorem held_ne {d : Data C} (hx : s x = some (some d)) (hy : s y = some none) : y ≠ x := by
  rintro rfl
  rw [hx] at hy
  cases hy

theorem unset_interrupted {d e : Data C} (hx : s x = some (some d)) :
    interruptedAt t x e s y = some none ↔ s y = some none := by
  rw [interruptedAt]
  split
  · rw [unset_update_held]
    exact and_iff_left_of_imp fun hy => held_ne hx hy
  · rfl

theorem dead_ne (hx : alive s x = false) (hy : s y = some none) : y ≠ x := by
  rintro rfl
  simp [alive,hy] at hx

theorem step_unset (h : step op s = .ok r u) (y : Var) :
    u y = some none ↔ op.leavesUnset y (s y = some none) := by
  have hfresh (x : Var) (hop : op.constructs = some x) (hy : s y = some none) : y ≠ x :=
    dead_ne (Op.constructs_dead (step_ok h).1 hop) hy
  have heff := step_effect h
  cases op with
  | defaultConstruct x => obtain rfl := heff; exact unset_update_unset
  | convertConstruct x d =>
    obtain rfl := heff
    exact unset_update_held.trans (and_iff_left_of_imp (hfresh x rfl))
  | copyConstruct x rhs =>
    obtain ⟨d,-,rfl⟩ := heff
    exact unset_update_held.trans (and_iff_left_of_imp (hfresh x rfl))
  | moveConstruct x rhs =>
    obtain ⟨d,hd,rfl⟩ := heff
    rw [unset_update_held,unset_update_held,and_iff_left_of_imp fun hy => held_ne hd hy]
    exact and_iff_left_of_imp (hfresh x rfl)
  | convertAssign x d => obtain rfl := heff; exact unset_update_held
  | copyAssign x rhs => obtain ⟨d,-,rfl⟩ := heff; exact unset_update_held
  | moveAssign x rhs =>
    obtain ⟨d,hd,rfl⟩ := heff
    rw [unset_update_held,unset_update_held,and_iff_left_of_imp fun hy => held_ne hd hy]
    rfl
  | call x m =>
    obtain ⟨d,hd,rfl,-⟩ := heff
    exact unset_update_held.trans (and_iff_left_of_imp fun hy => held_ne hd hy)
  | endOfLife x => obtain rfl := heff; exact unset_update_gone

theorem cleared_held {d : Data C} (hd : s y = some (some d)) (h : strict = true → y ≠ x) :
    cleared strict x s y = some (some d) := by
  cases strict with
  | false => exact hd
  | true => simpa [cleared,h rfl] using hd

theorem threw_unset (hrefuses : refuses strict op s = false) (h : ThrowEffect strict t s u op)
    (y : Var) : u y = some none ↔ s y = some none ∨ (strict = true ∧ op.assigns = some y) := by
  have hassign {x : Var} : some x = some y ↔ y = x := by rw [Option.some.injEq,eq_comm]
  cases op with
  | defaultConstruct x => exact h.elim
  | call x m => exact h.elim
  | endOfLife x => exact h.elim
  | convertConstruct x d => obtain rfl := h; simp [Op.assigns]
  | copyConstruct x rhs => obtain ⟨-,rfl⟩ := h; simp [Op.assigns]
  | moveConstruct x rhs =>
    obtain ⟨d,hd,rfl⟩ := h
    simp [Op.assigns,unset_interrupted hd]
  | convertAssign x d =>
    obtain rfl := h
    rw [unset_cleared,Op.assigns,hassign]
  | copyAssign x rhs =>
    obtain ⟨-,rfl⟩ := h
    rw [unset_cleared,Op.assigns,hassign]
  | moveAssign x rhs =>
    obtain ⟨d,hd,rfl⟩ := h
    have hne : strict = true → rhs ≠ x := by
      rintro rfl rfl
      simp [refuses,Op.selfAssigns] at hrefuses
    rw [unset_interrupted (cleared_held hd hne),unset_cleared,Op.assigns,hassign]

theorem threw_held (hop : op.reads = some y) (h : ThrowEffect strict t s u op) : Held s y := by
  cases op with
  | defaultConstruct x => exact h.elim
  | call x m => exact h.elim
  | endOfLife x => exact h.elim
  | convertConstruct x d => cases hop
  | convertAssign x d => cases hop
  | copyConstruct x rhs => cases hop; exact h.1
  | copyAssign x rhs => cases hop; exact h.1
  | moveConstruct x rhs => cases hop; obtain ⟨d,hd,-⟩ := h; exact ⟨d,hd⟩
  | moveAssign x rhs => cases hop; obtain ⟨d,hd,-⟩ := h; exact ⟨d,hd⟩

theorem threw_alive (hrefuses : refuses strict op s = false) (hscope : op.inScope (alive s) = true)
    (h : ThrowEffect strict t s u op) : alive u = alive s := by
  have hhold {y : Var} {v : State C} {d e : Data C} (hd : v y = some (some d)) :
      alive (interruptedAt t y e v) = alive v := by
    funext z
    rw [interruptedAt]
    split
    · rw [alive_update]
      split
      · rename_i hzy
        rw [hzy,alive,hd]
        rfl
      · rfl
    · rfl
  have hclear {x : Var} (hx : alive s x = true) : alive (cleared strict x s) = alive s := by
    funext z
    cases strict with
    | false => rfl
    | true =>
      rw [cleared,if_pos rfl,alive_update]
      split
      · rename_i hzx
        rw [hzx,hx]
        rfl
      · rfl
  cases op with
  | defaultConstruct x => exact h.elim
  | call x m => exact h.elim
  | endOfLife x => exact h.elim
  | convertConstruct x d => obtain rfl := h; rfl
  | copyConstruct x rhs => obtain ⟨-,rfl⟩ := h; rfl
  | moveConstruct x rhs => obtain ⟨d,hd,rfl⟩ := h; exact hhold hd
  | convertAssign x d => obtain rfl := h; exact hclear (Op.assigns_alive hscope rfl)
  | copyAssign x rhs => obtain ⟨-,rfl⟩ := h; exact hclear (Op.assigns_alive hscope rfl)
  | moveAssign x rhs =>
    obtain ⟨d,hd,rfl⟩ := h
    have hne : strict = true → rhs ≠ x := by
      rintro rfl rfl
      simp [refuses,Op.selfAssigns] at hrefuses
    rw [hhold (cleared_held hd hne),hclear (Op.assigns_alive hscope rfl)]

end Steps

section Guards

variable {strict : Bool} {t : Throw} {op : Op C} {s u : State C} {r : Option C.Result}
  {unset : Finset Var} {x y : Var}

theorem mem_unsetNext_kept (h : op.assigns = none) :
    y ∈ op.unsetNext strict unset ↔ op.leavesUnset y (y ∈ unset) := by
  cases op <;> simp_all [Op.unsetNext,Op.leavesUnset,Op.assigns,and_comm,or_comm]

theorem mem_unsetNext_assigned (h : op.assigns = some x) :
    y ∈ op.unsetNext strict unset ↔ y ∈ unset ∨ (strict = true ∧ op.assigns = some y) := by
  cases op <;> simp only [Op.assigns,reduceCtorEq] at h <;> cases strict <;>
    simp [Op.unsetNext,Op.assigns,eq_comm,or_comm]

theorem leavesUnset_mono {P Q : Prop} (hPQ : P → Q) (h : op.leavesUnset y P) : op.leavesUnset y Q := by
  cases op <;> simp_all [Op.leavesUnset]
  exact h.imp_left hPQ

theorem leavesUnset_assigned {P : Prop} (hop : op.assigns = some x) (h : op.leavesUnset y P) : P := by
  cases op <;> simp_all [Op.leavesUnset,Op.assigns]

theorem unsetIn_ok (hs : UnsetIn s unset) (h : step op s = .ok r u) :
    UnsetIn u (op.unsetNext strict unset) := by
  intro y hy
  have hleaves := leavesUnset_mono (hs y) ((step_unset h y).mp hy)
  cases hop : op.assigns with
  | none => exact (mem_unsetNext_kept hop).mpr hleaves
  | some x => exact (mem_unsetNext_assigned hop).mpr (.inl (leavesUnset_assigned hop hleaves))

theorem unsetIn_threw (hs : UnsetIn s unset) (hrefuses : refuses strict op s = false)
    (h : ThrowEffect strict t s u op) : UnsetIn u (op.unsetNext strict unset) := by
  intro y hy
  have hcases := ((threw_unset hrefuses h y).mp hy).imp_left (hs y)
  cases hop : op.assigns with
  | some x => exact (mem_unsetNext_assigned hop).mpr hcases
  | none =>
    have hmem : y ∈ unset := hcases.resolve_right fun hassigned => by simp [hop] at hassigned
    cases op <;> simp_all [Op.unsetNext,Op.assigns,ThrowEffect]

theorem guarded_no_fault (hs : UnsetIn s unset) (hg : op.guarded strict unset = true) :
    eventStep strict (op,t) s ≠ .stop .fault := by
  obtain ⟨hread,hassign⟩ := guarded_iff.mp hg
  have houtcome := eventStep_outcome strict op t s
  intro hfault
  rw [hfault] at houtcome
  cases houtcome with
  | refused hscope h =>
    obtain ⟨hstrict,⟨x,hop,hx⟩ | hself⟩ := refuses_iff.mp h
    · exact (hassign hstrict).1 x hop (hs x hx)
    · rw [(hassign hstrict).2] at hself
      cases hself
  | unset hscope hrefuses y hop hy => exact hread y hop (hs y hy)

theorem exceptionSafe_no_fault {ops : List (Op C)} (hs : UnsetIn s unset)
    (hsafe : exceptionSafe strict ops unset = true) (ts : List Throw) :
    (run (eventStep strict) (ops.zip ts) s).2 ≠ .error .fault := by
  induction ops generalizing s unset ts with
  | nil => simp [run]
  | cons op ops ih =>
    rw [exceptionSafe,Bool.and_eq_true] at hsafe
    cases ts with
    | nil => simp [run]
    | cons t ts =>
      have hno : eventStep strict (op,t) s ≠ .stop .fault := guarded_no_fault hs hsafe.1
      have houtcome := eventStep_outcome strict op t s
      rw [List.zip_cons_cons,run]
      generalize eventStep strict (op,t) s = out at hno houtcome
      cases houtcome with
      | illFormed hscope => simp
      | refused hscope h => exact absurd rfl hno
      | unset hscope hrefuses y hop hy => exact absurd rfl hno
      | ok hrefuses hbuilds h => exact ih (unsetIn_ok hs h) hsafe.2 ts
      | threw hscope hrefuses hfails h => exact ih (unsetIn_threw hs hrefuses h) hsafe.2 ts

end Guards

-- The worst exceptions: every assignment fails, and every construction of a variable succeeds.
def adversary (op : Op C) : Throw := if op.assigns.isSome then .construct else .never

section Adversary

variable {strict : Bool} {op : Op C} {s u : State C} {r : Option C.Result} {unset A B : Finset Var}

theorem unguarded_faults (hs : UnsetExactly s unset) (hscope : op.inScope (alive s) = true)
    (hg : op.guarded strict unset = false) (t : Throw) : eventStep strict (op,t) s = .stop .fault := by
  have houtcome := eventStep_outcome strict op t s
  have hread {y : Var} (hop : op.reads = some y) (hy : Held s y) : y ∉ unset := by
    obtain ⟨d,hd⟩ := hy
    rw [← hs y,hd]
    simp
  have hguarded (hrefuses : refuses strict op s = false)
      (hreads : ∀ y, op.reads = some y → Held s y) : op.guarded strict unset = true := by
    refine guarded_iff.mpr ⟨fun y hop => hread hop (hreads y hop),fun hstrict => ⟨fun x hop hx => ?_,?_⟩⟩
    · have hrefused : refuses strict op s = true :=
        refuses_iff.mpr ⟨hstrict,.inl ⟨x,hop,(hs x).mpr hx⟩⟩
      rw [hrefuses] at hrefused
      cases hrefused
    · by_contra hself
      have hrefused : refuses strict op s = true :=
        refuses_iff.mpr ⟨hstrict,.inr ((Bool.not_eq_false _).mp hself)⟩
      rw [hrefuses] at hrefused
      cases hrefused
  generalize eventStep strict (op,t) s = out at houtcome
  cases houtcome with
  | illFormed hout =>
    rw [hscope] at hout
    cases hout
  | refused hscope h => rfl
  | unset hscope hrefuses y hop hy => rfl
  | ok hrefuses hbuilds h =>
    rw [hguarded hrefuses fun y hop => reads_held hop h] at hg
    cases hg
  | threw hscope hrefuses hfails h =>
    rw [hguarded hrefuses fun y hop => threw_held hop h] at hg
    cases hg

theorem leavesUnset_congr {P Q : Prop} {y : Var} (hPQ : P ↔ Q) :
    op.leavesUnset y P ↔ op.leavesUnset y Q := by rw [propext hPQ]

theorem adversary_step (hA : Scoped s A) (hs : UnsetExactly s unset) (hB : op.scopeNext A = some B)
    (hg : op.guarded strict unset = true) :
    ∃ u, ((∃ r, eventStep strict (op,adversary op) s = .ok r u) ∨
      eventStep strict (op,adversary op) s = .threw u) ∧ Scoped u B ∧
        UnsetExactly u (op.unsetNext strict unset) := by
  have hno : eventStep strict (op,adversary op) s ≠ .stop .fault :=
    guarded_no_fault (fun x => (hs x).mp) hg
  have houtcome := eventStep_outcome strict op (adversary op) s
  generalize eventStep strict (op,adversary op) s = out at hno houtcome ⊢
  cases houtcome with
  | illFormed hout =>
    rw [Op.scopeNext,scoped_eq hA,hout] at hB
    cases hB
  | refused hscope h => exact absurd rfl hno
  | unset hscope hrefuses y hop hy => exact absurd rfl hno
  | @ok r u hrefuses hbuilds h =>
    refine ⟨u,.inl ⟨r,rfl⟩,step_scoped hA hB h,fun y => ?_⟩
    have hkept : op.assigns = none := by
      cases hop : op.assigns with
      | none => rfl
      | some x => simp [builds,adversary,hop,fails] at hbuilds
    rw [step_unset h y,leavesUnset_congr (hs y),mem_unsetNext_kept hkept]
  | @threw u hscope hrefuses hfails h =>
    cases hop : op.assigns with
    | none => simp [adversary,hop,fails] at hfails
    | some x =>
      refine ⟨u,.inr rfl,fun y => ?_,fun y => ?_⟩
      · have hsame : op.scopeNext A = some A := by
          rw [Op.scopeNext,scoped_eq hA,if_pos hscope]
          cases op <;> simp_all [Op.assigns,Op.constructs,Op.ends]
        rw [threw_alive hrefuses hscope h,← Option.some.inj (hsame.symm.trans hB)]
        exact hA y
      · rw [threw_unset hrefuses h y,mem_unsetNext_assigned hop,hs y]

theorem adversary_faults {ops : List (Op C)} (hA : Scoped s A) (hs : UnsetExactly s unset)
    (hscope : (scopeRun ops A).isSome) (hbad : exceptionSafe strict ops unset = false) :
    (run (eventStep strict) (ops.zip (ops.map adversary)) s).2 = .error .fault := by
  induction ops generalizing s unset A with
  | nil => cases hbad
  | cons op ops ih =>
    obtain ⟨D,hD⟩ := Option.isSome_iff_exists.mp hscope
    obtain ⟨B,hB,hrest⟩ := Option.bind_eq_some_iff.mp hD
    have hin : op.inScope (alive s) = true := by
      rw [← scoped_eq hA]
      rw [Op.scopeNext] at hB
      split at hB
      · assumption
      · cases hB
    rw [List.map_cons,List.zip_cons_cons,run]
    cases hg : op.guarded strict unset with
    | false => rw [unguarded_faults hs hin hg]
    | true =>
      rw [exceptionSafe,hg,Bool.true_and] at hbad
      obtain ⟨u,⟨r,hu⟩ | hu,hscoped,hexact⟩ := adversary_step hA hs hB hg
      · rw [hu]
        exact ih hscoped hexact (Option.isSome_of_mem hrest) hbad
      · rw [hu]
        exact ih hscoped hexact (Option.isSome_of_mem hrest) hbad

end Adversary

theorem exceptionSafe_iff (strict : Bool) {ops : List (Op C)} (hscope : (scopeRun ops ∅).isSome) :
    (∀ ts, ts.length = ops.length → (run (eventStep strict) (ops.zip ts) init).2 ≠ .error .fault) ↔
      exceptionSafe strict ops ∅ = true := by
  have hnone : UnsetExactly (init : State C) ∅ := fun x => by simp [init]
  constructor
  · intro hall
    by_contra hbad
    exact hall (ops.map adversary) (List.length_map _)
      (adversary_faults scoped_init hnone hscope (Bool.eq_false_iff.mpr hbad))
  · intro hsafe ts _
    exact exceptionSafe_no_fault (fun x => (hnone x).mp) hsafe ts

end Reference

theorem error_of_view {ε σ τ ρ : Type} {f : σ → τ} {a : List (Obs ρ) × Except ε σ}
    {b : List (Obs ρ) × Except ε τ} (h : view f a = b) (e : ε) : a.2 = .error e ↔ b.2 = .error e := by
  rw [← h,view]
  cases a.2 <;> simp [Except.map]

theorem heap_exception_safe_iff (ops : List (Op C)) (hscope : (scopeRun ops ∅).isSome) :
    (∀ ts, ts.length = ops.length →
      (run Typeclass.eventStep (ops.zip ts) Typeclass.init).2 ≠ .error .fault) ↔
      exceptionSafe false ops ∅ = true := by
  rw [← Reference.exceptionSafe_iff false hscope]
  refine forall₂_congr fun ts _ => not_congr ?_
  exact error_of_view (view_of_matches (Typeclass.run_events (ops.zip ts))) _

theorem inplace_exception_safe_iff (b : InplaceTypeclass.Build) (ops : List (Op C))
    (hscope : (scopeRun ops ∅).isSome) : (∀ ts, ts.length = ops.length →
      (run (InplaceTypeclass.eventStep b) (ops.zip ts) InplaceTypeclass.init).2 ≠ .error .fault) ↔
      exceptionSafe true ops ∅ = true := by
  rw [← Reference.exceptionSafe_iff true hscope]
  refine forall₂_congr fun ts _ => not_congr ?_
  exact error_of_view (view_of_matches (InplaceTypeclass.run_events b (ops.zip ts))) _

def assignThenCall : List (Op Concrete.counter) :=
  [.convertConstruct 0 (.count 7),.convertAssign 0 (.count 9),.call 0 (),.endOfLife 0]

example : exceptionSafe false assignThenCall ∅ = true ∧ exceptionSafe true assignThenCall ∅ = false := by
  decide

theorem heap_exception_safe_assignThenCall : exceptionSafe false assignThenCall ∅ = true ∧
    ∀ ts, ts.length = assignThenCall.length →
      (run Typeclass.eventStep (assignThenCall.zip ts) Typeclass.init).2 ≠ .error .fault :=
  have hsafe : exceptionSafe false assignThenCall ∅ = true := by decide
  ⟨hsafe,(heap_exception_safe_iff assignThenCall (by decide)).mpr hsafe⟩

theorem inplace_exception_safe_assignThenCall : ¬ ∀ ts, ts.length = assignThenCall.length →
    (run (InplaceTypeclass.eventStep ⟨true,false⟩) (assignThenCall.zip ts) InplaceTypeclass.init).2 ≠
      .error .fault :=
  (inplace_exception_safe_iff ⟨true,false⟩ assignThenCall (by decide)).not.mpr (by decide)

end FlexTypeclass.Runtime
