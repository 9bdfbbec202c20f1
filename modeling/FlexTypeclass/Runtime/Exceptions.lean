import FlexTypeclass.Runtime.Reference

namespace FlexTypeclass.Runtime.Reference
open Lib

variable {C : Concrete}

def builds (op : Op C) : Bool := op.assigns.isSome || (op.constructs.isSome && !op.isDefault)

-- With `strict` the storage is in place: an assignment destroys its target before it builds, and
-- nothing is allocated.
def fails (strict : Bool) : Throw → Bool
  | .never => false
  | .alloc => !strict
  | .construct => true

def refuses (strict : Bool) (op : Op C) (s : State C) : Bool :=
  strict && (emptyAt s op.assigns || op.selfAssigns)

def clear (strict : Bool) (x : Var) : Exec Stop (State C) Unit :=
  if strict then put x (some none) else pure ()

def interrupt (t : Throw) (x : Var) (d : Data C) : Exec Stop (State C) Unit :=
  if t = .construct then hold x d.interrupted else pure ()

def failing (strict : Bool) (t : Throw) : Op C → Exec Stop (State C) (Option C.Result)
  | .convertConstruct _ _ => Exec.throw
  | .copyConstruct _ rhs => do
      let _ ← read rhs
      Exec.throw
  | .moveConstruct _ rhs => do
      let d ← read rhs
      interrupt t rhs d
      Exec.throw
  | .convertAssign x _ => do
      clear strict x
      Exec.throw
  | .copyAssign x rhs => do
      let _ ← read rhs
      clear strict x
      Exec.throw
  | .moveAssign x rhs => do
      let d ← read rhs
      clear strict x
      interrupt t rhs d
      Exec.throw
  | .defaultConstruct x => body (.defaultConstruct x)
  | .call x m => body (.call x m)
  | .endOfLife x => body (.endOfLife x)

def eventStep (strict : Bool) (e : Op C × Throw) : Exec Stop (State C) (Option C.Result) := fun s =>
  if e.1.inScope (alive s) then
    if refuses strict e.1 s then .stop .fault
    else if fails strict e.2 then failing strict e.2 e.1 s else body e.1 s
  else .stop .illFormed

-- The in-place wrapper refuses an assignment that its target can not take.
def refusesInPlace (e : Op C × Throw) (s : State C) : Bool :=
  e.1.inScope (alive s) && refuses true e.1 s

theorem eventStep_guarded {e : Op C × Throw} (h : e.2 = .never) :
    eventStep true e = guarded refusesInPlace .fault (eventStep false) e := by
  obtain ⟨op,t⟩ := e
  obtain rfl : t = .never := h
  funext s
  rw [eventStep,guarded,refusesInPlace,eventStep]
  cases op.inScope (alive s) with
  | false => rfl
  | true => cases refuses true op s <;> rfl

theorem strict_run_iff {es : List (Op C × Throw)} (h : ∀ e ∈ es, e.2 = .never) :
    observe (run (eventStep true) es init) = observe (run (eventStep false) es init) ↔
      ForallReached (eventStep false) init es fun e s =>
        refusesInPlace e s = true → eventStep false e s = .stop .fault := by
  rw [run_congr fun e he => eventStep_guarded (h e he),run_guarded_iff]

def cleared (strict : Bool) (x : Var) (s : State C) : State C :=
  if strict then Function.update s x (some none) else s

def interruptedAt (t : Throw) (x : Var) (d : Data C) (s : State C) : State C :=
  if t = .construct then Function.update s x (some (some d.interrupted)) else s

section Failing

variable {strict : Bool} {t : Throw} {s : State C} {x rhs : Var} {d : Data C} {β : Type}

theorem clear_bind (k : Unit → Exec Stop (State C) β) :
    (clear strict x >>= k) s = k () (cleared strict x s) := by
  cases strict <;> rfl

theorem interrupt_bind (k : Unit → Exec Stop (State C) β) :
    (interrupt t x d >>= k) s = k () (interruptedAt t x d s) := by
  cases t <;> rfl

theorem failing_convertAssign (x : Var) (d : Data C) :
    failing strict t (.convertAssign x d) s = .threw (cleared strict x s) := by
  rw [failing,clear_bind]
  rfl

theorem failing_copyConstruct (h : s rhs = some (some d)) :
    failing strict t (.copyConstruct x rhs) s = .threw s := by
  rw [failing,Exec.bind_ok (read_ok h)]
  rfl

theorem failing_moveConstruct (h : s rhs = some (some d)) :
    failing strict t (.moveConstruct x rhs) s = .threw (interruptedAt t rhs d s) := by
  rw [failing,Exec.bind_ok (read_ok h),interrupt_bind]
  rfl

theorem failing_copyAssign (h : s rhs = some (some d)) :
    failing strict t (.copyAssign x rhs) s = .threw (cleared strict x s) := by
  rw [failing,Exec.bind_ok (read_ok h),clear_bind]
  rfl

theorem failing_moveAssign (h : s rhs = some (some d)) :
    failing strict t (.moveAssign x rhs) s =
      .threw (interruptedAt t rhs d (cleared strict x s)) := by
  rw [failing,Exec.bind_ok (read_ok h),clear_bind,interrupt_bind]
  rfl

theorem failing_reads_empty {op : Op C} {y : Var} (hop : op.reads = some y) (h : s y = some none) :
    failing strict t op s = .stop .fault := by
  cases op <;> simp only [Op.reads,Option.some.injEq,reduceCtorEq] at hop <;> subst hop
  · rw [failing,Exec.bind_stop (read_empty h)]
  · rw [failing,Exec.bind_stop (read_empty h)]
  · rw [failing,Exec.bind_stop (read_empty h)]
  · rw [failing,Exec.bind_stop (read_empty h)]
  · rename_i x m
    exact body_reads_empty (show (Op.call x m).reads = some x from rfl) h

end Failing

def ThrowEffect (strict : Bool) (t : Throw) (s u : State C) : Op C → Prop
  | .convertConstruct _ _ => u = s
  | .copyConstruct _ rhs => Held s rhs ∧ u = s
  | .moveConstruct _ rhs => ∃ d, s rhs = some (some d) ∧ u = interruptedAt t rhs d s
  | .convertAssign x _ => u = cleared strict x s
  | .copyAssign x rhs => Held s rhs ∧ u = cleared strict x s
  | .moveAssign x rhs =>
      ∃ d, s rhs = some (some d) ∧ u = interruptedAt t rhs d (cleared strict x s)
  | _ => False

section Events

variable {strict : Bool} {t : Throw} {op : Op C} {s u : State C} {r : Option C.Result}

theorem held_or_empty {y : Var} (h : alive s y = true) : s y = some none ∨ Held s y := by
  rcases hy : s y with _ | _ | d
  · simp [alive,hy] at h
  · exact .inl rfl
  · exact .inr ⟨d,hy⟩

-- An operation that builds nothing does not see that a construction would have failed.
theorem failing_cases (t : Throw) (hscope : op.inScope (alive s) = true) :
    (∃ y, op.reads = some y ∧ s y = some none ∧ failing strict t op s = .stop .fault) ∨
    (builds op = false ∧ failing strict t op s = body op s) ∨
    ∃ u, failing strict t op s = .threw u ∧ ThrowEffect strict t s u op := by
  have hread {y : Var} (hop : op.reads = some y) :
      (∃ y, op.reads = some y ∧ s y = some none ∧ failing strict t op s = .stop .fault) ∨ Held s y :=
    (held_or_empty (Op.reads_alive hscope hop)).imp_left
      fun h => ⟨y,hop,h,failing_reads_empty hop h⟩
  cases op with
  | defaultConstruct x => exact .inr (.inl ⟨rfl,rfl⟩)
  | call x m => exact .inr (.inl ⟨rfl,rfl⟩)
  | endOfLife x => exact .inr (.inl ⟨rfl,rfl⟩)
  | convertConstruct x d => exact .inr (.inr ⟨s,rfl,rfl⟩)
  | convertAssign x d => exact .inr (.inr ⟨_,failing_convertAssign x d,rfl⟩)
  | copyConstruct x rhs =>
    rcases hread rfl with hempty | ⟨d,hd⟩
    · exact .inl hempty
    · exact .inr (.inr ⟨_,failing_copyConstruct hd,⟨d,hd⟩,rfl⟩)
  | moveConstruct x rhs =>
    rcases hread rfl with hempty | ⟨d,hd⟩
    · exact .inl hempty
    · exact .inr (.inr ⟨_,failing_moveConstruct hd,d,hd,rfl⟩)
  | copyAssign x rhs =>
    rcases hread rfl with hempty | ⟨d,hd⟩
    · exact .inl hempty
    · exact .inr (.inr ⟨_,failing_copyAssign hd,⟨d,hd⟩,rfl⟩)
  | moveAssign x rhs =>
    rcases hread rfl with hempty | ⟨d,hd⟩
    · exact .inl hempty
    · exact .inr (.inr ⟨_,failing_moveAssign hd,d,hd,rfl⟩)

theorem body_cases (hscope : op.inScope (alive s) = true) :
    (∃ y, op.reads = some y ∧ s y = some none ∧ body op s = .stop .fault) ∨
      ∃ r u, body op s = .ok r u := by
  by_cases hempty : ∃ y, op.reads = some y ∧ s y = some none
  · obtain ⟨y,hop,hy⟩ := hempty
    exact .inl ⟨y,hop,hy,body_reads_empty hop hy⟩
  · refine .inr (body_progress fun y hop => ?_)
    exact (held_or_empty (Op.reads_alive hscope hop)).resolve_left fun hy => hempty ⟨y,hop,hy⟩

-- All that one operation can do, exceptions included.
inductive EventOutcome (strict : Bool) (op : Op C) (t : Throw) (s : State C) :
    Outcome Stop (State C) (Option C.Result) → Prop
  | illFormed (hscope : op.inScope (alive s) = false) : EventOutcome strict op t s (.stop .illFormed)
  | refused (hscope : op.inScope (alive s) = true) (h : refuses strict op s = true) :
      EventOutcome strict op t s (.stop .fault)
  | unset (hscope : op.inScope (alive s) = true) (hrefuses : refuses strict op s = false) (y : Var)
      (hop : op.reads = some y) (hy : s y = some none) : EventOutcome strict op t s (.stop .fault)
  | ok {r : Option C.Result} {u : State C} (hrefuses : refuses strict op s = false)
      (hbuilds : fails strict t = true → builds op = false) (h : step op s = .ok r u) : EventOutcome strict op t s (.ok r u)
  | threw {u : State C} (hscope : op.inScope (alive s) = true) (hrefuses : refuses strict op s = false)
      (hfails : fails strict t = true) (h : ThrowEffect strict t s u op) :
      EventOutcome strict op t s (.threw u)

theorem body_outcome (hscope : op.inScope (alive s) = true) (hrefuses : refuses strict op s = false)
    (hbuilds : fails strict t = true → builds op = false) : EventOutcome strict op t s (body op s) := by
  rcases body_cases hscope with ⟨y,hop,hy,hfault⟩ | ⟨r,u,hok⟩
  · rw [hfault]
    exact .unset hscope hrefuses y hop hy
  · rw [hok]
    exact .ok hrefuses hbuilds (by simp [step,hscope,hok])

theorem eventStep_outcome (strict : Bool) (op : Op C) (t : Throw) (s : State C) :
    EventOutcome strict op t s (eventStep strict (op,t) s) := by
  rw [eventStep]
  split
  · rename_i hscope
    split
    · exact .refused hscope ‹_›
    · rename_i hrefuses
      rw [Bool.not_eq_true] at hrefuses
      split
      · rename_i hfails
        rcases failing_cases t hscope with ⟨y,hop,hy,hfault⟩ | ⟨hbuilds,hsame⟩ | ⟨u,hu,heff⟩
        · rw [hfault]
          exact .unset hscope hrefuses y hop hy
        · rw [hsame]
          exact body_outcome hscope hrefuses fun _ => hbuilds
        · rw [hu]
          exact .threw hscope hrefuses hfails heff
      · exact body_outcome hscope hrefuses fun hfails => absurd hfails ‹_›
  · rename_i hscope
    exact .illFormed (Bool.not_eq_true _ ▸ hscope)

end Events

end FlexTypeclass.Runtime.Reference
