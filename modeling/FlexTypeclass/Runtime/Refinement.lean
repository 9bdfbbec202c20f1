import FlexTypeclass.Runtime.Exceptions
import FlexTypeclass.Runtime.StrongGuarantee
import FlexTypeclass.Runtime.SelfContainment

namespace FlexTypeclass.Runtime
open Lib

variable {C : Concrete}

-- A run as the abstract state sees it: its results and exceptions, where it stops, and its last state.
def view {ε σ τ ρ : Type} (f : σ → τ) (t : List (Obs ρ) × Except ε σ) : List (Obs ρ) × Except ε τ :=
  (t.1,t.2.map f)

theorem view_of_matches {ε σ τ ρ : Type} {f : σ → τ} {I : σ → Prop} {a : List (Obs ρ) × Except ε σ}
    {b : List (Obs ρ) × Except ε τ} (h : RunMatches (fun s r => I s ∧ f s = r) a b) : view f a = b := by
  cases h with
  | ok h => obtain ⟨-,rfl⟩ := h; rfl
  | error os e => rfl

namespace Typeclass

section Events

variable {s : State C} {t : Throw} (hs : Owned s)
include hs

theorem readThrows_matches {y : Var} {u : State C} (h : ReadThrows t s u y) {d : Data C}
    (hd : abs s y = some (some d)) :
    Owned u ∧ abs u = Reference.interruptedAt t y d (abs s) := by
  rcases h with ⟨rfl,rfl⟩ | ⟨rfl,o,e,ho,he,rfl⟩
  · exact ⟨hs,rfl⟩
  · obtain rfl : e = d := by simpa [abs_of_held ho he] using hd
    exact ⟨owned_overwrite hs ho _,abs_overwrite hs ho _⟩

theorem failing_matches (ht : t ≠ .never) (op : Op C) (hscope : op.inScope (alive s) = true) :
    Matches Simulates (body t op s) (Reference.failing false t op (abs s)) := by
  have hread {y : Var} (hop : op.reads = some y)
      (hheld : ∀ o d, s.vars y = some (some o) → s.impls.value? o = some d →
        Matches Simulates (body t op s) (Reference.failing false t op (abs s))) :
      Matches Simulates (body t op s) (Reference.failing false t op (abs s)) := by
    have hy := Op.reads_alive hscope hop
    rcases hv : abs s y with _ | _ | d
    · simp [alive,abs_none.mp hv] at hy
    · rw [body_reads_empty hs hop hv,Reference.failing_reads_empty hop hv]
      exact .stop _
    · obtain ⟨o,ho,hd⟩ := abs_held hv
      exact hheld o d ho hd
  cases op with
  | defaultConstruct x => exact body_matches hs (.defaultConstruct x) hscope
  | call x m => exact body_matches hs (.call x m) hscope
  | endOfLife x => exact body_matches hs (.endOfLife x) hscope
  | convertConstruct x d =>
    have hthrow : body t (.convertConstruct x d) s = .threw s :=
      Exec.bind_threw (Exec.bind_threw (makeUnique_throws ht d))
    rw [hthrow]
    exact .threw ⟨hs,rfl⟩
  | convertAssign x d =>
    have hthrow : body t (.convertAssign x d) s = .threw s :=
      Exec.bind_threw (Exec.bind_threw (makeUnique_throws ht d))
    rw [hthrow,Reference.failing_convertAssign]
    exact .threw ⟨hs,rfl⟩
  | copyConstruct x rhs =>
    refine hread rfl fun o d ho hd => ?_
    have hthrow : body t (.copyConstruct x rhs) s = .threw s :=
      Exec.bind_threw (clone_throws ht ho hd _)
    rw [hthrow,Reference.failing_copyConstruct (abs_of_held ho hd)]
    exact .threw ⟨hs,rfl⟩
  | copyAssign x rhs =>
    refine hread rfl fun o d ho hd => ?_
    have hthrow : body t (.copyAssign x rhs) s = .threw s :=
      Exec.bind_threw (clone_throws ht ho hd _)
    rw [hthrow,Reference.failing_copyAssign (abs_of_held ho hd)]
    exact .threw ⟨hs,rfl⟩
  | moveConstruct x rhs =>
    refine hread rfl fun o d ho hd => ?_
    obtain ⟨u,hu,heff⟩ := moveClone_throws ht ho hd (fun q => setImplBase x (some (some q)))
    have hthrow : body t (.moveConstruct x rhs) s = .threw u := Exec.bind_threw hu
    rw [hthrow,Reference.failing_moveConstruct (abs_of_held ho hd)]
    exact .threw (readThrows_matches hs heff (abs_of_held ho hd))
  | moveAssign x rhs =>
    refine hread rfl fun o d ho hd => ?_
    obtain ⟨u,hu,heff⟩ := moveClone_throws ht ho hd (reset x)
    have hthrow : body t (.moveAssign x rhs) s = .threw u := Exec.bind_threw hu
    rw [hthrow,Reference.failing_moveAssign (abs_of_held ho hd)]
    exact .threw (readThrows_matches hs heff (abs_of_held ho hd))

end Events

theorem event_matches (e : Op C × Throw) {s : State C} {r : Reference.State C} (h : Simulates s r) :
    Matches Simulates (eventStep e s) (Reference.eventStep false e r) := by
  obtain ⟨hs,rfl⟩ := h
  obtain ⟨op,t⟩ := e
  have hrefuses : Reference.refuses false op (abs s) = false := rfl
  simp only [eventStep,step,Reference.eventStep,alive_abs,hrefuses]
  split
  · rename_i hscope
    by_cases ht : t = .never
    · subst ht
      exact body_matches hs op hscope
    · have hfails : Reference.fails false t = true := by cases t <;> simp_all [Reference.fails]
      rw [hfails]
      exact failing_matches hs ht op hscope
  · exact .stop _

theorem run_events (es : List (Op C × Throw)) : RunMatches Simulates (run eventStep es init)
    (run (Reference.eventStep false) es Reference.init) :=
  run_matches es (fun e _ _ _ h => event_matches e h) ⟨owned_init,abs_init⟩

theorem heap_exceptions_refine (es : List (Op C × Throw)) :
    view abs (run eventStep es init) = run (Reference.eventStep false) es Reference.init :=
  view_of_matches (run_events es)

end Typeclass

namespace InplaceTypeclass

variable {b : Build}

theorem dead_none {s : State C} {x : Var} (hx : alive s x = false) : abs s x = none := by
  rw [← alive_abs] at hx
  simpa [Reference.alive] using hx

section Events

variable {s : State C} (hs : SelfContained b s)
include hs

theorem simulates_unwind {x : Var} (hx : alive s x = false) :
    Simulates b ((s.enter x).leave x) (abs s) := by
  refine ⟨selfContained_leave (selfContained_enter hs x) x,?_⟩
  rw [abs_leave,abs_enter,update_shadow,← dead_none hx,Function.update_eq_self]

theorem refused_faults {op : Op C} (hscope : op.inScope (alive s) = true)
    (h : Reference.refuses true op (abs s) = true) (t : Throw) : body b t op s = .stop .fault := by
  rw [Reference.refuses,Bool.true_and,Bool.or_eq_true] at h
  rcases h with hempty | hself
  · cases hop : op.assigns with
    | none => simp [hop,Reference.emptyAt] at hempty
    | some x =>
      rw [hop,Reference.emptyAt_some] at hempty
      exact body_assigns_empty hs hop hempty t
  · exact body_selfAssigns hs hself hscope t

theorem failing_matches (op : Op C) (hscope : op.inScope (alive s) = true)
    (hrefuses : Reference.refuses true op (abs s) = false) :
    Matches (Simulates b) (body b .construct op s) (Reference.failing true .construct op (abs s)) := by
  rw [Reference.refuses,Bool.true_and,Bool.or_eq_false_iff] at hrefuses
  obtain ⟨hfull,hself⟩ := hrefuses
  have htarget {x : Var} (hx : op.assigns = some x) : ∃ w o d, Stores s x w o d :=
    target_stores hx hscope hfull
  have hread {y : Var} (hop : op.reads = some y) (hheld : ∀ v i e, Stores s y v i e →
      Matches (Simulates b) (body b .construct op s) (Reference.failing true .construct op (abs s))) :
      Matches (Simulates b) (body b .construct op s) (Reference.failing true .construct op (abs s)) := by
    rcases alive_cases (Op.reads_alive hscope hop) with hv | ⟨v,i,e,hy⟩
    · rw [body_reads_empty hs hop hscope hv,Reference.failing_reads_empty hop hv]
      exact .stop _
    · exact hheld v i e hy
  cases op with
  | defaultConstruct x => exact body_matches (t := .never) hs (by decide) (.defaultConstruct x) hscope rfl rfl
  | call x m => exact body_matches (t := .never) hs (by decide) (.call x m) hscope rfl rfl
  | endOfLife x => exact body_matches (t := .never) hs (by decide) (.endOfLife x) hscope rfl rfl
  | convertConstruct x d =>
    rw [body_convertConstruct_throws]
    exact .threw (simulates_unwind hs (Op.constructs_dead hscope rfl))
  | copyConstruct x rhs =>
    have hyx := fresh_ne (Op.constructs_dead hscope rfl) (Op.reads_alive hscope rfl)
    refine hread rfl fun v i e hy => ?_
    rw [body_copyConstruct_throws hs hyx hy,Reference.failing_copyConstruct (abs_stores hy)]
    exact .threw (simulates_unwind hs (Op.constructs_dead hscope rfl))
  | moveConstruct x rhs =>
    have hx := Op.constructs_dead hscope rfl
    have hyx := fresh_ne hx (Op.reads_alive hscope rfl)
    refine hread rfl fun v i e hy => ?_
    rw [body_moveConstruct_throws hs hyx hy,Reference.failing_moveConstruct (abs_stores hy)]
    have he := selfContained_enter hs x
    refine .threw ⟨selfContained_leave (selfContained_overwrite he i _) x,?_⟩
    have hdead : abs s x = none := dead_none hx
    rw [abs_leave,abs_overwrite he (stores_enter hyx hy),abs_enter,update_swap _ hyx,← hdead,
      Reference.interruptedAt,if_pos rfl]
    refine Function.update_eq_self_iff.mpr ?_
    rw [Function.update_of_ne hyx.symm]
  | convertAssign x d =>
    obtain ⟨w,o,c,hx⟩ := htarget rfl
    rw [body_convertAssign_throws hs hx,Reference.failing_convertAssign]
    exact .threw ⟨selfContained_kill hs o,abs_kill hs hx⟩
  | copyAssign x rhs =>
    obtain ⟨w,o,c,hx⟩ := htarget rfl
    have hyx : rhs ≠ x := (beq_eq_false_iff_ne.mp hself).symm
    refine hread rfl fun v i e hy => ?_
    rw [body_copyAssign_throws hs hyx hx hy,Reference.failing_copyAssign (abs_stores hy)]
    exact .threw ⟨selfContained_kill hs o,abs_kill hs hx⟩
  | moveAssign x rhs =>
    obtain ⟨w,o,c,hx⟩ := htarget rfl
    have hyx : rhs ≠ x := (beq_eq_false_iff_ne.mp hself).symm
    refine hread rfl fun v i e hy => ?_
    rw [body_moveAssign_throws hs hyx hx hy,Reference.failing_moveAssign (abs_stores hy)]
    have hk := selfContained_kill hs o
    refine .threw ⟨selfContained_overwrite hk i _,?_⟩
    rw [abs_overwrite hk (stores_kill hs hyx hx hy),abs_kill hs hx]
    rfl

end Events

theorem event_matches (e : Op C × Throw) {s : State C} {r : Reference.State C} (h : Simulates b s r) :
    Matches (Simulates b) (eventStep b e s) (Reference.eventStep true e r) := by
  obtain ⟨op,t⟩ := e
  by_cases ht : t = .construct
  · obtain ⟨hs,rfl⟩ := h
    subst ht
    simp only [eventStep,step,Reference.eventStep,alive_abs]
    split
    · rename_i hscope
      cases hrefuses : Reference.refuses true op (abs s) with
      | true =>
        rw [refused_faults hs hscope hrefuses]
        exact .stop _
      | false => exact failing_matches hs op hscope hrefuses
    · exact .stop _
  · have hfails : Reference.fails true t = false := by cases t <;> simp_all [Reference.fails]
    have hstrict : Reference.eventStep true (op,t) = Reference.strictStep op := by
      funext q
      simp [Reference.eventStep,Reference.strictStep,Reference.refuses,hfails]
    rw [hstrict]
    exact step_matches ht op h

theorem run_events (b : Build) (es : List (Op C × Throw)) : RunMatches (Simulates b)
    (run (eventStep b) es init) (run (Reference.eventStep true) es Reference.init) :=
  run_matches es (fun e _ _ _ h => event_matches e h) ⟨selfContained_init b,abs_init⟩

theorem inplace_exceptions_refine (b : Build) (es : List (Op C × Throw)) :
    view abs (run (eventStep b) es init) = run (Reference.eventStep true) es Reference.init :=
  view_of_matches (run_events b es)

end InplaceTypeclass

end FlexTypeclass.Runtime
