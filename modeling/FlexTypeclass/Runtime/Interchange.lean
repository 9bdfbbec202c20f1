import FlexTypeclass.Runtime.ValueSemantics
import FlexTypeclass.Runtime.InplaceSimulation

namespace FlexTypeclass.Runtime
open Lib

variable {C : Concrete}

def Typeclass.unset (s : Typeclass.State C) : Option Var → Bool
  | some x => s.vars x == some none
  | none => false

def Typeclass.assignsUnset (op : Op C) (s : Typeclass.State C) : Bool :=
  op.inScope (Typeclass.alive s) && Typeclass.unset s op.assigns

-- The heap wrapper under the in-place precondition "typeclass impl is not set" on assignments.
def Typeclass.guardedStep : Op C → Typeclass.M C (Option C.Result) :=
  guarded Typeclass.assignsUnset .fault (Typeclass.step .never)

theorem unset_abs {s : Typeclass.State C} (hs : Typeclass.Owned s) (x : Option Var) :
    Typeclass.unset s x = Reference.emptyAt (Typeclass.abs s) x := by
  cases x with
  | none => rfl
  | some x =>
    rcases hx : s.vars x with _ | _ | o
    · simp [Typeclass.unset,Reference.emptyAt,Typeclass.abs,hx]
    · simp [Typeclass.unset,Reference.emptyAt,Typeclass.abs,hx]
    · obtain ⟨d,hd⟩ := hs.live hx
      simp [Typeclass.unset,Reference.emptyAt,Typeclass.abs,hx,hd]

theorem guardedStep_matches {op : Op C} (hself : op.selfAssigns = false) {s : Typeclass.State C}
    {r : Reference.State C} (h : Typeclass.Simulates s r) :
    Matches Typeclass.Simulates (Typeclass.guardedStep op s) (Reference.strictStep op r) := by
  have hstep := Typeclass.step_matches op h
  obtain ⟨hs,rfl⟩ := h
  rw [Typeclass.guardedStep,guarded,Reference.strictStep,Typeclass.assignsUnset]
  rw [Typeclass.alive_abs,unset_abs hs,hself,Bool.or_false]
  cases hscope : op.inScope (Typeclass.alive s) with
  | false => simpa [Typeclass.step,Reference.step,Typeclass.alive_abs,hscope] using hstep
  | true =>
    cases hfull : Reference.emptyAt (Typeclass.abs s) op.assigns with
    | true => exact .stop _
    | false => simpa [Reference.step,Typeclass.alive_abs,hscope] using hstep

theorem guarded_simulates {ops : List (Op C)} (hself : ∀ op ∈ ops, op.selfAssigns = false) :
    RunMatches Typeclass.Simulates (run Typeclass.guardedStep ops Typeclass.init)
      (run Reference.strictStep ops Reference.init) :=
  run_matches ops (fun op hop _ _ h => guardedStep_matches (hself op hop) h)
    ⟨Typeclass.owned_init,Typeclass.abs_init⟩

theorem heap_faults_iff {op : Op C} {s : Typeclass.State C} (hs : Typeclass.Owned s)
    (hscope : op.inScope (Typeclass.alive s) = true) :
    Typeclass.step .never op s = .stop .fault ↔ Typeclass.unset s op.reads = true := by
  rw [Typeclass.step_stop_reference hs,Reference.step_fault_iff,Typeclass.alive_abs,unset_abs hs]
  simp only [hscope,true_and]
  cases op.reads with
  | none => simp [Reference.emptyAt]
  | some y => simp [Reference.emptyAt_some]

-- An unset target is given a value only from a source that is unset too.
def UnsetReadsUnset (ops : List (Op C)) : Prop :=
  ForallReached (Typeclass.step .never) Typeclass.init ops fun op s =>
    Typeclass.assignsUnset op s = true → Typeclass.unset s op.reads = true

theorem guarded_run_iff {ops : List (Op C)} :
    observe (run Typeclass.guardedStep ops Typeclass.init) =
      observe (run (Typeclass.step .never) ops Typeclass.init) ↔ UnsetReadsUnset ops := by
  rw [Typeclass.guardedStep,run_guarded_iff]
  have hfault {op : Op C} {pre : List (Op C)} {s : Typeclass.State C}
      (hr : Reaches (Typeclass.step .never) Typeclass.init pre s)
      (hrefused : Typeclass.assignsUnset op s = true) :
      Typeclass.step .never op s = .stop .fault ↔ Typeclass.unset s op.reads = true := by
    rw [Typeclass.assignsUnset,Bool.and_eq_true] at hrefused
    exact heap_faults_iff (Typeclass.owned_reaches hr).1 hrefused.1
  constructor
  · intro h pre op post s hops hr hrefused
    exact (hfault hr hrefused).mp (h pre op post s hops hr hrefused)
  · intro h pre op post s hops hr hrefused
    exact (hfault hr hrefused).mpr (h pre op post s hops hr hrefused)

theorem storages_interchangeable (b : InplaceTypeclass.Build) (ops : List (Op C))
    (hself : ∀ op ∈ ops, op.selfAssigns = false) :
    observe (run (InplaceTypeclass.step b .never) ops InplaceTypeclass.init) =
      observe (run Typeclass.guardedStep ops Typeclass.init) ∧
    (observe (run (InplaceTypeclass.step b .never) ops InplaceTypeclass.init) =
        observe (run (Typeclass.step .never) ops Typeclass.init) ↔ UnsetReadsUnset ops) := by
  have hguarded : observe (run (InplaceTypeclass.step b .never) ops InplaceTypeclass.init) =
      observe (run Typeclass.guardedStep ops Typeclass.init) :=
    (InplaceTypeclass.run_simulates b ops).observe.trans (guarded_simulates hself).observe.symm
  refine ⟨hguarded,?_⟩
  rw [hguarded]
  exact guarded_run_iff

def defaultThenMove : List (Op Concrete.counter) :=
  [.defaultConstruct 0,.convertConstruct 1 (.count 7),.moveAssign 0 1,.call 0 ()]

theorem storages_interchangeable_defaultThenMove :
    observe (run (InplaceTypeclass.step ⟨true,false⟩ .never) defaultThenMove
      InplaceTypeclass.init) = observe (run Typeclass.guardedStep defaultThenMove Typeclass.init) :=
  (storages_interchangeable ⟨true,false⟩ defaultThenMove (by decide)).1

theorem default_then_move_differs :
    observe (run (Typeclass.step .never) defaultThenMove Typeclass.init) =
      ([.done none,.done none,.done none,.done (some ((Data.count 7).result ()))],none) ∧
    ∀ launder ndebug, observe (run (InplaceTypeclass.step ⟨launder,ndebug⟩ .never) defaultThenMove
      InplaceTypeclass.init) = ([.done none,.done none],some .fault) := by
  refine ⟨rfl,?_⟩
  intro launder ndebug
  cases launder <;> cases ndebug <;> rfl

end FlexTypeclass.Runtime
