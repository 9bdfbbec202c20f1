import Mathlib.Logic.Basic
import Mathlib.Data.List.Basic

namespace FlexTypeclass.Lib

inductive Outcome (ε σ α : Type) where
  | ok (a : α) (s : σ)
  | threw (s : σ)
  | stop (e : ε)
  deriving DecidableEq, Repr

def Exec (ε σ α : Type) := σ → Outcome ε σ α

namespace Exec

variable {ε σ τ α β ρ ι : Type}

protected def pure (a : α) : Exec ε σ α := fun s => .ok a s

protected def bind (x : Exec ε σ α) (f : α → Exec ε σ β) : Exec ε σ β := fun s =>
  match x s with
  | .ok a t => f a t
  | .threw t => .threw t
  | .stop e => .stop e

instance : Monad (Exec ε σ) where
  pure := Exec.pure
  bind := Exec.bind

def get : Exec ε σ σ := fun s => .ok s s

def modify (f : σ → σ) : Exec ε σ Unit := fun s => .ok () (f s)

def throw : Exec ε σ α := fun s => .threw s

def stop (e : ε) : Exec ε σ α := fun _ => .stop e

@[simp] theorem pure_apply (a : α) (s : σ) : (pure a : Exec ε σ α) s = .ok a s := rfl

@[simp] theorem modify_apply (f : σ → σ) (s : σ) :
    (modify f : Exec ε σ Unit) s = .ok () (f s) := rfl

theorem bind_apply (x : Exec ε σ α) (f : α → Exec ε σ β) (s : σ) :
    (x >>= f) s = match x s with
      | .ok a t => f a t
      | .threw t => .threw t
      | .stop e => .stop e := rfl

theorem bind_ok {x : Exec ε σ α} {f : α → Exec ε σ β} {s t : σ} {a : α} (h : x s = .ok a t) :
    (x >>= f) s = f a t := by simp [bind_apply,h]

theorem bind_threw {x : Exec ε σ α} {f : α → Exec ε σ β} {s t : σ} (h : x s = .threw t) :
    (x >>= f) s = .threw t := by simp [bind_apply,h]

theorem bind_stop {x : Exec ε σ α} {f : α → Exec ε σ β} {s : σ} {e : ε} (h : x s = .stop e) :
    (x >>= f) s = .stop e := by simp [bind_apply,h]

@[simp] theorem modify_bind (g : σ → σ) (f : Unit → Exec ε σ β) (s : σ) :
    (modify g >>= f) s = f () (g s) := rfl

def NoThrow (x : Exec ε σ α) : Prop := ∀ s t, x s ≠ .threw t

theorem noThrow_pure (a : α) : NoThrow (pure a : Exec ε σ α) := fun _ _ h => by cases h

theorem noThrow_modify (f : σ → σ) : NoThrow (modify f : Exec ε σ Unit) := fun _ _ h => by cases h

theorem noThrow_bind {x : Exec ε σ α} {f : α → Exec ε σ β} (hx : NoThrow x)
    (hf : ∀ a, NoThrow (f a)) : NoThrow (x >>= f) := by
  intro s t h
  rw [bind_apply] at h
  cases hxs : x s with
  | ok a u => rw [hxs] at h; exact hf a u t h
  | threw u => exact hx s u hxs
  | stop e => rw [hxs] at h; cases h

end Exec

inductive Obs (ρ : Type) where
  | done (r : ρ)
  | threw
  deriving DecidableEq, Repr

section Run

variable {ε σ τ ρ ι : Type}

def run (step : ι → Exec ε σ ρ) : List ι → σ → List (Obs ρ) × Except ε σ
  | [], s => ([],.ok s)
  | i :: is, s =>
    match step i s with
    | .ok r t => let rest := run step is t; (.done r :: rest.1,rest.2)
    | .threw t => let rest := run step is t; (.threw :: rest.1,rest.2)
    | .stop e => ([],.error e)

def observe (t : List (Obs ρ) × Except ε σ) : List (Obs ρ) × Option ε :=
  (t.1,match t.2 with | .ok _ => none | .error e => some e)

variable (step : ι → Exec ε σ ρ)

theorem run_append (is js : List ι) (s : σ) :
    run step (is ++ js) s = match (run step is s).2 with
      | .ok t => ((run step is s).1 ++ (run step js t).1,(run step js t).2)
      | .error e => ((run step is s).1,.error e) := by
  induction is generalizing s with
  | nil => simp [run]
  | cons i is ih =>
    simp only [List.cons_append,run]
    cases step i s with
    | ok r t => simp only [ih]; cases (run step is t).2 <;> rfl
    | threw t => simp only [ih]; cases (run step is t).2 <;> rfl
    | stop e => rfl

theorem run_congr {step step' : ι → Exec ε σ ρ} {is : List ι} {s : σ}
    (h : ∀ i ∈ is, step i = step' i) : run step is s = run step' is s := by
  induction is generalizing s with
  | nil => rfl
  | cons i is ih =>
    have hrest : ∀ j ∈ is, step j = step' j := fun j hj => h j (List.mem_cons_of_mem i hj)
    simp only [run,h i List.mem_cons_self,ih hrest]

def Reaches (s : σ) (is : List ι) (t : σ) : Prop := (run step is s).2 = .ok t

variable {step}

theorem reaches_nil {s t : σ} : Reaches step s [] t ↔ s = t := by
  simp [Reaches,run]

theorem reaches_cons {s t : σ} {i : ι} {is : List ι} :
    Reaches step s (i :: is) t ↔
      ∃ u, ((∃ r, step i s = .ok r u) ∨ step i s = .threw u) ∧ Reaches step u is t := by
  simp only [Reaches,run]
  cases h : step i s with
  | ok r u => simp
  | threw u => simp
  | stop e => simp

theorem reaches_append {s t : σ} {is js : List ι} :
    Reaches step s (is ++ js) t ↔ ∃ u, Reaches step s is u ∧ Reaches step u js t := by
  simp only [Reaches,run_append]
  cases h : (run step is s).2 <;> simp

-- `P` holds of each instruction in the state in which the run meets it.
def ForallReached (step : ι → Exec ε σ ρ) (s : σ) (is : List ι) (P : ι → σ → Prop) : Prop :=
  ∀ pre i post t, is = pre ++ i :: post → Reaches step s pre t → P i t

section ForallReached

variable {P : ι → σ → Prop} {s u : σ} {i : ι} {is : List ι}

theorem forallReached_nil : ForallReached step s [] P := by
  intro pre i post t h
  simp at h

theorem forallReached_cons (hu : (∃ r, step i s = .ok r u) ∨ step i s = .threw u) :
    ForallReached step s (i :: is) P ↔ P i s ∧ ForallReached step u is P := by
  constructor
  · intro h
    refine ⟨h [] i is s rfl (reaches_nil.mpr rfl),fun pre j post t heq hr => ?_⟩
    exact h (i :: pre) j post t (by rw [heq]; rfl) (reaches_cons.mpr ⟨u,hu,hr⟩)
  · rintro ⟨hhead,htail⟩ pre j post t heq hr
    cases pre with
    | nil =>
      obtain ⟨rfl,rfl⟩ := List.cons.inj heq
      obtain rfl := reaches_nil.mp hr
      exact hhead
    | cons k pre =>
      obtain ⟨rfl,rfl⟩ := List.cons.inj heq
      obtain ⟨v,hv,hr⟩ := reaches_cons.mp hr
      have hvu : v = u := by
        rcases hu with ⟨r,hu⟩ | hu <;> rcases hv with ⟨q,hv⟩ | hv <;> simp_all
      exact htail pre j post t rfl (hvu ▸ hr)

theorem forallReached_stop {e : ε} (h : step i s = .stop e) :
    ForallReached step s (i :: is) P ↔ P i s := by
  refine ⟨fun hall => hall [] i is s rfl (reaches_nil.mpr rfl),fun hhead pre j post t heq hr => ?_⟩
  cases pre with
  | nil =>
    obtain ⟨rfl,rfl⟩ := List.cons.inj heq
    obtain rfl := reaches_nil.mp hr
    exact hhead
  | cons k pre =>
    obtain ⟨rfl,rfl⟩ := List.cons.inj heq
    obtain ⟨v,hv,-⟩ := reaches_cons.mp hr
    simp [h] at hv

theorem run_not_error_iff {e : ε} : (run step is s).2 ≠ .error e ↔
    ForallReached step s is fun i t => step i t ≠ .stop e := by
  induction is generalizing s with
  | nil => exact iff_of_true (by simp [run]) forallReached_nil
  | cons i is ih =>
    cases hs : step i s with
    | ok r u =>
      rw [forallReached_cons (.inl ⟨r,hs⟩),← ih]
      simp [run,hs]
    | threw u =>
      rw [forallReached_cons (.inr hs),← ih]
      simp [run,hs]
    | stop e' =>
      rw [forallReached_stop hs]
      simp [run,hs]

theorem run_error_iff {e : ε} : (run step is s).2 = .error e ↔
    ∃ pre i post t, is = pre ++ i :: post ∧ Reaches step s pre t ∧ step i t = .stop e := by
  rw [← not_iff_not,← ne_eq,run_not_error_iff]
  constructor
  · rintro h ⟨pre,i,post,t,heq,hr,hstop⟩
    exact h pre i post t heq hr hstop
  · intro h pre i post t heq hr hstop
    exact h ⟨pre,i,post,t,heq,hr,hstop⟩

end ForallReached

def guarded (refuses : ι → σ → Bool) (e : ε) (step : ι → Exec ε σ ρ) : ι → Exec ε σ ρ :=
  fun i s => if refuses i s then .stop e else step i s

-- A guard goes unnoticed when it refuses only what stops in the same way without it.
theorem run_guarded_iff {refuses : ι → σ → Bool} {e : ε} {is : List ι} {s : σ} :
    observe (run (guarded refuses e step) is s) = observe (run step is s) ↔
      ForallReached step s is fun i t => refuses i t = true → step i t = .stop e := by
  induction is generalizing s with
  | nil => exact iff_of_true rfl forallReached_nil
  | cons i is ih =>
    cases hstep : step i s with
    | ok r u =>
      rw [forallReached_cons (.inl ⟨r,hstep⟩),← ih]
      cases hrefuses : refuses i s <;> simp [run,guarded,hrefuses,hstep,observe]
    | threw u =>
      rw [forallReached_cons (.inr hstep),← ih]
      cases hrefuses : refuses i s <;> simp [run,guarded,hrefuses,hstep,observe]
    | stop e' =>
      rw [forallReached_stop hstep]
      cases hrefuses : refuses i s <;> simp [run,guarded,hrefuses,hstep,observe,eq_comm]

structure Preserved (step : ι → Exec ε σ ρ) (Q : ι → Prop) (P : σ → Prop) : Prop where
  ok : ∀ {i s r t}, Q i → P s → step i s = .ok r t → P t
  threw : ∀ {i s t}, Q i → P s → step i s = .threw t → P t

theorem Preserved.reaches {Q : ι → Prop} {P : σ → Prop} (h : Preserved step Q P) {s t : σ}
    {is : List ι} (hQ : ∀ i ∈ is, Q i) (hs : P s) (hr : Reaches step s is t) : P t := by
  induction is generalizing s with
  | nil => exact reaches_nil.mp hr ▸ hs
  | cons i is ih =>
    have hrest : ∀ j ∈ is, Q j := fun j hj => hQ j (by simp [hj])
    obtain ⟨u,⟨r,hu⟩ | hu,htail⟩ := reaches_cons.mp hr
    · exact ih hrest (h.ok (hQ i (by simp)) hs hu) htail
    · exact ih hrest (h.threw (hQ i (by simp)) hs hu) htail

inductive Matches (R : σ → τ → Prop) : Outcome ε σ ρ → Outcome ε τ ρ → Prop
  | ok {r s t} (h : R s t) : Matches R (.ok r s) (.ok r t)
  | threw {s t} (h : R s t) : Matches R (.threw s) (.threw t)
  | stop (e) : Matches R (.stop e) (.stop e)

section Matching

variable {R : σ → τ → Prop} {a : Outcome ε σ ρ} {b : Outcome ε τ ρ}

theorem Matches.of_ok {r : ρ} {s : σ} (h : Matches R (.ok r s) b) : ∃ t, b = .ok r t ∧ R s t := by
  cases h with
  | ok hR => exact ⟨_,rfl,hR⟩

theorem Matches.of_threw {s : σ} (h : Matches R (.threw s) b) : ∃ t, b = .threw t ∧ R s t := by
  cases h with
  | threw hR => exact ⟨_,rfl,hR⟩

theorem Matches.stop_iff {e : ε} (h : Matches R a b) : a = .stop e ↔ b = .stop e := by
  cases h <;> simp

end Matching

inductive RunMatches (R : σ → τ → Prop) :
    List (Obs ρ) × Except ε σ → List (Obs ρ) × Except ε τ → Prop
  | ok {os s t} (h : R s t) : RunMatches R (os,.ok s) (os,.ok t)
  | error (os e) : RunMatches R (os,.error e) (os,.error e)

theorem RunMatches.observe {R : σ → τ → Prop} {a : List (Obs ρ) × Except ε σ}
    {b : List (Obs ρ) × Except ε τ} (h : RunMatches R a b) : observe a = observe b := by
  cases h <;> rfl

theorem RunMatches.of_ok {R : σ → τ → Prop} {a : List (Obs ρ) × Except ε σ}
    {b : List (Obs ρ) × Except ε τ} {s : σ} (h : RunMatches R a b) (ha : a.2 = .ok s) :
    ∃ t, b.2 = .ok t ∧ R s t := by
  cases h with
  | ok hR => cases ha; exact ⟨_,rfl,hR⟩
  | error os e => cases ha

theorem RunMatches.ok_iff {R : σ → τ → Prop} {a : List (Obs ρ) × Except ε σ}
    {b : List (Obs ρ) × Except ε τ} (h : RunMatches R a b) :
    (∃ s, a.2 = .ok s) ↔ ∃ t, b.2 = .ok t := by
  cases h <;> simp

theorem RunMatches.cons {R : σ → τ → Prop} {a : List (Obs ρ) × Except ε σ}
    {b : List (Obs ρ) × Except ε τ} (o : Obs ρ) (h : RunMatches R a b) :
    RunMatches R (o :: a.1,a.2) (o :: b.1,b.2) := by
  cases h with
  | ok h => exact .ok h
  | error os e => exact .error (o :: os) e

theorem run_matches {step : ι → Exec ε σ ρ} {step' : ι → Exec ε τ ρ} {R : σ → τ → Prop}
    (is : List ι) (h : ∀ i ∈ is, ∀ s t, R s t → Matches R (step i s) (step' i t))
    {s : σ} {t : τ} (hst : R s t) : RunMatches R (run step is s) (run step' is t) := by
  induction is generalizing s t with
  | nil => exact .ok hst
  | cons i is ih =>
    have hi := h i (by simp) s t hst
    have hrest : ∀ j ∈ is, ∀ s t, R s t → Matches R (step j s) (step' j t) :=
      fun j hj => h j (by simp [hj])
    simp only [run]
    generalize step i s = a at hi
    generalize step' i t = b at hi
    cases hi with
    | ok hR => exact (ih hrest hR).cons _
    | threw hR => exact (ih hrest hR).cons _
    | stop e => exact .error [] e

end Run

end FlexTypeclass.Lib
