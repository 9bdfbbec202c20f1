import FlexTypeclass.Runtime.Independence

namespace FlexTypeclass.Runtime
open Lib

variable {C : Concrete}

namespace Reference

-- The second state holds a value wherever the first one does, and perhaps elsewhere.
def Covers (s q : State C) : Prop := ∀ x, s x = q x ∨ (s x = some none ∧ Held q x)

section Covers

variable {s q u : State C} {x y : Var} {d : Data C}

theorem covers_refl (s : State C) : Covers s s := fun _ => .inl rfl

theorem covers_held (h : Covers s q) (hx : s x = some (some d)) : q x = some (some d) := by
  rcases h x with hsame | ⟨hempty,-⟩
  · rw [← hsame,hx]
  · rw [hx] at hempty
    cases hempty

theorem covers_dead (h : Covers s q) (hx : s x = none) : q x = none := by
  rcases h x with hsame | ⟨hempty,-⟩
  · rw [← hsame,hx]
  · rw [hx] at hempty
    cases hempty

theorem covers_alive (h : Covers s q) : alive q = alive s := by
  funext x
  rcases h x with hsame | ⟨hempty,d,hd⟩
  · rw [alive,alive,hsame]
  · rw [alive,alive,hempty,hd]
    rfl

theorem covers_update (h : Covers s q) (x : Var) (v : Option (Option (Data C))) :
    Covers (Function.update s x v) (Function.update q x v) := by
  intro y
  by_cases hyx : y = x
  · exact .inl (by simp [hyx])
  · simpa [hyx,Held] using h y

theorem covers_clear (h : Covers s q) (hx : Held q x) : Covers (Function.update s x (some none)) q := by
  intro y
  by_cases hyx : y = x
  · subst hyx
    exact .inr ⟨by simp,hx⟩
  · simpa [hyx] using h y

theorem covers_frame {X : Set Var} {p : State C} (h : Covers s q) (hsame : Set.EqOn u p X)
    (hu : Set.EqOn u s Xᶜ) (hp : Set.EqOn p q Xᶜ) : Covers u p := by
  intro y
  by_cases hy : y ∈ X
  · exact .inl (hsame hy)
  · rw [hu hy,Held,hp hy]
    exact h y

end Covers

section Steps

variable {s q u : State C} {op : Op C} {t : Throw} {r : Option C.Result}

theorem target_held (hscope : op.inScope (alive s) = true) (hrefuses : refuses true op s = false)
    {x : Var} (hop : op.assigns = some x) : Held s x := by
  rcases held_or_empty (Op.assigns_alive hscope hop) with hempty | hheld
  · rw [refuses,hop,emptyAt_some.mpr hempty] at hrefuses
    cases hrefuses
  · exact hheld

theorem covers_mentions (h : Covers s q) (hrefuses : refuses true op s = false)
    (hstep : step op s = .ok r u) (hend : op.ends = none) : Set.EqOn s q op.mentions := by
  have hscope := (step_ok hstep).1
  have hheld {x : Var} (hx : Held s x) : s x = q x := by
    obtain ⟨d,hd⟩ := hx
    rw [hd,covers_held h hd]
  rintro x (hx | hx)
  · rcases Op.touches_cases hx with hop | hop | hop | hop
    · have hdead : s x = none := by simpa [alive] using Op.constructs_dead hscope hop
      rw [hdead,covers_dead h hdead]
    · exact hheld (target_held hscope hrefuses hop)
    · exact hheld (reads_held hop hstep)
    · rw [hend] at hop
      cases hop
  · exact hheld (reads_held hx hstep)

theorem covers_ok (h : Covers s q) (hrefuses : refuses true op s = false)
    (hstep : step op s = .ok r u) : ∃ p, body op q = .ok r p ∧ Covers u p := by
  obtain ⟨hscope,hbody⟩ := step_ok hstep
  cases hend : op.ends with
  | none =>
    have hlocal := localTo_body (subset_refl op.mentions) s q (covers_mentions h hrefuses hstep hend)
    rw [hbody] at hlocal
    obtain ⟨p,hp,hsame,hu,hq⟩ := hlocal.of_ok
    exact ⟨p,hp,covers_frame h hsame hu hq⟩
  | some x =>
    obtain rfl : op = .endOfLife x := by cases op <;> simp_all [Op.ends]
    cases hbody
    exact ⟨_,rfl,covers_update h x none⟩

theorem covers_threw (h : Covers s q) (hscope : op.inScope (alive s) = true)
    (hrefuses : refuses true op s = false) (heff : ThrowEffect true t s u op) :
    ∃ p, failing false t op q = .threw p ∧ Covers u p := by
  have htarget {x : Var} (hop : op.assigns = some x) : Held q x := by
    obtain ⟨d,hd⟩ := target_held hscope hrefuses hop
    exact ⟨d,covers_held h hd⟩
  have hinterrupt {v w : State C} (hvw : Covers v w) (y : Var) (d : Data C) :
      Covers (interruptedAt t y d v) (interruptedAt t y d w) := by
    rw [interruptedAt,interruptedAt]
    split
    · exact covers_update hvw y _
    · exact hvw
  cases op with
  | defaultConstruct x => exact heff.elim
  | call x m => exact heff.elim
  | endOfLife x => exact heff.elim
  | convertConstruct x d => obtain rfl := heff; exact ⟨q,rfl,h⟩
  | copyConstruct x rhs =>
    obtain ⟨⟨d,hd⟩,rfl⟩ := heff
    exact ⟨q,failing_copyConstruct (covers_held h hd),h⟩
  | moveConstruct x rhs =>
    obtain ⟨d,hd,rfl⟩ := heff
    exact ⟨_,failing_moveConstruct (covers_held h hd),hinterrupt h rhs d⟩
  | convertAssign x d =>
    obtain rfl := heff
    exact ⟨q,failing_convertAssign x d,covers_clear h (htarget rfl)⟩
  | copyAssign x rhs =>
    obtain ⟨⟨d,hd⟩,rfl⟩ := heff
    exact ⟨q,failing_copyAssign (covers_held h hd),covers_clear h (htarget rfl)⟩
  | moveAssign x rhs =>
    obtain ⟨d,hd,rfl⟩ := heff
    exact ⟨_,failing_moveAssign (covers_held h hd),hinterrupt (covers_clear h (htarget rfl)) rhs d⟩

theorem failing_idle (hop : builds op = false) (strict : Bool) (t : Throw) :
    failing strict t op = body op := by
  cases op <;> simp_all [builds,Op.assigns,Op.constructs,Op.isDefault] <;> rfl

theorem lax_eventStep {q : State C} (hscope : op.inScope (alive q) = true) :
    eventStep false (op,t) q = if fails false t then failing false t op q else body op q := by
  simp [eventStep,hscope,refuses]

theorem event_covers (h : Covers s q) (ht : t ≠ .alloc) :
    (∀ r u, eventStep true (op,t) s = .ok r u → ∃ p, eventStep false (op,t) q = .ok r p ∧ Covers u p) ∧
    ∀ u, eventStep true (op,t) s = .threw u → ∃ p, eventStep false (op,t) q = .threw p ∧ Covers u p := by
  have hfails : fails false t = fails true t := by cases t <;> simp_all [fails]
  have hscopes := covers_alive h
  have houtcome := eventStep_outcome true op t s
  generalize eventStep true (op,t) s = out at houtcome
  cases houtcome with
  | illFormed hscope => exact ⟨by rintro _ _ ⟨⟩,by rintro _ ⟨⟩⟩
  | refused hscope hrefused => exact ⟨by rintro _ _ ⟨⟩,by rintro _ ⟨⟩⟩
  | unset hscope hrefuses y hop hy => exact ⟨by rintro _ _ ⟨⟩,by rintro _ ⟨⟩⟩
  | @ok r u hrefuses hbuilds hstep =>
    refine ⟨?_,by rintro _ ⟨⟩⟩
    rintro _ _ ⟨⟩
    obtain ⟨p,hp,hcovers⟩ := covers_ok h hrefuses hstep
    refine ⟨p,?_,hcovers⟩
    rw [lax_eventStep (hscopes ▸ (step_ok hstep).1),hfails]
    split
    · rw [failing_idle (hbuilds ‹_›),hp]
    · exact hp
  | @threw u hscope hrefuses hthrows heff =>
    refine ⟨by rintro _ _ ⟨⟩,?_⟩
    rintro _ ⟨⟩
    obtain ⟨p,hp,hcovers⟩ := covers_threw h hscope hrefuses heff
    refine ⟨p,?_,hcovers⟩
    rw [lax_eventStep (hscopes ▸ hscope),hfails,if_pos hthrows,hp]

theorem run_covers {es : List (Op C × Throw)} (halloc : ∀ e ∈ es, e.2 ≠ .alloc) (h : Covers s q)
    (hrun : Reaches (eventStep true) s es u) : ∃ p, Reaches (eventStep false) q es p ∧ Covers u p ∧
      (run (eventStep false) es q).1 = (run (eventStep true) es s).1 := by
  induction es generalizing s q with
  | nil => exact ⟨q,reaches_nil.mpr rfl,reaches_nil.mp hrun ▸ h,rfl⟩
  | cons e es ih =>
    have hrest : ∀ e ∈ es, e.2 ≠ .alloc := fun f hf => halloc f (by simp [hf])
    obtain ⟨op,t⟩ := e
    have hstep := @event_covers C _ _ op t h (halloc (op,t) (by simp))
    obtain ⟨v,⟨r,hv⟩ | hv,htail⟩ := reaches_cons.mp hrun
    · obtain ⟨w,hw,hcovers⟩ := hstep.1 r v hv
      obtain ⟨p,hp,hup,hobs⟩ := ih hrest hcovers htail
      exact ⟨p,reaches_cons.mpr ⟨w,.inl ⟨r,hw⟩,hp⟩,hup,by simp only [run,hv,hw,hobs]⟩
    · obtain ⟨w,hw,hcovers⟩ := hstep.2 v hv
      obtain ⟨p,hp,hup,hobs⟩ := ih hrest hcovers htail
      exact ⟨p,reaches_cons.mpr ⟨w,.inr hw,hp⟩,hup,by simp only [run,hv,hw,hobs]⟩

end Steps

end Reference

theorem ok_of_view {ε σ τ ρ : Type} {f : σ → τ} {a : List (Obs ρ) × Except ε σ}
    {b : List (Obs ρ) × Except ε τ} (h : view f a = b) {v : τ} (hb : b.2 = .ok v) :
    ∃ s, a.2 = .ok s ∧ f s = v := by
  rw [← h,view] at hb
  cases ha : a.2 with
  | ok s => exact ⟨s,rfl,by simpa [ha,Except.map] using hb⟩
  | error e => simp [ha,Except.map] at hb

theorem inplace_runs_on_heap (b : InplaceTypeclass.Build) (es : List (Op C × Throw))
    (s : InplaceTypeclass.State C) (halloc : ∀ e ∈ es, e.2 ≠ .alloc)
    (h : Reaches (InplaceTypeclass.eventStep b) InplaceTypeclass.init es s) :
    ∃ q, Reaches Typeclass.eventStep Typeclass.init es q ∧
      (run Typeclass.eventStep es Typeclass.init).1 =
        (run (InplaceTypeclass.eventStep b) es InplaceTypeclass.init).1 ∧
      ∀ x d, InplaceTypeclass.abs s x = some (some d) → Typeclass.abs q x = some (some d) := by
  have hinplace := view_of_matches (InplaceTypeclass.run_events b es)
  have hheap := view_of_matches (Typeclass.run_events es)
  have hreach : Reaches (Reference.eventStep true) Reference.init es (InplaceTypeclass.abs s) := by
    rw [Reaches] at h
    rw [Reaches,← hinplace,view,h]
    rfl
  obtain ⟨p,hp,hcovers,hobs⟩ := Reference.run_covers halloc (Reference.covers_refl _) hreach
  obtain ⟨q,hq,rfl⟩ := ok_of_view hheap hp
  refine ⟨q,hq,?_,fun x d hx => Reference.covers_held hcovers hx⟩
  rw [← hheap,← hinplace] at hobs
  exact hobs

theorem inplace_runs_on_heap_held :
    ∃ q, Reaches Typeclass.eventStep Typeclass.init [(.convertConstruct 0 (.count 7),.never)] q ∧
      (run Typeclass.eventStep [(.convertConstruct 0 (.count 7),.never)] Typeclass.init).1 =
        (run (InplaceTypeclass.eventStep ⟨true,false⟩) [(.convertConstruct 0 (.count 7),.never)]
          InplaceTypeclass.init).1 ∧
      ∀ x d, InplaceTypeclass.abs (InplaceTypeclass.heldState ⟨true,false⟩) x = some (some d) →
        Typeclass.abs q x = some (some d) :=
  inplace_runs_on_heap ⟨true,false⟩ _ _ (by simp) (InplaceTypeclass.heldState_reached _)

end FlexTypeclass.Runtime
