import FlexTypeclass.Runtime.AssignFailure

namespace FlexTypeclass.Runtime.InplaceTypeclass
open Lib

variable {C : Concrete}

structure Untouched (s u : State C) (y : Var) : Prop where
  wrapper : u.vars y = s.vars y
  value : abs u y = abs s y

namespace Untouched

variable {s u v : State C} {x y : Var}

theorem refl (s : State C) (y : Var) : Untouched s s y := ⟨rfl,rfl⟩

theorem trans (h : Untouched s u y) (h' : Untouched u v y) : Untouched s v y :=
  ⟨h'.wrapper.trans h.wrapper,h'.value.trans h.value⟩

theorem enter (hyx : y ≠ x) : Untouched s (s.enter x) y :=
  ⟨by simp [State.enter,hyx],by rw [abs_enter,Function.update_of_ne hyx]⟩

theorem leave (hyx : y ≠ x) : Untouched s (s.leave x) y :=
  ⟨by simp [State.leave,hyx],by rw [abs_leave,Function.update_of_ne hyx]⟩

variable {b : Build} (hs : SelfContained b s) {w : Wrapper} {o : ObjId} {d : Data C}
include hs

theorem kill (hyx : y ≠ x) (hx : Stores s x w o d) : Untouched s (s.kill o) y :=
  ⟨rfl,by rw [abs_kill hs hx,Function.update_of_ne hyx]⟩

theorem overwrite (hyx : y ≠ x) (hx : Stores s x w o d) (e : Data C) :
    Untouched s (s.overwrite o e) y :=
  ⟨rfl,by rw [abs_overwrite hs hx,Function.update_of_ne hyx]⟩

theorem attach (hyx : y ≠ x) (w : Wrapper) (d : Data C) : Untouched s (s.attach b x w d) y :=
  ⟨by simp [State.attach,hyx],by rw [abs_attach hs,Function.update_of_ne hyx]⟩

end Untouched

section Frame

variable {b : Build} {s u : State C} {op : Op C} {y : Var} (hs : SelfContained b s)
  (hy : y ∉ op.touches)
include hs hy

theorem effect_untouched (hscope : op.inScope (alive s) = true) (hself : op.selfAssigns = false)
    (h : Effect b s u op) : Untouched s u y := by
  cases op with
  | defaultConstruct x =>
    obtain rfl := h
    exact .enter (by simpa [Op.touches] using hy)
  | convertConstruct x d =>
    obtain rfl := h
    have hyx : y ≠ x := by simpa [Op.touches] using hy
    exact .trans (.enter hyx) (.attach (selfContained_enter hs x) hyx _ _)
  | copyConstruct x rhs =>
    obtain ⟨v,i,e,-,rfl⟩ := h
    have hyx : y ≠ x := by simpa [Op.touches] using hy
    exact .trans (.enter hyx) (.attach (selfContained_enter hs x) hyx _ _)
  | moveConstruct x rhs =>
    obtain ⟨v,i,e,hrhs,rfl⟩ := h
    obtain ⟨hyx,hyr⟩ : y ≠ x ∧ y ≠ rhs := by simpa [Op.touches] using hy
    have hrx : rhs ≠ x := fresh_ne (Op.constructs_dead hscope rfl) (Op.reads_alive hscope rfl)
    have he := selfContained_enter hs x
    exact .trans (.trans (.enter hyx) (.overwrite he hyr (stores_enter hrx hrhs) _))
      (.attach (selfContained_overwrite he i _) hyx _ _)
  | convertAssign x d =>
    obtain ⟨w,o,c,hx,rfl⟩ := h
    have hyx : y ≠ x := by simpa [Op.touches] using hy
    exact .trans (.kill hs hyx hx) (.attach (selfContained_kill hs o) hyx _ _)
  | copyAssign x rhs =>
    obtain ⟨w,o,c,v,i,e,hx,-,rfl⟩ := h
    have hyx : y ≠ x := by simpa [Op.touches] using hy
    exact .trans (.kill hs hyx hx) (.attach (selfContained_kill hs o) hyx _ _)
  | moveAssign x rhs =>
    obtain ⟨w,o,c,v,i,e,hx,hrhs,rfl⟩ := h
    obtain ⟨hyx,hyr⟩ : y ≠ x ∧ y ≠ rhs := by simpa [Op.touches] using hy
    have hrx : rhs ≠ x := (beq_eq_false_iff_ne.mp hself).symm
    have hk := selfContained_kill hs o
    exact .trans (.trans (.kill hs hyx hx) (.overwrite hk hyr (stores_kill hs hrx hx hrhs) _))
      (.attach (selfContained_overwrite hk i _) hyx _ _)
  | call x m =>
    obtain ⟨w,o,d,hx,rfl⟩ := h
    exact .overwrite hs (by simpa [Op.touches] using hy) hx _
  | endOfLife x =>
    obtain rfl := h
    exact .leave (by simpa [Op.touches] using hy)

theorem throwEffect_untouched (hscope : op.inScope (alive s) = true) (h : ThrowEffect s u op) :
    Untouched s u y := by
  cases op with
  | defaultConstruct x => exact h.elim
  | call x m => exact h.elim
  | endOfLife x => exact h.elim
  | convertConstruct x d =>
    obtain rfl := h
    have hyx : y ≠ x := by simpa [Op.touches] using hy
    exact .trans (.enter hyx) (.leave hyx)
  | copyConstruct x rhs =>
    obtain ⟨-,rfl⟩ := h
    have hyx : y ≠ x := by simpa [Op.touches] using hy
    exact .trans (.enter hyx) (.leave hyx)
  | moveConstruct x rhs =>
    obtain ⟨v,i,e,hrhs,rfl⟩ := h
    obtain ⟨hyx,hyr⟩ : y ≠ x ∧ y ≠ rhs := by simpa [Op.touches] using hy
    have hrx : rhs ≠ x := fresh_ne (Op.constructs_dead hscope rfl) (Op.reads_alive hscope rfl)
    exact .trans (.trans (.enter hyx)
      (.overwrite (selfContained_enter hs x) hyr (stores_enter hrx hrhs) _)) (.leave hyx)
  | convertAssign x d =>
    obtain ⟨w,o,c,hx,rfl⟩ := h
    exact .kill hs (by simpa [Op.touches] using hy) hx
  | copyAssign x rhs =>
    obtain ⟨-,-,w,o,c,hx,rfl⟩ := h
    exact .kill hs (by simpa [Op.touches] using hy) hx
  | moveAssign x rhs =>
    obtain ⟨hself,w,o,c,v,i,e,hx,hrhs,rfl⟩ := h
    obtain ⟨hyx,hyr⟩ : y ≠ x ∧ y ≠ rhs := by simpa [Op.touches] using hy
    exact .trans (.kill hs hyx hx)
      (.overwrite (selfContained_kill hs o) hyr (stores_kill hs (Ne.symm hself) hx hrhs) _)

theorem ok_untouched {t : Throw} {r : Option C.Result} (h : step b t op s = .ok r u) :
    Untouched s u y := by
  have hstrict := Reference.strict_ok (event_ok hs h).2
  have hscope : op.inScope (alive s) = true := by
    rw [← alive_abs]
    exact (Reference.step_ok hstrict.1).1
  have heff : Effect b s u op := by
    by_cases ht : t = .construct
    · rw [ht,step,if_pos hscope] at h
      rcases body_construct hs op hscope with hsame | ⟨v,hv,-⟩
      · have hnever : step b .never op s = .ok r u := by rw [step,if_pos hscope,← hsame,h]
        exact step_effect hs (by decide) hnever
      · rw [hv] at h
        cases h
    · exact step_effect hs ht h
  exact effect_untouched hs hy hscope hstrict.2.2 heff

theorem threw_untouched {t : Throw} (h : step b t op s = .threw u) : Untouched s u y := by
  obtain ⟨hscope,heff⟩ := event_threw hs h
  exact throwEffect_untouched hs hy hscope heff

end Frame

-- The saved pointer is the only difference between the two builds' states.
structure SameStorage (b b' : Build) (s t : State C) : Prop where
  left : SelfContained b s
  right : SelfContained b' t
  storage : ∀ x, (t.vars x).map Wrapper.storage = (s.vars x).map Wrapper.storage
  impls : t.impls = s.impls

namespace SameStorage

variable {b b' : Build} {s t : State C} (h : SameStorage b b' s t)
include h

theorem abs_eq : abs t = abs s := by
  funext x
  have hx := h.storage x
  unfold abs
  rw [h.impls]
  cases hs : s.vars x <;> cases ht : t.vars x <;> simp_all

theorem alive_eq : alive t = alive s := by
  rw [← alive_abs,← alive_abs,h.abs_eq]

theorem stores {x : Var} {w : Wrapper} {o : ObjId} {d : Data C} (hx : Stores s x w o d) :
    ∃ v, Stores t x v o d := by
  obtain ⟨hvars,ho,hd⟩ := hx
  have hstorage := h.storage x
  rw [hvars,Option.map_some,ho] at hstorage
  obtain ⟨v,hv,hvo⟩ := Option.map_eq_some_iff.mp hstorage
  exact ⟨v,hv,hvo,h.impls ▸ hd⟩

theorem enter (x : Var) : SameStorage b b' (s.enter x) (t.enter x) where
  left := selfContained_enter h.left x
  right := selfContained_enter h.right x
  storage y := by
    by_cases hyx : y = x
    · simp [State.enter,hyx]
    · simpa [State.enter,hyx] using h.storage y
  impls := h.impls

theorem leave (x : Var) : SameStorage b b' (s.leave x) (t.leave x) where
  left := selfContained_leave h.left x
  right := selfContained_leave h.right x
  storage y := by
    by_cases hyx : y = x
    · simp [State.leave,hyx]
    · simpa [State.leave,hyx] using h.storage y
  impls := h.impls

theorem kill (o : ObjId) : SameStorage b b' (s.kill o) (t.kill o) where
  left := selfContained_kill h.left o
  right := selfContained_kill h.right o
  storage := h.storage
  impls := by rw [State.kill,State.kill,h.impls]

theorem overwrite (o : ObjId) (d : Data C) : SameStorage b b' (s.overwrite o d) (t.overwrite o d) where
  left := selfContained_overwrite h.left o d
  right := selfContained_overwrite h.right o d
  storage := h.storage
  impls := by rw [State.overwrite,State.overwrite,h.impls]

theorem attach {x : Var} {w v : Wrapper} (hw : s.vars x = some w) (hv : t.vars x = some v)
    (d : Data C) : SameStorage b b' (s.attach b x w d) (t.attach b' x v d) where
  left := selfContained_attach h.left hw d
  right := selfContained_attach h.right hv d
  storage y := by
    by_cases hyx : y = x
    · simp [State.attach,placed,hyx,h.impls]
    · simpa [State.attach,hyx] using h.storage y
  impls := by rw [State.attach,State.attach,h.impls]

theorem enter_attach (x : Var) (d : Data C) :
    SameStorage b b' ((s.enter x).attach b x emptyWrapper d)
      ((t.enter x).attach b' x emptyWrapper d) :=
  (h.enter x).attach (enter_vars x) (enter_vars x) d

theorem body_reads {th : Throw} {op : Op C} {y : Var} (hop : op.reads = some y)
    (hscope : op.inScope (alive s) = true)
    (hheld : ∀ v v' i e, Stores s y v i e → Stores t y v' i e →
      Matches (SameStorage b b') (body b th op s) (body b' th op t)) :
    Matches (SameStorage b b') (body b th op s) (body b' th op t) := by
  rcases alive_cases (Op.reads_alive hscope hop) with hempty | ⟨v,i,e,hy⟩
  · rw [body_reads_empty h.left hop hscope hempty,
      body_reads_empty h.right hop (h.alive_eq ▸ hscope) (h.abs_eq ▸ hempty)]
    exact .stop _
  · obtain ⟨v',hy'⟩ := h.stores hy
    exact hheld v v' i e hy hy'

theorem body_assigns {th : Throw} {op : Op C} {x : Var} (hop : op.assigns = some x)
    (hscope : op.inScope (alive s) = true)
    (hheld : ∀ w w' o d, Stores s x w o d → Stores t x w' o d →
      Matches (SameStorage b b') (body b th op s) (body b' th op t)) :
    Matches (SameStorage b b') (body b th op s) (body b' th op t) := by
  rcases alive_cases (Op.assigns_alive hscope hop) with hempty | ⟨w,o,d,hx⟩
  · rw [body_assigns_empty h.left hop hempty,body_assigns_empty h.right hop (h.abs_eq ▸ hempty)]
    exact .stop _
  · obtain ⟨w',hx'⟩ := h.stores hx
    exact hheld w w' o d hx hx'

theorem body_self {th : Throw} {op : Op C} (hself : op.selfAssigns = true)
    (hscope : op.inScope (alive s) = true) :
    Matches (SameStorage b b') (body b th op s) (body b' th op t) := by
  rw [body_selfAssigns h.left hself hscope,body_selfAssigns h.right hself (h.alive_eq ▸ hscope)]
  exact .stop _

theorem body_matches (th : Throw) (op : Op C) (hscope : op.inScope (alive s) = true) :
    Matches (SameStorage b b') (body b th op s) (body b' th op t) := by
  have hL := h.left
  have hR := h.right
  cases op with
  | defaultConstruct x => exact .ok (h.enter x)
  | endOfLife x => exact .ok (h.leave x)
  | call x m =>
    refine h.body_reads (y := x) rfl hscope fun v v' i e hy hy' => ?_
    rw [body_call hL hy,body_call hR hy']
    exact .ok (h.overwrite i _)
  | convertConstruct x d =>
    by_cases hth : th = .construct
    · rw [hth,body_convertConstruct_throws,body_convertConstruct_throws]
      exact .threw ((h.enter x).leave x)
    · rw [body_convertConstruct hth,body_convertConstruct hth]
      exact .ok (h.enter_attach x d)
  | copyConstruct x rhs =>
    have hrx := fresh_ne (Op.constructs_dead hscope rfl) (Op.reads_alive hscope rfl)
    refine h.body_reads (y := rhs) rfl hscope fun v v' i e hy hy' => ?_
    by_cases hth : th = .construct
    · rw [hth,body_copyConstruct_throws hL hrx hy,body_copyConstruct_throws hR hrx hy']
      exact .threw ((h.enter x).leave x)
    · rw [body_copyConstruct hth hL hrx hy,body_copyConstruct hth hR hrx hy']
      exact .ok (h.enter_attach x e)
  | moveConstruct x rhs =>
    have hrx := fresh_ne (Op.constructs_dead hscope rfl) (Op.reads_alive hscope rfl)
    refine h.body_reads (y := rhs) rfl hscope fun v v' i e hy hy' => ?_
    by_cases hth : th = .construct
    · rw [hth,body_moveConstruct_throws hL hrx hy,body_moveConstruct_throws hR hrx hy']
      exact .threw (((h.enter x).overwrite i _).leave x)
    · rw [body_moveConstruct hth hL hrx hy,body_moveConstruct hth hR hrx hy']
      exact .ok (((h.enter x).overwrite i _).attach (enter_vars x) (enter_vars x) e)
  | convertAssign x d =>
    refine h.body_assigns (x := x) rfl hscope fun w w' o c hx hx' => ?_
    by_cases hth : th = .construct
    · rw [hth,body_convertAssign_throws hL hx,body_convertAssign_throws hR hx']
      exact .threw (h.kill o)
    · rw [body_convertAssign hth hL hx,body_convertAssign hth hR hx']
      exact .ok ((h.kill o).attach hx.1 hx'.1 d)
  | copyAssign x rhs =>
    by_cases hxr : x = rhs
    · exact h.body_self (beq_iff_eq.mpr hxr) hscope
    refine h.body_assigns (x := x) rfl hscope fun w w' o c hx hx' => ?_
    refine h.body_reads (y := rhs) rfl hscope fun v v' i e hy hy' => ?_
    by_cases hth : th = .construct
    · rw [hth,body_copyAssign_throws hL (Ne.symm hxr) hx hy,
        body_copyAssign_throws hR (Ne.symm hxr) hx' hy']
      exact .threw (h.kill o)
    · rw [body_copyAssign hth hL (Ne.symm hxr) hx hy,body_copyAssign hth hR (Ne.symm hxr) hx' hy']
      exact .ok ((h.kill o).attach hx.1 hx'.1 e)
  | moveAssign x rhs =>
    by_cases hxr : x = rhs
    · exact h.body_self (beq_iff_eq.mpr hxr) hscope
    refine h.body_assigns (x := x) rfl hscope fun w w' o c hx hx' => ?_
    refine h.body_reads (y := rhs) rfl hscope fun v v' i e hy hy' => ?_
    by_cases hth : th = .construct
    · rw [hth,body_moveAssign_throws hL (Ne.symm hxr) hx hy,
        body_moveAssign_throws hR (Ne.symm hxr) hx' hy']
      exact .threw ((h.kill o).overwrite i _)
    · rw [body_moveAssign hth hL (Ne.symm hxr) hx hy,body_moveAssign hth hR (Ne.symm hxr) hx' hy']
      exact .ok (((h.kill o).overwrite i _).attach hx.1 hx'.1 e)

theorem step_matches (e : Op C × Throw) :
    Matches (SameStorage b b') (eventStep b e s) (eventStep b' e t) := by
  simp only [eventStep,step,h.alive_eq]
  split
  · exact h.body_matches e.2 e.1 ‹_›
  · exact .stop _

end SameStorage

theorem builds_match (b b' : Build) (es : List (Op C × Throw)) :
    RunMatches (SameStorage b b') (run (eventStep b) es init) (run (eventStep b') es init) :=
  run_matches es (fun e _ _ _ h => h.step_matches e)
    ⟨selfContained_init b,selfContained_init b',fun _ => rfl,rfl⟩

structure SelfContainment (b : Build) (s : State C) : Prop where
  ownStorage : ∀ x w y, s.vars x = some w → w.implBase = some y → y = x
  frame : ∀ op th u y, (∃ r, step b th op s = .ok r u) ∨ step b th op s = .threw u →
    y ∉ op.touches → Untouched s u y

-- `s` is a state of the saved-pointer build and `t` one of the launder build.
structure SameImplBase (saved launder : Build) (s t : State C) (x : Var) : Prop where
  saved : implBase saved x s = .ok (some x) s
  launder : implBase launder x t = .ok (some x) t
  object : (t.vars x).map Wrapper.storage = (s.vars x).map Wrapper.storage
  impls : t.impls = s.impls

theorem sameImplBase_given {saved launder : Build} (hsaved : saved.launder = false)
    (hlaunder : launder.launder = true) {s t : State C} (h : SameStorage saved launder s t) {x : Var}
    {w : Wrapper} (hx : s.vars x = some w) (hgiven : w.storage.isSome) :
    SameImplBase saved launder s t x := by
  have hstorage := h.storage x
  rw [hx] at hstorage
  obtain ⟨v,hv,-⟩ := Option.map_eq_some_iff.mp hstorage
  refine ⟨?_,?_,h.storage x,h.impls⟩
  · rw [implBase_ok hx,hsaved]
    cases hp : w.implBase with
    | none =>
      rw [(h.left.saved hx hsaved).mp hp] at hgiven
      cases hgiven
    | some y =>
      rw [h.left.self hx hp]
      rfl
  · rw [implBase_ok hv,hlaunder]
    rfl

end FlexTypeclass.Runtime.InplaceTypeclass
