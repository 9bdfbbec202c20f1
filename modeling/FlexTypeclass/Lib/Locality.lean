import FlexTypeclass.Lib.Exec
import Mathlib.Data.Set.Function
import Mathlib.Logic.Function.Basic

namespace FlexTypeclass.Lib

section LocalTo

variable {ε V α β γ : Type}

-- The computation reads and writes only the locations of `X`.
def LocalTo (X : Set V) (m : Exec ε (V → α) β) : Prop :=
  ∀ s t, Set.EqOn s t X →
    Matches (fun u v => Set.EqOn u v X ∧ Set.EqOn u s Xᶜ ∧ Set.EqOn v t Xᶜ) (m s) (m t)

variable {X Y : Set V}

theorem localTo_pure (b : β) : LocalTo X (pure b : Exec ε (V → α) β) :=
  fun s t h => .ok ⟨h,Set.eqOn_refl s _,Set.eqOn_refl t _⟩

theorem localTo_throw : LocalTo X (Exec.throw : Exec ε (V → α) β) :=
  fun s t h => .threw ⟨h,Set.eqOn_refl s _,Set.eqOn_refl t _⟩

theorem localTo_stop (e : ε) : LocalTo X (Exec.stop e : Exec ε (V → α) β) := fun _ _ _ => .stop e

theorem localTo_bind {m : Exec ε (V → α) β} {f : β → Exec ε (V → α) γ} (hm : LocalTo X m)
    (hf : ∀ b, LocalTo X (f b)) : LocalTo X (m >>= f) := by
  intro s t hst
  have hfirst := hm s t hst
  rw [Exec.bind_apply,Exec.bind_apply]
  generalize m s = a at hfirst
  generalize m t = b at hfirst
  cases hfirst with
  | stop e => exact .stop e
  | threw h => exact .threw h
  | @ok r u v h =>
    have hsecond := hf r u v h.1
    change Matches _ (f r u) (f r v)
    generalize f r u = a at hsecond ⊢
    generalize f r v = b at hsecond ⊢
    cases hsecond with
    | stop e => exact .stop e
    | threw k => exact .threw ⟨k.1,k.2.1.trans h.2.1,k.2.2.trans h.2.2⟩
    | ok k => exact .ok ⟨k.1,k.2.1.trans h.2.1,k.2.2.trans h.2.2⟩

theorem LocalTo.mono {m : Exec ε (V → α) β} (hm : LocalTo X m) (hXY : X ⊆ Y) : LocalTo Y m := by
  intro s t hst
  have h := hm s t (hst.mono hXY)
  have hwide {u v : V → α} (k : Set.EqOn u v X ∧ Set.EqOn u s Xᶜ ∧ Set.EqOn v t Xᶜ) :
      Set.EqOn u v Y ∧ Set.EqOn u s Yᶜ ∧ Set.EqOn v t Yᶜ := by
    obtain ⟨huv,hu,hv⟩ := k
    have hout := Set.compl_subset_compl.mpr hXY
    refine ⟨fun y hy => ?_,hu.mono hout,hv.mono hout⟩
    by_cases hx : y ∈ X
    · exact huv hx
    · rw [hu hx,hv hx,hst hy]
  generalize m s = a at h
  generalize m t = b at h
  cases h with
  | stop e => exact .stop e
  | threw k => exact .threw (hwide k)
  | ok k => exact .ok (hwide k)

theorem localTo_update [DecidableEq V] {x : V} (hx : x ∈ X) (v : α) :
    LocalTo X (Exec.modify (fun s => Function.update s x v) : Exec ε (V → α) Unit) := by
  have hframe (s : V → α) : Set.EqOn (Function.update s x v) s Xᶜ := by
    intro y hy
    have hyx : y ≠ x := by
      rintro rfl
      exact hy hx
    exact Function.update_of_ne hyx v s
  intro s t hst
  refine .ok ⟨?_,hframe s,hframe t⟩
  intro y hy
  simp only [Function.update_apply,hst hy]

theorem localTo_ite {c : (V → α) → Prop} [DecidablePred c] {m k : Exec ε (V → α) β}
    (hc : ∀ s t, Set.EqOn s t X → (c s ↔ c t)) (hm : LocalTo X m) (hk : LocalTo X k) :
    LocalTo X (fun s => if c s then m s else k s) := by
  intro s t hst
  have hiff := hc s t hst
  by_cases h : c s
  · have ht : c t := hiff.mp h
    simpa [h,ht] using hm s t hst
  · have ht : ¬ c t := fun ht => h (hiff.mpr ht)
    simpa [h,ht] using hk s t hst

end LocalTo

section Interleaving

variable {ε V α ρ ι : Type} {step : ι → Exec ε (V → α) ρ} {support : ι → Set V}

def part (mine : ι → Bool) (is : List ι) (os : List (Obs ρ)) : List (Obs ρ) :=
  ((is.zip os).filter (fun e => mine e.1)).map Prod.snd

-- What one part of an interleaving sees of the whole: its own results, and its own locations.
structure Separates (mine : ι → Bool) (X : Set V) (is : List ι)
    (whole own other : List (Obs ρ) × Except ε (V → α)) : Prop where
  finishes : (∃ t, whole.2 = .ok t) ↔ (∃ t, own.2 = .ok t) ∧ ∃ t, other.2 = .ok t
  results : (∃ t, whole.2 = .ok t) →
    part mine is whole.1 = own.1 ∧ part (fun i => !mine i) is whole.1 = other.1
  state : ∀ t u v, whole.2 = .ok t → own.2 = .ok u → other.2 = .ok v →
    Set.EqOn t u X ∧ Set.EqOn t v Xᶜ

variable {mine : ι → Bool} {X : Set V} {is : List ι} {whole own other : List (Obs ρ) × Except ε (V → α)}

theorem Separates.swap (h : Separates mine X is whole own other) :
    Separates (fun i => !mine i) Xᶜ is whole other own where
  finishes := h.finishes.trans and_comm
  results hw := by simpa using (h.results hw).symm
  state t u v ht hu hv := by simpa using (h.state t v u ht hv hu).symm

theorem Separates.cons {i : ι} (hi : mine i = true) (o : Obs ρ)
    (h : Separates mine X is whole own other) :
    Separates mine X (i :: is) (o :: whole.1,whole.2) (o :: own.1,own.2) other where
  finishes := h.finishes
  results hw := by
    obtain ⟨hown,hother⟩ := h.results hw
    simpa [part,hi] using And.intro hown hother
  state := h.state

theorem separates_stopped {i : ι} {e : ε} {o : List (Obs ρ) × Except ε (V → α)} :
    Separates mine X (i :: is) ([],.error e) ([],.error e) o where
  finishes := by simp
  results := by simp
  state := by simp

theorem separates_step {i : ι} (hlocal : LocalTo (support i) (step i)) (hX : support i ⊆ X)
    (hi : mine i = true) {s a b : V → α} (ha : Set.EqOn s a X) (hb : Set.EqOn s b Xᶜ)
    (ih : ∀ s a b : V → α, Set.EqOn s a X → Set.EqOn s b Xᶜ →
      Separates mine X is (run step is s) (run step (is.filter mine) a)
        (run step (is.filter fun i => !mine i) b)) :
    Separates mine X (i :: is) (run step (i :: is) s) (run step ((i :: is).filter mine) a)
      (run step ((i :: is).filter fun i => !mine i) b) := by
  have hstep := hlocal.mono hX s a ha
  simp only [List.filter_cons,hi,if_true,Bool.not_true,Bool.false_eq_true,if_false,run]
  generalize step i s = x at hstep
  generalize step i a = y at hstep
  cases hstep with
  | stop e => exact separates_stopped
  | threw h => exact (ih _ _ _ h.1 (h.2.1.trans hb)).cons hi _
  | ok h => exact (ih _ _ _ h.1 (h.2.1.trans hb)).cons hi _

theorem run_separates (hlocal : ∀ i, LocalTo (support i) (step i)) (is : List ι)
    (hin : ∀ i ∈ is, mine i = true → support i ⊆ X)
    (hout : ∀ i ∈ is, mine i = false → support i ⊆ Xᶜ) {s a b : V → α} (ha : Set.EqOn s a X)
    (hb : Set.EqOn s b Xᶜ) :
    Separates mine X is (run step is s) (run step (is.filter mine) a)
      (run step (is.filter fun i => !mine i) b) := by
  induction is generalizing s a b with
  | nil =>
    refine ⟨by simp [run],fun _ => ⟨rfl,rfl⟩,?_⟩
    rintro t u v ⟨⟩ ⟨⟩ ⟨⟩
    exact ⟨ha,hb⟩
  | cons i is ih =>
    have hrest (s a b : V → α) (ha : Set.EqOn s a X) (hb : Set.EqOn s b Xᶜ) :=
      ih (fun j hj => hin j (by simp [hj])) (fun j hj => hout j (by simp [hj])) ha hb
    cases hi : mine i with
    | true => exact separates_step (hlocal i) (hin i (by simp) hi) hi ha hb hrest
    | false =>
      have hswap : Separates (fun i => !mine i) Xᶜ (i :: is) (run step (i :: is) s)
          (run step ((i :: is).filter fun i => !mine i) b)
          (run step ((i :: is).filter fun i => !!mine i) a) :=
        separates_step (hlocal i) (hout i (by simp) hi) (by simp [hi]) hb (by simpa using ha)
          fun s b a hb ha => by simpa using (hrest s a b (by simpa using ha) hb).swap
      simpa using hswap.swap

end Interleaving

end FlexTypeclass.Lib
