import FlexTypeclass.Lib.Exec

namespace FlexTypeclass.Lib

variable {ε σ ρ ι : Type} {step : ι → Exec ε σ ρ}

def tally (f : ι → Obs ρ → Nat) : List ι → List (Obs ρ) → Nat
  | i :: is, o :: os => f i o + tally f is os
  | _, _ => 0

@[simp] theorem tally_cons (f : ι → Obs ρ → Nat) (i : ι) (is : List ι) (o : Obs ρ)
    (os : List (Obs ρ)) : tally f (i :: is) (o :: os) = f i o + tally f is os := rfl

structure Accounts (step : ι → Exec ε σ ρ) (P : σ → Prop) (stock : σ → Nat)
    (gains losses : ι → Obs ρ → Nat) : Prop where
  kept : Preserved step (fun _ => True) P
  ok : ∀ {i s r t}, P s → step i s = .ok r t →
    stock t + losses i (.done r) = stock s + gains i (.done r)
  threw : ∀ {i s t}, P s → step i s = .threw t →
    stock t + losses i .threw = stock s + gains i .threw

theorem Accounts.run {P : σ → Prop} {stock : σ → Nat} {gains losses : ι → Obs ρ → Nat}
    (h : Accounts step P stock gains losses) {is : List ι} {s t : σ} (hs : P s)
    (hr : Reaches step s is t) :
    stock t + tally losses is (run step is s).1 = stock s + tally gains is (run step is s).1 := by
  induction is generalizing s with
  | nil => rw [reaches_nil.mp hr]; rfl
  | cons i is ih =>
    obtain ⟨u,⟨r,hu⟩ | hu,htail⟩ := reaches_cons.mp hr
    · have hstep := h.ok hs hu
      have hrest := ih (h.kept.ok trivial hs hu) htail
      simp only [Lib.run,hu,tally_cons]
      omega
    · have hstep := h.threw hs hu
      have hrest := ih (h.kept.threw trivial hs hu) htail
      simp only [Lib.run,hu,tally_cons]
      omega

end FlexTypeclass.Lib
