import Mathlib.Data.List.Basic

namespace FlexTypeclass.Lib

section Best

variable {α : Type} [DecidableEq α] (beats : α → α → Bool)

def best? (candidates : List α) : Option α :=
  candidates.find? (fun f => candidates.all (fun g => g = f || beats f g))

def Settled (candidates : List α) : Prop :=
  ∃ f ∈ candidates, ∀ g ∈ candidates, g ≠ f → beats f g = true

variable {beats}

instance (candidates : List α) : Decidable (Settled beats candidates) :=
  inferInstanceAs (Decidable (∃ f ∈ candidates, ∀ g ∈ candidates, g ≠ f → _))

theorem best?_mem {candidates : List α} {f : α} (h : best? beats candidates = some f) :
    f ∈ candidates := List.mem_of_find?_eq_some h

theorem best?_beats {candidates : List α} {f g : α} (h : best? beats candidates = some f)
    (hg : g ∈ candidates) (hne : g ≠ f) : beats f g = true := by
  rw [best?] at h
  have hall := List.find?_some h
  simpa [hne] using List.all_eq_true.mp hall g hg

theorem best?_eq_some (hasymm : ∀ f g, beats f g = true → beats g f = false) {candidates : List α}
    {f : α} : best? beats candidates = some f ↔
      f ∈ candidates ∧ ∀ g ∈ candidates, g ≠ f → beats f g = true := by
  constructor
  · exact fun h => ⟨best?_mem h,fun g hg hne => best?_beats h hg hne⟩
  · rintro ⟨hmem,hbeats⟩
    have hsome : (best? beats candidates).isSome := by
      rw [best?,List.find?_isSome]
      refine ⟨f,hmem,List.all_eq_true.mpr fun g hg => ?_⟩
      by_cases hgf : g = f
      · simp [hgf]
      · simp [hbeats g hg hgf]
    obtain ⟨g,hg⟩ := Option.isSome_iff_exists.mp hsome
    by_cases hgf : g = f
    · rw [hg,hgf]
    · have hfg := hbeats g (best?_mem hg) hgf
      have hgb := best?_beats hg hmem (Ne.symm hgf)
      rw [hasymm f g hfg] at hgb
      cases hgb

theorem settled_unbeaten {candidates : List α} {f : α} (h : Settled beats candidates)
    (hf : f ∈ candidates) (hunbeaten : ∀ g ∈ candidates, beats g f = false) :
    ∀ g ∈ candidates, g ≠ f → beats f g = true := by
  obtain ⟨best,hbest,hall⟩ := h
  obtain rfl : best = f := by
    by_contra hne
    have hbeats := hall f hf (Ne.symm hne)
    rw [hunbeaten best hbest] at hbeats
    cases hbeats
  exact hall

end Best

end FlexTypeclass.Lib
