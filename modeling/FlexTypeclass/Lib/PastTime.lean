import FlexTypeclass.Lib.Exec
import Mathlib.Data.List.Induction

namespace FlexTypeclass.Lib

section PastTime

variable {α : Type} {P Q : List α → α → Prop} {trace : List α} {a : α}

-- Some element satisfied `P` when it came, and every later one satisfied `Q` when it came.
def Since (P Q : List α → α → Prop) (trace : List α) : Prop :=
  ∃ before a after, trace = before ++ a :: after ∧ P before a ∧
    ∀ mid b rest, after = mid ++ b :: rest → Q (before ++ a :: mid) b

def Once (P : List α → α → Prop) : List α → Prop := Since P (fun _ _ => True)

theorem not_since_nil : ¬ Since P Q [] := by
  rintro ⟨before,a,after,h,-⟩
  simp at h

theorem since_snoc : Since P Q (trace ++ [a]) ↔ P trace a ∨ (Q trace a ∧ Since P Q trace) := by
  constructor
  · rintro ⟨before,b,after,heq,hP,hQ⟩
    rcases List.eq_nil_or_concat after with rfl | ⟨mid,c,rfl⟩
    · obtain ⟨rfl,hlast⟩ := List.append_inj' heq rfl
      obtain rfl := List.head_eq_of_cons_eq hlast
      exact .inl hP
    · rw [List.concat_eq_append] at heq hQ
      have hsplit : trace ++ [a] = (before ++ b :: mid) ++ [c] := by simpa using heq
      obtain ⟨rfl,hlast⟩ := List.append_inj' hsplit rfl
      obtain rfl := List.head_eq_of_cons_eq hlast
      refine .inr ⟨hQ mid a [] rfl,before,b,mid,rfl,hP,fun first d rest hmid => ?_⟩
      exact hQ first d (rest ++ [a]) (by simp [hmid])
  · rintro (hP | ⟨hQ,before,b,after,rfl,hP,hafter⟩)
    · exact ⟨trace,a,[],rfl,hP,fun mid b rest h => by simp at h⟩
    · refine ⟨before,b,after ++ [a],by simp,hP,fun mid c rest heq => ?_⟩
      rcases List.eq_nil_or_concat rest with rfl | ⟨init,d,rfl⟩
      · obtain ⟨rfl,hlast⟩ := List.append_inj' heq rfl
        obtain rfl := List.head_eq_of_cons_eq hlast
        exact hQ
      · have hsplit : after ++ [a] = (mid ++ c :: init) ++ [d] := by simpa using heq
        obtain ⟨rfl,-⟩ := List.append_inj' hsplit rfl
        exact hafter mid c init rfl

theorem not_once_nil : ¬ Once P [] := not_since_nil

theorem once_snoc : Once P (trace ++ [a]) ↔ P trace a ∨ Once P trace := by
  rw [Once,since_snoc,true_and]

end PastTime

section Everywhere

variable {α : Type} {P : List α → α → Prop}

-- Each element satisfied `P` when it came.
def Everywhere (P : List α → α → Prop) (trace : List α) : Prop :=
  ∀ before a after, trace = before ++ a :: after → P before a

variable [∀ before a, Decidable (P before a)]

def monitor (P : List α → α → Prop) [∀ before a, Decidable (P before a)] : List α → List α → Bool
  | _, [] => true
  | before, a :: after => decide (P before a) && monitor P (before ++ [a]) after

theorem monitor_iff {seen trace : List α} : monitor P seen trace = true ↔
    Everywhere (fun before a => P (seen ++ before) a) trace := by
  induction trace generalizing seen with
  | nil => simp [monitor,Everywhere]
  | cons b trace ih =>
    rw [monitor,Bool.and_eq_true,decide_eq_true_eq,ih]
    constructor
    · rintro ⟨hhead,htail⟩ before a after heq
      cases before with
      | nil =>
        obtain ⟨rfl,rfl⟩ := List.cons.inj heq
        rwa [List.append_nil]
      | cons c before =>
        obtain ⟨rfl,rfl⟩ := List.cons.inj heq
        simpa using htail before a after rfl
    · intro h
      refine ⟨by simpa using h [] b trace rfl,fun before a after heq => ?_⟩
      simpa using h (b :: before) a after (by rw [heq]; rfl)

instance (trace : List α) : Decidable (Everywhere P trace) :=
  decidable_of_iff (monitor P [] trace = true) monitor_iff

end Everywhere

section Histories

variable {ε σ ρ ι : Type} {step : ι → Exec ε σ ρ} {start s : σ} {is : List ι}

structure Tracks (step : ι → Exec ε σ ρ) (start : σ) (I : List ι → σ → Prop) : Prop where
  start : I [] start
  ok : ∀ {is i s r t}, I is s → step i s = .ok r t → I (is ++ [i]) t
  threw : ∀ {is i s t}, I is s → step i s = .threw t → I (is ++ [i]) t

theorem Tracks.reaches {I : List ι → σ → Prop} (h : Tracks step start I)
    (hr : Reaches step start is s) : I is s := by
  induction is using List.reverseRecOn generalizing s with
  | nil => exact reaches_nil.mp hr ▸ h.start
  | append_singleton is i ih =>
    obtain ⟨u,hu,hlast⟩ := reaches_append.mp hr
    obtain ⟨v,⟨r,hv⟩ | hv,hnil⟩ := reaches_cons.mp hlast
    · exact reaches_nil.mp hnil ▸ h.ok (ih hu) hv
    · exact reaches_nil.mp hnil ▸ h.threw (ih hu) hv

end Histories

end FlexTypeclass.Lib
