import FlexTypeclass.Runtime.Typeclass
import FlexTypeclass.Runtime.Reference

namespace FlexTypeclass.Runtime.Typeclass
open Lib

variable {C : Concrete}

structure Owned (s : State C) : Prop where
  live : ∀ {x o}, s.vars x = some (some o) → ∃ d, s.impls.value? o = some d
  unique : ∀ {x y o}, s.vars x = some (some o) → s.vars y = some (some o) → x = y
  owner : ∀ {o d}, s.impls.value? o = some d → ∃ x, s.vars x = some (some o)

def abs (s : State C) : Reference.State C :=
  fun x => (s.vars x).map (fun p => p.bind s.impls.value?)

theorem owned_init : Owned (init : State C) :=
  ⟨by simp [init],by simp [init],by simp [init,Ledger.value?]⟩

theorem abs_init : abs (init : State C) = Reference.init := rfl

theorem alive_abs (s : State C) : Reference.alive (abs s) = alive s := by
  funext x
  simp [Reference.alive,alive,abs]

theorem abs_held {s : State C} {x : Var} {d : Data C} (h : abs s x = some (some d)) :
    ∃ o, s.vars x = some (some o) ∧ s.impls.value? o = some d := by
  rw [abs] at h
  cases hx : s.vars x with
  | none => simp [hx] at h
  | some p =>
    cases p with
    | none => simp [hx] at h
    | some o => exact ⟨o,rfl,by simpa [hx] using h⟩

theorem abs_of_held {s : State C} {x : Var} {o : ObjId} {d : Data C}
    (hx : s.vars x = some (some o)) (ho : s.impls.value? o = some d) : abs s x = some (some d) := by
  simp [abs,hx,ho]

theorem abs_empty {s : State C} (hs : Owned s) {x : Var} (h : abs s x = some none) :
    s.vars x = some none := by
  rw [abs] at h
  cases hx : s.vars x with
  | none => simp [hx] at h
  | some p =>
    cases p with
    | none => rfl
    | some o =>
      obtain ⟨d,hd⟩ := hs.live hx
      simp [hx,hd] at h

theorem abs_none {s : State C} {x : Var} : abs s x = none ↔ s.vars x = none := by
  simp [abs]

theorem fresh_not_held {s : State C} {x : Var} (h : alive s x = false) (o : ObjId) :
    s.vars x ≠ some (some o) := by
  intro hx
  simp [alive,hx] at h

theorem held_lt {s : State C} (hs : Owned s) {x : Var} {o : ObjId} (h : s.vars x = some (some o)) :
    o < s.impls.length := by
  obtain ⟨d,hd⟩ := hs.live h
  exact Ledger.value?_lt hd

theorem abs_frame {s u : State C} {y : Var} (hvars : u.vars y = s.vars y)
    (hobj : ∀ o, s.vars y = some (some o) → u.impls.value? o = s.impls.value? o) :
    abs u y = abs s y := by
  unfold abs
  rw [hvars]
  rcases hy : s.vars y with _ | _ | o
  · rfl
  · rfl
  · simp [hobj o hy]

def State.attach (s : State C) (x : Var) (d : Data C) : State C :=
  ⟨Function.update s.vars x (some (some s.impls.length)),s.impls.construct d⟩

def State.overwrite (s : State C) (o : ObjId) (d : Data C) : State C :=
  { s with impls := s.impls.write o d }

def State.clear (s : State C) (x : Var) (p : Option (Option ObjId)) : State C :=
  { s with vars := Function.update s.vars x p }

def State.detach (s : State C) (x : Var) (o : ObjId) (p : Option (Option ObjId)) : State C :=
  ⟨Function.update s.vars x p,s.impls.destroy o⟩

section Transfer

variable {s : State C} (hs : Owned s)
include hs

theorem owned_attach {x : Var} (hx : ∀ o, s.vars x ≠ some (some o)) (d : Data C) :
    Owned (s.attach x d) := by
  constructor
  · intro y o hy
    simp only [State.attach,Function.update_apply] at hy
    split at hy
    · cases hy; exact ⟨d,by simp [State.attach,Ledger.value?_construct]⟩
    · obtain ⟨e,he⟩ := hs.live hy
      exact ⟨e,by simp [State.attach,Ledger.value?_construct,he,(held_lt hs hy).ne]⟩
  · intro y z o hy hz
    simp only [State.attach,Function.update_apply] at hy hz
    split at hy <;> split at hz
    · simp_all
    · cases hy; exact absurd (held_lt hs hz) (lt_irrefl _)
    · cases hz; exact absurd (held_lt hs hy) (lt_irrefl _)
    · exact hs.unique hy hz
  · intro o e ho
    simp only [State.attach,Ledger.value?_construct] at ho
    split at ho
    · exact ⟨x,by simp_all [State.attach]⟩
    · obtain ⟨y,hy⟩ := hs.owner ho
      refine ⟨y,?_⟩
      have hyx : y ≠ x := fun h => hx o (h ▸ hy)
      simpa [State.attach,hyx] using hy

theorem abs_attach (x : Var) (d : Data C) :
    abs (s.attach x d) = Function.update (abs s) x (some (some d)) := by
  funext y
  by_cases hyx : y = x
  · subst hyx
    simp [abs,State.attach,Ledger.value?_construct]
  · rw [Function.update_of_ne hyx]
    refine abs_frame (by simp [State.attach,hyx]) fun o hy => ?_
    rw [State.attach,Ledger.value?_construct,if_neg (held_lt hs hy).ne]

theorem owned_overwrite {y : Var} {o : ObjId} (hy : s.vars y = some (some o)) (d : Data C) :
    Owned (s.overwrite o d) := by
  obtain ⟨e,he⟩ := hs.live hy
  constructor
  · intro z i hz
    obtain ⟨f,hf⟩ := hs.live hz
    by_cases hi : i = o
    · exact ⟨d,by simp [State.overwrite,Ledger.value?_write_live he,hi]⟩
    · exact ⟨f,by simp [State.overwrite,Ledger.value?_write_live he,hi,hf]⟩
  · exact hs.unique
  · intro i f hi
    simp only [State.overwrite,Ledger.value?_write_live he] at hi
    split at hi
    · rename_i hio; exact ⟨y,hio ▸ hy⟩
    · exact hs.owner hi

theorem abs_overwrite {y : Var} {o : ObjId} (hy : s.vars y = some (some o)) (d : Data C) :
    abs (s.overwrite o d) = Function.update (abs s) y (some (some d)) := by
  obtain ⟨e,he⟩ := hs.live hy
  funext z
  by_cases hzy : z = y
  · subst hzy
    simp [abs,State.overwrite,hy,Ledger.value?_write_live he]
  · rw [Function.update_of_ne hzy]
    refine abs_frame rfl fun i hz => ?_
    have hio : i ≠ o := fun h => hzy (hs.unique hz (h ▸ hy))
    rw [State.overwrite,Ledger.value?_write_live he,if_neg hio]

theorem owned_detach {x : Var} {o : ObjId} (hx : s.vars x = some (some o))
    {p : Option (Option ObjId)} (hp : p.bind id = none) : Owned (s.detach x o p) := by
  have hother {y i} (hy : (s.detach x o p).vars y = some (some i)) :
      y ≠ x ∧ s.vars y = some (some i) := by
    simp only [State.detach,Function.update_apply] at hy
    split at hy
    · subst hy; simp at hp
    · exact ⟨‹_›,hy⟩
  constructor
  · intro y i hy
    obtain ⟨hyx,hy⟩ := hother hy
    obtain ⟨e,he⟩ := hs.live hy
    have hio : i ≠ o := fun h => hyx (hs.unique hy (h ▸ hx))
    exact ⟨e,by simp [State.detach,Ledger.value?_destroy,hio,he]⟩
  · intro y z i hy hz
    exact hs.unique (hother hy).2 (hother hz).2
  · intro i e hi
    simp only [State.detach,Ledger.value?_destroy] at hi
    split at hi
    · cases hi
    · rename_i hio
      obtain ⟨y,hy⟩ := hs.owner hi
      have hyx : y ≠ x := by rintro rfl; rw [hx] at hy; cases hy; exact hio rfl
      exact ⟨y,by simpa [State.detach,hyx] using hy⟩

theorem abs_detach {x : Var} {o : ObjId} (hx : s.vars x = some (some o))
    {p : Option (Option ObjId)} (hp : p.bind id = none) :
    abs (s.detach x o p) = Function.update (abs s) x (p.map (fun _ => none)) := by
  funext y
  by_cases hyx : y = x
  · subst hyx
    rcases p with _ | _ | i
    · simp [abs,State.detach]
    · simp [abs,State.detach]
    · simp at hp
  · rw [Function.update_of_ne hyx]
    refine abs_frame (by simp [State.detach,hyx]) fun i hy => ?_
    have hio : i ≠ o := fun h => hyx (hs.unique hy (h ▸ hx))
    rw [State.detach,Ledger.value?_destroy,if_neg hio]

theorem owned_clear {x : Var} (hx : ∀ o, s.vars x ≠ some (some o)) {p : Option (Option ObjId)}
    (hp : p.bind id = none) : Owned (s.clear x p) := by
  have hother {y i} (hy : (s.clear x p).vars y = some (some i)) : s.vars y = some (some i) := by
    simp only [State.clear,Function.update_apply] at hy
    split at hy
    · subst hy; simp at hp
    · exact hy
  constructor
  · exact fun hy => hs.live (hother hy)
  · exact fun hy hz => hs.unique (hother hy) (hother hz)
  · intro i e hi
    obtain ⟨y,hy⟩ := hs.owner hi
    have hyx : y ≠ x := fun h => hx i (h ▸ hy)
    exact ⟨y,by simpa [State.clear,hyx] using hy⟩

omit hs in
theorem abs_clear {x : Var} {p : Option (Option ObjId)} (hp : p.bind id = none) :
    abs (s.clear x p) = Function.update (abs s) x (p.map (fun _ => none)) := by
  funext y
  by_cases hyx : y = x
  · subst hyx
    rcases p with _ | _ | i
    · simp [abs,State.clear]
    · simp [abs,State.clear]
    · simp at hp
  · simp [abs,State.clear,hyx]

end Transfer

end FlexTypeclass.Runtime.Typeclass
