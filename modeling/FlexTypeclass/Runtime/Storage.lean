import FlexTypeclass.Runtime.InplaceTypeclass
import FlexTypeclass.Runtime.Reference

namespace FlexTypeclass.Runtime.InplaceTypeclass
open Lib

variable {C : Concrete}

structure SelfContained (b : Build) (s : State C) : Prop where
  self : ∀ {x w y}, s.vars x = some w → w.implBase = some y → y = x
  saved : ∀ {x w}, s.vars x = some w → b.launder = false → (w.implBase = none ↔ w.storage = none)
  unique : ∀ {x y w v o}, s.vars x = some w → s.vars y = some v →
    w.storage = some o → v.storage = some o → x = y
  born : ∀ {x w o}, s.vars x = some w → w.storage = some o → o < s.impls.length

def abs (s : State C) : Reference.State C :=
  fun x => (s.vars x).map (fun w => w.storage.bind s.impls.value?)

theorem selfContained_init (b : Build) : SelfContained b (init : State C) :=
  ⟨by simp [init],by simp [init],by simp [init],by simp [init]⟩

theorem abs_init : abs (init : State C) = Reference.init := rfl

theorem alive_abs (s : State C) : Reference.alive (abs s) = alive s := by
  funext x
  simp [Reference.alive,alive,abs]

theorem alive_wrapper {s : State C} {x : Var} (h : alive s x = true) : ∃ w, s.vars x = some w :=
  Option.isSome_iff_exists.mp h

def Stores (s : State C) (x : Var) (w : Wrapper) (o : ObjId) (d : Data C) : Prop :=
  s.vars x = some w ∧ w.storage = some o ∧ s.impls.value? o = some d

theorem abs_held {s : State C} {x : Var} {d : Data C} (h : abs s x = some (some d)) :
    ∃ w o, Stores s x w o d := by
  rw [abs] at h
  cases hx : s.vars x with
  | none => simp [hx] at h
  | some w =>
    cases hw : w.storage with
    | none => simp [hx,hw] at h
    | some o => exact ⟨w,o,hx,hw,by simpa [hx,hw] using h⟩

theorem abs_stores {s : State C} {x : Var} {w : Wrapper} {o : ObjId} {d : Data C}
    (h : Stores s x w o d) : abs s x = some (some d) := by
  obtain ⟨hx,hw,hd⟩ := h
  simp [abs,hx,hw,hd]

theorem Stores.object {s : State C} {x : Var} {w v : Wrapper} {o i : ObjId} {d : Data C}
    (h : Stores s x w o d) (hv : s.vars x = some v) (hi : v.storage = some i) : i = o := by
  obtain ⟨hx,hw,-⟩ := h
  rw [hx] at hv
  cases hv
  rw [hw] at hi
  exact (Option.some.inj hi).symm

def Holds (s : State C) (x : Var) : Prop := ∃ w o d, Stores s x w o d

theorem holds_iff {s : State C} {x : Var} : Holds s x ↔ Reference.Held (abs s) x := by
  constructor
  · rintro ⟨w,o,d,h⟩
    exact ⟨d,abs_stores h⟩
  · rintro ⟨d,h⟩
    obtain ⟨w,o,hx⟩ := abs_held h
    exact ⟨w,o,d,hx⟩

theorem empty_not_holds {s : State C} {x : Var} (h : abs s x = some none) : ¬ Holds s x := by
  rw [holds_iff]
  rintro ⟨d,hd⟩
  rw [h] at hd
  cases hd

theorem alive_cases {s : State C} {x : Var} (h : alive s x = true) :
    abs s x = some none ∨ Holds s x := by
  rcases hx : abs s x with _ | _ | d
  · rw [← alive_abs] at h
    simp [Reference.alive,hx] at h
  · exact .inl rfl
  · exact .inr (holds_iff.mpr ⟨d,hx⟩)

theorem empty_alive {s : State C} {x : Var} (h : abs s x = some none) : alive s x = true := by
  rw [← alive_abs]
  simp [Reference.alive,h]

theorem fresh_ne {s : State C} {x y : Var} (hx : alive s x = false) (hy : alive s y = true) :
    y ≠ x := by
  rintro rfl
  rw [hx] at hy
  cases hy

theorem abs_frame {s u : State C} {y : Var} (hvars : u.vars y = s.vars y)
    (hobj : ∀ v i, s.vars y = some v → v.storage = some i →
      u.impls.value? i = s.impls.value? i) : abs u y = abs s y := by
  unfold abs
  rw [hvars]
  rcases hy : s.vars y with _ | v
  · rfl
  rcases hv : v.storage with _ | i
  · simp [hv]
  · simp [hv,hobj v i hy hv]

def State.enter (s : State C) (x : Var) : State C :=
  { s with vars := Function.update s.vars x (some emptyWrapper) }

def State.leave (s : State C) (x : Var) : State C :=
  { s with vars := Function.update s.vars x none }

def State.kill (s : State C) (o : ObjId) : State C :=
  { s with impls := s.impls.destroy o }

def State.overwrite (s : State C) (o : ObjId) (d : Data C) : State C :=
  { s with impls := s.impls.write o d }

def placed (b : Build) (x : Var) (w : Wrapper) (o : ObjId) : Wrapper :=
  ⟨some o,if b.launder then w.implBase else some x⟩

def State.attach (b : Build) (s : State C) (x : Var) (w : Wrapper) (d : Data C) : State C :=
  ⟨Function.update s.vars x (some (placed b x w s.impls.length)),s.impls.construct d⟩

section Transfer

variable {b : Build} {s : State C} (hs : SelfContained b s)
include hs

theorem selfContained_enter (x : Var) : SelfContained b (s.enter x) := by
  have hother {y v} (hy : (s.enter x).vars y = some v) :
      v = emptyWrapper ∨ s.vars y = some v := by
    simp only [State.enter,Function.update_apply] at hy
    split at hy
    · exact .inl (Option.some.inj hy).symm
    · exact .inr hy
  constructor
  · intro y v z hy hz
    rcases hother hy with rfl | hy
    · cases hz
    · exact hs.self hy hz
  · intro y v hy hb
    rcases hother hy with rfl | hy
    · simp [emptyWrapper]
    · exact hs.saved hy hb
  · intro y z w v o hy hz hw hv
    rcases hother hy with rfl | hy
    · cases hw
    · rcases hother hz with rfl | hz
      · cases hv
      · exact hs.unique hy hz hw hv
  · intro y v o hy ho
    rcases hother hy with rfl | hy
    · cases ho
    · exact hs.born hy ho

theorem selfContained_leave (x : Var) : SelfContained b (s.leave x) := by
  have hother {y v} (hy : (s.leave x).vars y = some v) : s.vars y = some v := by
    simp only [State.leave,Function.update_apply] at hy
    split at hy
    · cases hy
    · exact hy
  constructor
  · exact fun hy => hs.self (hother hy)
  · exact fun hy => hs.saved (hother hy)
  · exact fun hy hz => hs.unique (hother hy) (hother hz)
  · exact fun hy => hs.born (hother hy)

theorem selfContained_kill (o : ObjId) : SelfContained b (s.kill o) :=
  ⟨hs.self,hs.saved,hs.unique,fun hx ho => by simpa [State.kill] using hs.born hx ho⟩

theorem selfContained_overwrite (o : ObjId) (d : Data C) : SelfContained b (s.overwrite o d) :=
  ⟨hs.self,hs.saved,hs.unique,fun hx ho => by simpa [State.overwrite] using hs.born hx ho⟩

theorem selfContained_attach {x : Var} {w : Wrapper} (hx : s.vars x = some w) (d : Data C) :
    SelfContained b (s.attach b x w d) := by
  have hother {y v} (hy : (s.attach b x w d).vars y = some v) :
      (y = x ∧ v = placed b x w s.impls.length) ∨ (y ≠ x ∧ s.vars y = some v) := by
    simp only [State.attach,Function.update_apply] at hy
    split at hy
    · exact .inl ⟨‹_›,(Option.some.inj hy).symm⟩
    · exact .inr ⟨‹_›,hy⟩
  constructor
  · intro y v z hy hz
    rcases hother hy with ⟨rfl,rfl⟩ | ⟨-,hy⟩
    · cases hb : b.launder <;> simp only [placed,hb] at hz
      · exact (Option.some.inj hz).symm
      · exact hs.self hx hz
    · exact hs.self hy hz
  · intro y v hy hb
    rcases hother hy with ⟨rfl,rfl⟩ | ⟨-,hy⟩
    · simp [placed,hb]
    · exact hs.saved hy hb
  · intro y z v u o hy hz hv hu
    rcases hother hy with ⟨hyx,rfl⟩ | ⟨-,hold⟩ <;> rcases hother hz with ⟨hzx,rfl⟩ | ⟨-,hold'⟩
    · rw [hyx,hzx]
    · cases hv; exact absurd (hs.born hold' hu) (lt_irrefl _)
    · cases hu; exact absurd (hs.born hold hv) (lt_irrefl _)
    · exact hs.unique hold hold' hv hu
  · intro y v o hy ho
    have hlen : (s.attach b x w d).impls.length = s.impls.length + 1 := by simp [State.attach]
    rw [hlen]
    rcases hother hy with ⟨-,rfl⟩ | ⟨-,hy⟩
    · cases ho; exact Nat.lt_succ_self _
    · exact Nat.lt_succ_of_lt (hs.born hy ho)

omit hs in
theorem abs_enter (x : Var) : abs (s.enter x) = Function.update (abs s) x (some none) := by
  funext y
  by_cases hyx : y = x
  · subst hyx; simp [abs,State.enter,emptyWrapper]
  · simp [abs,State.enter,hyx]

omit hs in
theorem abs_leave (x : Var) : abs (s.leave x) = Function.update (abs s) x none := by
  funext y
  by_cases hyx : y = x
  · subst hyx; simp [abs,State.leave]
  · simp [abs,State.leave,hyx]

theorem abs_kill {x : Var} {w : Wrapper} {o : ObjId} {d : Data C} (hx : Stores s x w o d) :
    abs (s.kill o) = Function.update (abs s) x (some none) := by
  funext y
  by_cases hyx : y = x
  · subst hyx
    simp [abs,State.kill,hx.1,hx.2.1,Ledger.value?_destroy]
  · rw [Function.update_of_ne hyx]
    refine abs_frame rfl fun v i hy hv => ?_
    have hio : i ≠ o := fun h => hyx (hs.unique hy hx.1 (h ▸ hv) hx.2.1)
    rw [State.kill,Ledger.value?_destroy,if_neg hio]

theorem abs_overwrite {x : Var} {w : Wrapper} {o : ObjId} {d : Data C} (hx : Stores s x w o d)
    (e : Data C) : abs (s.overwrite o e) = Function.update (abs s) x (some (some e)) := by
  funext y
  by_cases hyx : y = x
  · subst hyx
    simp [abs,State.overwrite,hx.1,hx.2.1,Ledger.value?_write_live hx.2.2]
  · rw [Function.update_of_ne hyx]
    refine abs_frame rfl fun v i hy hv => ?_
    have hio : i ≠ o := fun h => hyx (hs.unique hy hx.1 (h ▸ hv) hx.2.1)
    rw [State.overwrite,Ledger.value?_write_live hx.2.2,if_neg hio]

theorem abs_attach (x : Var) (w : Wrapper) (d : Data C) :
    abs (s.attach b x w d) = Function.update (abs s) x (some (some d)) := by
  funext y
  by_cases hyx : y = x
  · subst hyx
    simp [abs,State.attach,placed,Ledger.value?_construct]
  · rw [Function.update_of_ne hyx]
    refine abs_frame (by simp [State.attach,hyx]) fun v i hy hv => ?_
    rw [State.attach,Ledger.value?_construct,if_neg (Nat.ne_of_lt (hs.born hy hv))]

end Transfer

end FlexTypeclass.Runtime.InplaceTypeclass
