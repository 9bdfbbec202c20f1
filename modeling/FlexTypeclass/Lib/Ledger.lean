import Mathlib.Data.List.Basic
import Mathlib.Tactic.Cases

namespace FlexTypeclass.Lib

structure Cell (α : Type) where
  value : α
  deaths : Nat
  deriving DecidableEq, Repr

abbrev ObjId := Nat

abbrev Ledger (α : Type) := List (Cell α)

namespace Ledger

variable {α : Type}

def value? (l : Ledger α) (i : ObjId) : Option α :=
  match l[i]? with
  | some c => if c.deaths = 0 then some c.value else none
  | none => none

def construct (l : Ledger α) (a : α) : Ledger α := l ++ [⟨a,0⟩]

def write (l : Ledger α) (i : ObjId) (a : α) : Ledger α :=
  List.modify l i (fun c => { c with value := a })

def destroy (l : Ledger α) (i : ObjId) : Ledger α :=
  List.modify l i (fun c => { c with deaths := c.deaths + 1 })

theorem value?_lt {l : Ledger α} {i : ObjId} {a : α} (h : l.value? i = some a) : i < l.length := by
  rw [value?] at h
  cases hi : l[i]? with
  | none => simp [hi] at h
  | some c => exact (List.getElem?_eq_some_iff.mp hi).1

theorem value?_construct (l : Ledger α) (a : α) (i : ObjId) :
    (l.construct a).value? i = if i = l.length then some a else l.value? i := by
  unfold value? construct
  rcases Nat.lt_trichotomy i l.length with h | h | h
  · rw [List.getElem?_append_left h,if_neg (Nat.ne_of_lt h)]
  · subst h; simp
  · have hlen : (l ++ [Cell.mk a 0]).length ≤ i := by
      rw [List.length_append]; exact h
    rw [if_neg (Nat.ne_of_gt h), List.getElem?_eq_none hlen,
      List.getElem?_eq_none (Nat.le_of_lt h)]

theorem value?_write (l : Ledger α) (i j : ObjId) (a : α) :
    (l.write i a).value? j = if j = i then (l.value? i).map (fun _ => a) else l.value? j := by
  unfold value? write
  rw [List.getElem?_modify]
  by_cases h : i = j
  · subst h
    cases l[i]? with
    | none => simp
    | some c => by_cases hc : c.deaths = 0 <;> simp [hc]
  · rw [if_neg (Ne.symm h)]
    cases l[j]? <;> simp [h]

theorem value?_destroy (l : Ledger α) (i j : ObjId) :
    (l.destroy i).value? j = if j = i then none else l.value? j := by
  unfold value? destroy
  rw [List.getElem?_modify]
  by_cases h : i = j
  · subst h
    cases l[i]? <;> simp
  · rw [if_neg (Ne.symm h)]
    cases l[j]? <;> simp [h]

theorem value?_write_live {l : Ledger α} {i : ObjId} {b : α} (hi : l.value? i = some b) (j : ObjId)
    (a : α) : (l.write i a).value? j = if j = i then some a else l.value? j := by
  rw [value?_write,hi]; rfl

@[simp] theorem length_construct (l : Ledger α) (a : α) :
    (l.construct a).length = l.length + 1 := by simp [construct]

@[simp] theorem length_write (l : Ledger α) (i : ObjId) (a : α) :
    (l.write i a).length = l.length := by simp [write]

@[simp] theorem length_destroy (l : Ledger α) (i : ObjId) :
    (l.destroy i).length = l.length := by simp [destroy]

theorem construct_write {l : Ledger α} {i : ObjId} (hi : i < l.length) (a b : α) :
    (l.construct a).write i b = (l.write i b).construct a := by
  unfold construct write
  induction l generalizing i with
  | nil => simp at hi
  | cons c l ih =>
    cases i with
    | zero => rfl
    | succ i => simpa using ih (Nat.lt_of_succ_lt_succ hi)

theorem construct_destroy {l : Ledger α} {i : ObjId} (hi : i < l.length) (a : α) :
    (l.construct a).destroy i = (l.destroy i).construct a := by
  unfold construct destroy
  induction l generalizing i with
  | nil => simp at hi
  | cons c l ih =>
    cases i with
    | zero => rfl
    | succ i => simpa using ih (Nat.lt_of_succ_lt_succ hi)

def alive (l : Ledger α) : Nat := l.countP (fun c => c.deaths = 0)

theorem alive_construct (l : Ledger α) (a : α) : (l.construct a).alive = l.alive + 1 := by
  simp [alive,construct]

theorem alive_write (l : Ledger α) (i : ObjId) (a : α) : (l.write i a).alive = l.alive := by
  unfold alive write
  induction l generalizing i with
  | nil => cases i <;> rfl
  | cons c l ih =>
    cases i with
    | zero => simp [List.countP_cons]
    | succ i => simp [List.countP_cons,ih i]

theorem alive_destroy {l : Ledger α} {i : ObjId} {a : α} (h : l.value? i = some a) :
    (l.destroy i).alive + 1 = l.alive := by
  unfold alive destroy
  induction l generalizing i with
  | nil => simp [value?] at h
  | cons c l ih =>
    cases i with
    | zero =>
      have hc : c.deaths = 0 := by
        by_contra hc
        simp [value?,hc] at h
      simp [hc]
    | succ i =>
      have := ih (i := i) (by simpa [value?] using h)
      simp only [List.modify_succ_cons,List.countP_cons]
      omega

end Ledger

end FlexTypeclass.Lib
