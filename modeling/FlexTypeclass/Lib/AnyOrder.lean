import Mathlib.Data.List.Perm.Basic

namespace FlexTypeclass.Lib

section AnyOrder

variable {α β : Type} {R : β → β → Prop}

def InAnyOrder (P : List α → Prop) (l : List α) : Prop := ∀ order : List α, order.Perm l → P order

-- A list and its reverse put any two of its elements in both orders.
theorem pairwise_inAnyOrder_iff {R : α → α → Prop} {l : List α} :
    InAnyOrder (List.Pairwise R) l ↔ l.Pairwise fun a b => R a b ∧ R b a := by
  constructor
  · intro h
    have hforward := h l (List.Perm.refl l)
    have hbackward := h l.reverse (List.reverse_perm l)
    rw [List.pairwise_reverse] at hbackward
    exact List.pairwise_and_iff.mpr ⟨hforward,hbackward⟩
  · intro h order hperm
    have hboth := (hperm.pairwise_iff (R := fun a b => R a b ∧ R b a) fun hab => ⟨hab.2,hab.1⟩).mpr h
    exact hboth.imp And.left

theorem flatMap_inAnyOrder_iff {f : α → List β} {l : List α} :
    InAnyOrder (fun order => (order.flatMap f).Pairwise R) l ↔
      (∀ a ∈ l, (f a).Pairwise R) ∧
        l.Pairwise fun a b => (∀ x ∈ f a, ∀ y ∈ f b, R x y) ∧ ∀ x ∈ f b, ∀ y ∈ f a, R x y := by
  rw [← pairwise_inAnyOrder_iff]
  simp only [List.pairwise_flatMap]
  constructor
  · intro h
    exact ⟨(h l (List.Perm.refl l)).1,fun order hperm => (h order hperm).2⟩
  · rintro ⟨hinner,houter⟩ order hperm
    exact ⟨fun a ha => hinner a (hperm.mem_iff.mp ha),houter order hperm⟩

end AnyOrder

section Symmetric

variable {α : Type} {R : α → α → Prop} {l : List α}

theorem forall_of_pairwise_both (hrefl : ∀ a ∈ l, R a a) (h : l.Pairwise fun a b => R a b ∧ R b a) :
    ∀ a ∈ l, ∀ b ∈ l, R a b := by
  induction l with
  | nil => simp
  | cons c l ih =>
    obtain ⟨hhead,htail⟩ := List.pairwise_cons.mp h
    obtain ⟨hself,hrest⟩ := List.forall_mem_cons.mp hrefl
    refine List.forall_mem_cons.mpr ⟨List.forall_mem_cons.mpr ⟨hself,fun b hb => (hhead b hb).1⟩,?_⟩
    exact fun a ha => List.forall_mem_cons.mpr ⟨(hhead a ha).2,ih hrest htail a ha⟩

theorem pairwise_both_iff (hrefl : ∀ a ∈ l, R a a) :
    (l.Pairwise fun a b => R a b ∧ R b a) ↔ ∀ a ∈ l, ∀ b ∈ l, R a b :=
  ⟨forall_of_pairwise_both hrefl,
    fun h => List.pairwise_of_forall_mem_list fun a ha b hb => ⟨h a ha b hb,h b hb a ha⟩⟩

end Symmetric

end FlexTypeclass.Lib
