import Mathlib.Algebra.Order.Group.Nat
import Mathlib.Data.Nat.Basic

namespace FlexTypeclass.Lib

def roundDown (n m : Nat) : Nat := n / m * m

def roundUp (n m : Nat) : Nat := roundDown (n + m - 1) m

theorem dvd_roundUp (n m : Nat) : m ∣ roundUp n m := ⟨_,Nat.mul_comm _ _⟩

theorem roundDown_le (n m : Nat) : roundDown n m ≤ n := Nat.div_mul_le_self n m

theorem le_roundDown_iff {n m b : Nat} (h : m ∣ n) (hm : 0 < m) : n ≤ roundDown b m ↔ n ≤ b := by
  obtain ⟨k,rfl⟩ := h
  rw [roundDown,Nat.mul_comm m k,Nat.mul_le_mul_right_iff hm,Nat.le_div_iff_mul_le hm]

theorem roundUp_le_iff {n m b : Nat} (h : m ∣ b) (hm : 0 < m) : roundUp n m ≤ b ↔ n ≤ b := by
  obtain ⟨k,rfl⟩ := h
  rw [roundUp,roundDown,Nat.mul_comm m k,Nat.mul_le_mul_right_iff hm,Nat.div_le_iff_le_mul_add_pred hm]
  rw [Nat.mul_comm m k]
  omega

theorem le_roundUp (n : Nat) {m : Nat} (hm : 0 < m) : n ≤ roundUp n m :=
  (roundUp_le_iff (dvd_roundUp n m) hm).mp le_rfl

theorem roundUp_of_dvd {n m : Nat} (h : m ∣ n) (hm : 0 < m) : roundUp n m = n :=
  le_antisymm ((roundUp_le_iff h hm).mpr le_rfl) (le_roundUp n hm)

theorem roundUp_add {n m k : Nat} (h : m ∣ k) (hm : 0 < m) :
    roundUp (k + n) m = k + roundUp n m := by
  obtain ⟨j,rfl⟩ := h
  rw [roundUp,roundUp,roundDown,roundDown,Nat.add_assoc,Nat.add_sub_assoc (by omega),
    Nat.mul_add_div hm,Nat.add_mul,Nat.mul_comm j]

theorem roundUp_le_roundDown {n m b : Nat} (hm : 0 < m) :
    roundUp n m ≤ b ↔ n ≤ roundDown b m := by
  rw [← le_roundDown_iff (dvd_roundUp n m) hm]
  exact roundUp_le_iff ⟨_,Nat.mul_comm _ _⟩ hm

structure ByteAlignment where
  val : Nat
  pow : val.isPowerOfTwo

namespace ByteAlignment

theorem pos (a : ByteAlignment) : 0 < a.val := Nat.pos_of_isPowerOfTwo a.pow

theorem dvd_of_le {a b : ByteAlignment} (h : a.val ≤ b.val) : a.val ∣ b.val := by
  obtain ⟨i,hi⟩ := a.pow
  obtain ⟨j,hj⟩ := b.pow
  rw [hi,hj] at h ⊢
  exact Nat.pow_dvd_pow 2 ((Nat.pow_le_pow_iff_right (by decide)).mp h)

def max (a b : ByteAlignment) : ByteAlignment :=
  ⟨Max.max a.val b.val,by rcases le_total a.val b.val with h | h <;> simp [h,a.pow,b.pow]⟩

theorem roundUp_eq_max (a b : ByteAlignment) : roundUp a.val b.val = (max a b).val := by
  rcases le_total a.val b.val with h | h
  · have hle : roundUp a.val b.val ≤ b.val := (roundUp_le_iff ⟨1,(Nat.mul_one _).symm⟩ b.pos).mpr h
    have hge : b.val ≤ roundUp a.val b.val :=
      Nat.le_of_dvd (lt_of_lt_of_le a.pos (le_roundUp a.val b.pos)) (dvd_roundUp a.val b.val)
    simp [max,h,le_antisymm hle hge]
  · rw [roundUp_of_dvd (dvd_of_le h) b.pos]
    simp [max,h]

end ByteAlignment

structure Layout where
  size : Nat
  align : ByteAlignment
  pos : 0 < size
  padded : align.val ∣ size

namespace Layout

def extend (l member : Layout) : Layout where
  size := roundUp (roundUp l.size member.align.val + member.size) (l.align.max member.align).val
  align := l.align.max member.align
  pos := by
    have h := le_roundUp (roundUp l.size member.align.val + member.size)
      (l.align.max member.align).pos
    exact lt_of_lt_of_le (Nat.add_pos_right _ member.pos) h
  padded := dvd_roundUp _ _

def Fits (l : Layout) (bufferSize : Nat) (bufferAlignment : ByteAlignment) : Prop :=
  l.size ≤ bufferSize ∧ l.align.val ≤ bufferAlignment.val

instance (l : Layout) (bufferSize : Nat) (bufferAlignment : ByteAlignment) :
    Decidable (l.Fits bufferSize bufferAlignment) := inferInstanceAs (Decidable (_ ∧ _))

theorem extend_size (l member : Layout) : (l.extend member).size =
    roundUp (roundUp l.size member.align.val + member.size) (l.align.max member.align).val := rfl

theorem extend_unit_size {l : Layout} (hl : l.size = l.align.val) (member : Layout) :
    (l.extend member).size =
      (l.align.max member.align).val + roundUp member.size (l.align.max member.align).val := by
  rw [extend_size,hl,ByteAlignment.roundUp_eq_max,roundUp_add ⟨1,(Nat.mul_one _).symm⟩
    (l.align.max member.align).pos]

theorem extend_unit_fits {l : Layout} (hl : l.size = l.align.val) (member : Layout) {b : Nat}
    {a : ByteAlignment} : (l.extend member).Fits b a ↔
      member.size + (l.align.max member.align).val ≤ roundDown b (l.align.max member.align).val ∧
        l.align.val ≤ a.val ∧ member.align.val ≤ a.val := by
  have hpos := (l.align.max member.align).pos
  have hsize : (l.extend member).size ≤ b ↔
      member.size + (l.align.max member.align).val ≤ roundDown b (l.align.max member.align).val := by
    rw [extend_unit_size hl,← roundUp_add ⟨1,(Nat.mul_one _).symm⟩ hpos,roundUp_le_roundDown hpos,
      Nat.add_comm]
  rw [Fits,hsize]
  exact and_congr_right' max_le_iff

end Layout

end FlexTypeclass.Lib
