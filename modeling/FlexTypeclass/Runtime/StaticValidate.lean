import FlexTypeclass.Lib.Layout

namespace FlexTypeclass.Runtime.InplaceTypeclass
open Lib

inductive SizePolicy where
  | Exact
  | AtLeast
  deriving DecidableEq, Repr

inductive AlignPolicy where
  | Exact
  | AtLeast
  deriving DecidableEq, Repr

-- An empty string in the settings is `none`.
structure InlineTypeclassSettings where
  BufferSize : Option Nat
  BufferAlignment : Option ByteAlignment
  SizePolicyType : SizePolicy
  AlignPolicyType : AlignPolicy

def vptr : Layout := ⟨8,⟨8,3,rfl⟩,by decide,Nat.dvd_refl 8⟩

-- `InplaceTypeclassImplBase` has virtual functions and no data.
def implBaseLayout : Layout := vptr

def implLayout (concreteData : Layout) : Layout := implBaseLayout.extend concreteData

namespace InlineTypeclassSettings

variable (st : InlineTypeclassSettings)

def bufferSize : Nat := st.BufferSize.getD 64

def bufferAlignment : ByteAlignment := st.BufferAlignment.getD implBaseLayout.align

def static_validate (ActualSize ActualAlignment : Nat) : Bool :=
  (match st.AlignPolicyType with
    | .AtLeast => decide (st.bufferAlignment.val ≥ ActualAlignment)
    | .Exact => decide (st.bufferAlignment.val = ActualAlignment)) &&
  (match st.SizePolicyType with
    | .AtLeast => decide (st.bufferSize ≥ ActualSize)
    | .Exact => decide (st.bufferSize = ActualSize))

-- The object constructed in `storage_`, or `none` when a `static_assert` stops the compiler.
def convertingConstructor (ImplType : Layout) : Option Layout :=
  if st.static_validate ImplType.size ImplType.align.val then some (implLayout ImplType) else none

def convertingAssignment (ImplType : Layout) : Option Layout :=
  if st.static_validate ImplType.size ImplType.align.val then some (implLayout ImplType) else none

def Contained (o : Option Layout) : Prop :=
  ∀ impl, o = some impl → impl.Fits st.bufferSize st.bufferAlignment

end InlineTypeclassSettings

def SizePolicy.refuses (buffer actual : Nat) : SizePolicy → Prop
  | .AtLeast => buffer < actual
  | .Exact => buffer ≠ actual

def AlignPolicy.refuses (buffer actual : Nat) : AlignPolicy → Prop
  | .AtLeast => buffer < actual
  | .Exact => buffer ≠ actual

section Validate

variable {st : InlineTypeclassSettings} {T : Layout}

theorem static_validate_refuses :
    st.static_validate T.size T.align.val = false ↔
      st.AlignPolicyType.refuses st.bufferAlignment.val T.align.val ∨
        st.SizePolicyType.refuses st.bufferSize T.size := by
  rw [InlineTypeclassSettings.static_validate,Bool.and_eq_false_iff]
  cases st.AlignPolicyType <;> cases st.SizePolicyType <;>
    simp [AlignPolicy.refuses,SizePolicy.refuses]

theorem static_validate_align (h : st.static_validate T.size T.align.val = true) :
    T.align.val ≤ st.bufferAlignment.val := by
  rw [InlineTypeclassSettings.static_validate,Bool.and_eq_true] at h
  cases hp : st.AlignPolicyType with
  | AtLeast => simpa [hp] using h.1
  | Exact => exact ge_of_eq (by simpa [hp] using h.1)

theorem implLayout_fits : (implLayout T).Fits st.bufferSize st.bufferAlignment ↔
    T.size + max 8 T.align.val ≤ roundDown st.bufferSize (max 8 T.align.val) ∧
      8 ≤ st.bufferAlignment.val ∧ T.align.val ≤ st.bufferAlignment.val :=
  Layout.extend_unit_fits rfl T

theorem implLayout_fits_size (h : (implLayout T).Fits st.bufferSize st.bufferAlignment)
    (hv : st.static_validate T.size T.align.val = true) : st.SizePolicyType = .AtLeast := by
  rw [InlineTypeclassSettings.static_validate,Bool.and_eq_true] at hv
  cases hp : st.SizePolicyType with
  | AtLeast => rfl
  | Exact =>
    have hsize : st.bufferSize = T.size := by simpa [hp] using hv.2
    have hroom := (implLayout_fits.mp h).1.trans (roundDown_le _ _)
    have hmax : 8 ≤ max 8 T.align.val := le_max_left _ _
    omega

theorem contained_iff : st.Contained (st.convertingConstructor T) ↔
    st.static_validate T.size T.align.val = false ∨
      (implLayout T).Fits st.bufferSize st.bufferAlignment := by
  rw [InlineTypeclassSettings.Contained,InlineTypeclassSettings.convertingConstructor]
  cases st.static_validate T.size T.align.val <;> simp

end Validate

theorem storage_not_overrun_iff (st : InlineTypeclassSettings) (T : Layout) :
    (st.Contained (st.convertingConstructor T) ∧ st.Contained (st.convertingAssignment T)) ↔
      (st.AlignPolicyType.refuses st.bufferAlignment.val T.align.val ∨
        st.SizePolicyType.refuses st.bufferSize T.size) ∨
      (st.SizePolicyType = .AtLeast ∧ 8 ≤ st.bufferAlignment.val ∧
        T.size + max 8 T.align.val ≤ roundDown st.bufferSize (max 8 T.align.val)) := by
  have hassign : st.convertingAssignment T = st.convertingConstructor T := rfl
  rw [hassign,and_self,contained_iff,← static_validate_refuses]
  cases hv : st.static_validate T.size T.align.val with
  | false => simp
  | true =>
    simp only [Bool.true_eq_false,false_or]
    constructor
    · intro hfits
      obtain ⟨hroom,halign,-⟩ := implLayout_fits.mp hfits
      exact ⟨implLayout_fits_size hfits hv,halign,hroom⟩
    · rintro ⟨-,halign,hroom⟩
      exact implLayout_fits.mpr ⟨hroom,halign,static_validate_align hv⟩

def defaultSettings : InlineTypeclassSettings := ⟨none,none,.AtLeast,.AtLeast⟩

def sixtyFourBytes : Layout := ⟨64,⟨8,3,rfl⟩,by decide,by decide⟩

theorem sixty_four_bytes_overrun :
    defaultSettings.convertingConstructor sixtyFourBytes = some (implLayout sixtyFourBytes) ∧
    (implLayout sixtyFourBytes).size = 72 ∧
    ¬ defaultSettings.Contained (defaultSettings.convertingConstructor sixtyFourBytes) := by
  refine ⟨rfl,rfl,fun h => ?_⟩
  exact absurd (h _ rfl) (by decide)

end FlexTypeclass.Runtime.InplaceTypeclass
