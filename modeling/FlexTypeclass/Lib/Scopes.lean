import Mathlib.Data.List.Basic

namespace FlexTypeclass.Lib

abbrev Frame (ν ε : Type) := ν → Option ε

section Scopes

variable {ν ε : Type}

def lookup : List (Frame ν ε) → ν → Option ε
  | [], _ => none
  | frame :: frames, name => (frame name).or (lookup frames name)

theorem lookup_map {δ : Type} (g : ε → δ) (frames : List (Frame ν ε)) (name : ν) :
    lookup (frames.map fun frame name => (frame name).map g) name = (lookup frames name).map g := by
  induction frames with
  | nil => rfl
  | cons frame frames ih =>
    rw [List.map_cons,lookup,lookup,ih]
    cases frame name <;> rfl

theorem lookup_cons_none {frame : Frame ν ε} {frames : List (Frame ν ε)} {name : ν}
    (h : frame name = none) : lookup (frame :: frames) name = lookup frames name := by
  rw [lookup,h,Option.none_or]

theorem lookup_cons_some {frame : Frame ν ε} {frames : List (Frame ν ε)} {name : ν} {e : ε}
    (h : frame name = some e) : lookup (frame :: frames) name = some e := by
  rw [lookup,h,Option.some_or]

end Scopes

end FlexTypeclass.Lib
