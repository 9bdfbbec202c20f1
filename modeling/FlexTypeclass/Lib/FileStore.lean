import Mathlib.Data.List.Nodup
import Mathlib.Logic.Function.Basic

namespace FlexTypeclass.Lib

section FileStore

variable {κ ν : Type} [DecidableEq κ]

def writeFile (store : κ → Option ν) (file : κ × ν) : κ → Option ν :=
  Function.update store file.1 (some file.2)

def writeAll (store : κ → Option ν) (files : List (κ × ν)) : κ → Option ν := files.foldl writeFile store

variable {store : κ → Option ν} {files : List (κ × ν)}

theorem writeAll_untouched {k : κ} (h : k ∉ files.map Prod.fst) : writeAll store files k = store k := by
  induction files generalizing store with
  | nil => rfl
  | cons file files ih =>
    rw [List.map_cons,List.mem_cons,not_or] at h
    rw [writeAll,List.foldl_cons,← writeAll,ih h.2,writeFile,Function.update_of_ne h.1]

theorem writeAll_of_nodup (hkeys : (files.map Prod.fst).Nodup) :
    ∀ file ∈ files, writeAll store files file.1 = some file.2 := by
  induction files generalizing store with
  | nil => simp
  | cons file files ih =>
    obtain ⟨hnotin,hrest⟩ := List.nodup_cons.mp hkeys
    intro other hother
    rw [writeAll,List.foldl_cons,← writeAll]
    rcases List.mem_cons.mp hother with rfl | hother
    · rw [writeAll_untouched hnotin,writeFile,Function.update_self]
    · exact ih hrest other hother

end FileStore

end FlexTypeclass.Lib
