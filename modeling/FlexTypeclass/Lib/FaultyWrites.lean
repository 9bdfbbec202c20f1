import FlexTypeclass.Lib.FileStore

namespace FlexTypeclass.Lib

inductive Stored (ν : Type) where
  | complete (content : ν)
  | damaged

-- An interrupted write has truncated the file and stopped on the way.
inductive Answer where
  | written
  | refused
  | interrupted
  deriving DecidableEq, Repr

section FaultyWrites

variable {κ ν : Type} [DecidableEq κ]

def tryWrite (store : κ → Option (Stored ν)) : Answer × κ × ν → κ → Option (Stored ν)
  | (.written,k,content) => Function.update store k (some (.complete content))
  | (.refused,_,_) => store
  | (.interrupted,k,_) => Function.update store k (some .damaged)

def attempt (store : κ → Option (Stored ν)) (writes : List (Answer × κ × ν)) : κ → Option (Stored ν) :=
  writes.foldl tryWrite store

def succeed (files : List (κ × ν)) : List (Answer × κ × ν) := files.map fun file => (.written,file)

variable {store a b : κ → Option (Stored ν)} {writes : List (Answer × κ × ν)} {files : List (κ × ν)}
  {k : κ}

@[simp] theorem attempt_nil : attempt store [] = store := rfl

@[simp] theorem attempt_cons (write : Answer × κ × ν) :
    attempt store (write :: writes) = attempt (tryWrite store write) writes := rfl

theorem tryWrite_untouched {write : Answer × κ × ν} (h : k ≠ write.2.1) :
    tryWrite store write k = store k := by
  obtain ⟨answer,file⟩ := write
  cases answer with
  | written => exact Function.update_of_ne h _ _
  | refused => rfl
  | interrupted => exact Function.update_of_ne h _ _

theorem attempt_untouched (h : ∀ write ∈ writes, k ≠ write.2.1) : attempt store writes k = store k := by
  induction writes generalizing store with
  | nil => rfl
  | cons write writes ih =>
    rw [attempt_cons,ih fun other hother => h other (by simp [hother]),
      tryWrite_untouched (h write (by simp))]

-- After a successful write to `k` the store no longer depends on what `k` held before.
theorem attempt_congr (h : k ∈ files.map Prod.fst ∨ a k = b k) :
    attempt a (succeed files) k = attempt b (succeed files) k := by
  induction files generalizing a b with
  | nil => simpa [succeed] using h
  | cons file files ih =>
    refine ih ?_
    rcases eq_or_ne k file.1 with rfl | hne
    · exact .inr (by simp [tryWrite])
    · refine h.imp (fun hk => ?_) fun hab => ?_
      · simpa [hne] using hk
      · rw [tryWrite_untouched hne,tryWrite_untouched hne,hab]

theorem attempt_recovers (h : ∀ write ∈ writes, write.2.1 ∈ files.map Prod.fst) :
    attempt (attempt store writes) (succeed files) = attempt store (succeed files) := by
  funext k
  apply attempt_congr
  by_cases hk : k ∈ files.map Prod.fst
  · exact .inl hk
  · refine .inr (attempt_untouched fun write hwrite => ?_)
    rintro rfl
    exact hk (h write hwrite)

theorem succeed_untouched (h : k ∉ files.map Prod.fst) : attempt store (succeed files) k = store k := by
  refine attempt_untouched fun write hwrite => ?_
  obtain ⟨file,hfile,rfl⟩ := List.mem_map.mp hwrite
  rintro rfl
  exact h (List.mem_map_of_mem hfile)

omit [DecidableEq κ] in
theorem replicate_zip (answer : Answer) (files : List (κ × ν)) :
    (List.replicate files.length answer).zip files = files.map fun file => (answer,file) := by
  induction files with
  | nil => rfl
  | cons file files ih => rw [List.length_cons,List.replicate_succ,List.zip_cons_cons,ih,List.map_cons]

theorem attempt_interrupted (hk : k ∈ files.map Prod.fst) :
    attempt store (files.map fun file => (.interrupted,file)) k = some .damaged := by
  induction files generalizing store with
  | nil => cases hk
  | cons file files ih =>
    rw [List.map_cons,attempt_cons]
    by_cases hrest : k ∈ files.map Prod.fst
    · exact ih hrest
    · have hfile : k = file.1 := by simpa [hrest] using hk
      rw [attempt_untouched fun write hwrite => ?_,hfile,tryWrite,Function.update_self]
      obtain ⟨other,hother,rfl⟩ := List.mem_map.mp hwrite
      rintro rfl
      exact hrest (List.mem_map_of_mem hother)

def Answer.leaves (answer : Answer) (content : ν) (stored : Option (Stored ν)) : Prop :=
  (answer = .written ∧ stored = some (.complete content)) ∨ (answer = .interrupted ∧ stored = some .damaged)

theorem tryWrite_cases (write : Answer × κ × ν) : tryWrite store write k = store k ∨
    (k = write.2.1 ∧ write.1.leaves write.2.2 (tryWrite store write k)) := by
  obtain ⟨answer,key,content⟩ := write
  rcases eq_or_ne k key with rfl | hne
  · cases answer with
    | written => exact .inr ⟨rfl,.inl ⟨rfl,Function.update_self _ _ _⟩⟩
    | refused => exact .inl rfl
    | interrupted => exact .inr ⟨rfl,.inr ⟨rfl,Function.update_self _ _ _⟩⟩
  · exact .inl (tryWrite_untouched hne)

theorem attempt_cases (store : κ → Option (Stored ν)) (writes : List (Answer × κ × ν)) (k : κ) :
    attempt store writes k = store k ∨
      ∃ write ∈ writes, k = write.2.1 ∧ write.1.leaves write.2.2 (attempt store writes k) := by
  induction writes generalizing store with
  | nil => exact .inl rfl
  | cons write writes ih =>
    rw [attempt_cons]
    rcases ih (tryWrite store write) with hsame | ⟨other,hother,hleaves⟩
    · rw [hsame]
      refine (tryWrite_cases write).imp_right fun hwrite => ?_
      exact ⟨write,by simp,hwrite⟩
    · exact .inr ⟨other,by simp [hother],hleaves⟩

end FaultyWrites

end FlexTypeclass.Lib
