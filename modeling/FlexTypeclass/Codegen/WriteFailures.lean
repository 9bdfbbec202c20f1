import FlexTypeclass.Codegen.AnnotationSettings
import FlexTypeclass.Lib.FaultyWrites

namespace FlexTypeclass.Codegen
open Lib Spelling

abbrev Disk := FilePath → Option (Stored FileContent)

section Runs

variable {naming : Naming} (dcheck : Bool) (outDir_ : FilePath)

-- `base::WriteFile` returns -1 and the run goes on; a process that is killed leaves the last answers out.
def attemptRun (answers : List Answer) (invocations : List (Invocation naming)) (disk : Disk) : Disk :=
  attempt disk (answers.zip (written outDir_ (untilStop dcheck invocations)))

def cleanRun (invocations : List (Invocation naming)) (disk : Disk) : Disk :=
  attempt disk (succeed (written outDir_ (untilStop dcheck invocations)))

theorem written_subset_iff (before invocations : List (Invocation naming)) :
    (written outDir_ before).map Prod.fst ⊆ (written outDir_ invocations).map Prod.fst ↔
      typeclassNames (performed before) ⊆ typeclassNames (performed invocations) ∧
      instanceNames (performed before) ⊆ instanceNames (performed invocations) := by
  rw [written_paths,written_paths,List.map_subset_iff _ (genPath_injective outDir_)]
  have hhpp : Suffix.typeclassHpp ≠ .instanceHpp := by simp
  constructor
  · intro h
    constructor
    · intro name hname
      rw [← mem_keys_typeclass _ _ hhpp] at hname ⊢
      exact h hname
    · intro name hname
      rw [← mem_keys_instance] at hname ⊢
      exact h hname
  · rintro ⟨hclasses,hinstances⟩ ⟨name,suffix⟩ hkey
    by_cases hsuffix : suffix = .instanceHpp
    · subst hsuffix
      rw [mem_keys_instance] at hkey ⊢
      exact hinstances hkey
    · rw [mem_keys_typeclass _ _ hsuffix] at hkey ⊢
      exact hclasses hkey

theorem rerun_recovers_iff (before invocations : List (Invocation naming)) :
    (∀ disk answers, cleanRun dcheck outDir_ invocations (attemptRun dcheck outDir_ answers before disk) =
        cleanRun dcheck outDir_ invocations disk) ↔
      typeclassNames (untilStop dcheck before) ⊆ typeclassNames (untilStop dcheck invocations) ∧
      instanceNames (untilStop dcheck before) ⊆ instanceNames (untilStop dcheck invocations) := by
  have hnames := written_subset_iff outDir_ (untilStop dcheck before) (untilStop dcheck invocations)
  rw [performed_untilStop,performed_untilStop] at hnames
  rw [← hnames]
  constructor
  · intro hall path hpath
    by_contra hnew
    have hrun := congrFun (hall (fun _ => none)
      (List.replicate (written outDir_ (untilStop dcheck before)).length .interrupted)) path
    rw [cleanRun,cleanRun,succeed_untouched hnew,succeed_untouched hnew,attemptRun,replicate_zip,
      attempt_interrupted hpath] at hrun
    cases hrun
  · intro hsubset disk answers
    apply attempt_recovers
    rintro ⟨answer,file⟩ hwrite
    exact hsubset (List.mem_map_of_mem (List.of_mem_zip hwrite).2)

end Runs

end FlexTypeclass.Codegen
